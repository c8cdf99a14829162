import LeftRecursion.Grammar.Basic
import Mathlib.Computability.Language
import Mathlib.Logic.Relation
import Mathlib.Order.CompletePartialOrder

/-!
Derivations, and the words that rows of symbols stand for. A word is a sequence
of terminals from which every `e` is erased, so an alternative that is `e` and
one without symbols stand for the same word, the empty one.

Derivations rewrite a row of symbols one nonterminal at a time. `Yields` reads
the row from left to right instead and counts the nonterminals that are
replaced; both give the same words.
-/

namespace LeftRecursion

def eraseEmpty (terminals : List String) : List String :=
  terminals.filter fun text => text != "e"

theorem eraseEmpty_append (first second : List String) :
    eraseEmpty (first ++ second) = eraseEmpty first ++ eraseEmpty second :=
  List.filter_append first second

namespace Grammar

section Rewriting

/-- Replaces one nonterminal, anywhere in a row of symbols, by an alternative of it. -/
inductive Produces (grammar : Grammar) : Production → Production → Prop where
  | replace (before after : Production) (name : String) (production : Production)
      (member : production ∈ grammar.alternatives name) :
      Produces grammar (before ++ .nonterminal name :: after) (before ++ production ++ after)

abbrev Derives (grammar : Grammar) : Production → Production → Prop :=
  Relation.ReflTransGen grammar.Produces

abbrev DerivesProperly (grammar : Grammar) : Production → Production → Prop :=
  Relation.TransGen grammar.Produces

theorem produces_of_mem (grammar : Grammar) (name : String) (production : Production)
    (member : production ∈ grammar.alternatives name) :
    grammar.Produces [.nonterminal name] production := by
  simpa using Produces.replace [] [] name production member

theorem Produces.within {grammar : Grammar} {source target : Production}
    (step : grammar.Produces source target) (before after : Production) :
    grammar.Produces (before ++ source ++ after) (before ++ target ++ after) := by
  cases step with
  | replace left right name production member =>
      have wider := Produces.replace (before ++ left) (right ++ after) name production member
      simpa using wider

theorem Derives.within {grammar : Grammar} {source target : Production}
    (derived : grammar.Derives source target) (before after : Production) :
    grammar.Derives (before ++ source ++ after) (before ++ target ++ after) :=
  Relation.ReflTransGen.lift (fun row => before ++ row ++ after)
    (fun _ _ step => Produces.within step before after) _ _ derived

theorem DerivesProperly.within {grammar : Grammar} {source target : Production}
    (derived : grammar.DerivesProperly source target) (before after : Production) :
    grammar.DerivesProperly (before ++ source ++ after) (before ++ target ++ after) :=
  Relation.TransGen.lift (fun row => before ++ row ++ after)
    (fun _ _ step => Produces.within step before after) _ _ derived

end Rewriting

section Words

def words (grammar : Grammar) (symbols : Production) : Language String :=
  {word | ∃ terminals : List String,
    grammar.Derives symbols (terminals.map .terminal) ∧ eraseEmpty terminals = word}

def language (grammar : Grammar) (name : String) : Language String :=
  grammar.words [.nonterminal name]

def wordsOfAny (grammar : Grammar) (rewrite : Rewrite) : Language String :=
  {word | ∃ production ∈ rewrite, word ∈ grammar.words production}

/-- `Yields size symbols word`: the symbols stand for the word, and it takes
`size` replacements to see that. -/
inductive Yields (grammar : Grammar) : Nat → Production → List String → Prop where
  | nil : Yields grammar 0 [] []
  | terminal {size : Nat} {rest : Production} {word : List String} (text : String)
      (tail : Yields grammar size rest word) :
      Yields grammar size (.terminal text :: rest) (eraseEmpty [text] ++ word)
  | nonterminal {first second : Nat} {name : String} {production rest : Production}
      {left right : List String} (member : production ∈ grammar.alternatives name)
      (head : Yields grammar first production left)
      (tail : Yields grammar second rest right) :
      Yields grammar (first + second + 1) (.nonterminal name :: rest) (left ++ right)

end Words

section Yields

variable {grammar : Grammar}

theorem Yields.append {first second : Nat} {front back : Production} {left right : List String}
    (head : grammar.Yields first front left) (tail : grammar.Yields second back right) :
    grammar.Yields (first + second) (front ++ back) (left ++ right) := by
  induction head with
  | nil => simpa using tail
  | terminal text _ ih =>
      rw [List.cons_append, List.append_assoc]
      exact .terminal text ih
  | nonterminal member production _ _ ih =>
      have whole := Yields.nonterminal member production ih
      rw [List.cons_append, List.append_assoc]
      convert whole using 1
      omega

theorem yields_append_iff (size : Nat) (front back : Production) (word : List String) :
    grammar.Yields size (front ++ back) word ↔
      ∃ first second left right, grammar.Yields first front left ∧
        grammar.Yields second back right ∧ size = first + second ∧ word = left ++ right := by
  constructor
  · intro yielded
    induction front generalizing size word with
    | nil => exact ⟨0, size, [], word, .nil, yielded, (Nat.zero_add size).symm, rfl⟩
    | cons symbol rest ih =>
        rw [List.cons_append] at yielded
        cases yielded with
        | terminal text tail =>
            obtain ⟨first, second, left, right, front, back, rfl, rfl⟩ := ih _ _ tail
            exact ⟨first, second, _, right, .terminal text front, back, rfl,
              (List.append_assoc _ _ _).symm⟩
        | nonterminal member head tail =>
            obtain ⟨first, second, left, right, front, back, rfl, rfl⟩ := ih _ _ tail
            exact ⟨_, second, _, right, .nonterminal member head front, back, by omega,
              (List.append_assoc _ _ _).symm⟩
  · rintro ⟨first, second, left, right, head, tail, rfl, rfl⟩
    exact head.append tail

theorem yields_nonterminal_iff (size : Nat) (name : String) (word : List String) :
    grammar.Yields size [.nonterminal name] word ↔
      ∃ smaller, size = smaller + 1 ∧
        ∃ production ∈ grammar.alternatives name, grammar.Yields smaller production word := by
  constructor
  · intro yielded
    cases yielded with
    | nonterminal member head tail =>
        cases tail
        rw [List.append_nil]
        exact ⟨_, rfl, _, member, head⟩
  · rintro ⟨smaller, rfl, production, member, head⟩
    have whole := Yields.nonterminal member head .nil
    rwa [List.append_nil] at whole

theorem yields_terminals (terminals : List String) :
    grammar.Yields 0 (terminals.map .terminal) (eraseEmpty terminals) := by
  induction terminals with
  | nil => exact .nil
  | cons text rest ih =>
      have split : eraseEmpty (text :: rest) = eraseEmpty [text] ++ eraseEmpty rest :=
        eraseEmpty_append [text] rest
      rw [List.map_cons, split]
      exact .terminal text ih

theorem Yields.derives {size : Nat} {symbols : Production} {word : List String}
    (yielded : grammar.Yields size symbols word) : word ∈ grammar.words symbols := by
  induction yielded with
  | nil => exact ⟨[], .refl, rfl⟩
  | terminal text _ ih =>
      obtain ⟨terminals, derived, rfl⟩ := ih
      refine ⟨text :: terminals, ?_, eraseEmpty_append [text] terminals⟩
      simpa using Derives.within derived [.terminal text] []
  | @nonterminal _ _ name production rest _ _ member _ _ ihHead ihTail =>
      obtain ⟨front, derivedFront, rfl⟩ := ihHead
      obtain ⟨back, derivedBack, rfl⟩ := ihTail
      refine ⟨front ++ back, ?_, eraseEmpty_append front back⟩
      have replaced : grammar.Produces (.nonterminal name :: rest) (production ++ rest) :=
        .replace [] rest name production member
      have first : grammar.Derives (production ++ rest) (front.map .terminal ++ rest) := by
        simpa using Derives.within derivedFront [] rest
      have second : grammar.Derives (front.map .terminal ++ rest)
          (front.map .terminal ++ back.map .terminal) := by
        simpa using Derives.within derivedBack (front.map .terminal) []
      rw [List.map_append]
      exact .head replaced (first.trans second)

-- The replaced nonterminal is put back around what its alternative yields.
theorem Produces.yields {before after : Production} {size : Nat} {word : List String}
    (step : grammar.Produces before after) (yielded : grammar.Yields size after word) :
    grammar.Yields (size + 1) before word := by
  cases step with
  | replace left right name production member =>
      obtain ⟨_, third, _, _, front, back, rfl, rfl⟩ := (yields_append_iff _ _ _ _).mp yielded
      obtain ⟨first, second, _, _, head, middle, rfl, rfl⟩ :=
        (yields_append_iff _ _ _ _).mp front
      have whole := head.append (.nonterminal member middle back)
      rw [List.append_assoc]
      convert whole using 1
      omega

theorem mem_words_iff (symbols : Production) (word : List String) :
    word ∈ grammar.words symbols ↔ ∃ size, grammar.Yields size symbols word := by
  constructor
  · rintro ⟨terminals, derived, rfl⟩
    induction derived using Relation.ReflTransGen.head_induction_on with
    | refl => exact ⟨0, yields_terminals terminals⟩
    | head step _ ih =>
        obtain ⟨size, yielded⟩ := ih
        exact ⟨size + 1, step.yields yielded⟩
  · rintro ⟨size, yielded⟩
    exact yielded.derives

end Yields

section WordLaws

variable (grammar : Grammar)

theorem words_append (front back : Production) :
    grammar.words (front ++ back) = grammar.words front * grammar.words back := by
  ext word
  rw [Language.mem_mul, mem_words_iff]
  constructor
  · rintro ⟨size, yielded⟩
    obtain ⟨first, second, left, right, head, tail, rfl, rfl⟩ :=
      (yields_append_iff _ _ _ _).mp yielded
    exact ⟨left, head.derives, right, tail.derives, rfl⟩
  · rintro ⟨left, inFront, right, inBack, rfl⟩
    obtain ⟨first, head⟩ := (mem_words_iff _ _).mp inFront
    obtain ⟨second, tail⟩ := (mem_words_iff _ _).mp inBack
    exact ⟨first + second, head.append tail⟩

theorem append_mem_words (front back : Production) (left right : List String)
    (head : left ∈ grammar.words front) (tail : right ∈ grammar.words back) :
    left ++ right ∈ grammar.words (front ++ back) := by
  rw [words_append]
  exact Language.append_mem_mul head tail

theorem language_eq_wordsOfAny (name : String) :
    grammar.language name = grammar.wordsOfAny (grammar.alternatives name) := by
  ext word
  rw [language, mem_words_iff]
  constructor
  · rintro ⟨size, yielded⟩
    obtain ⟨smaller, rfl, production, member, head⟩ := (yields_nonterminal_iff _ _ _).mp yielded
    exact ⟨production, member, head.derives⟩
  · rintro ⟨production, member, inWords⟩
    obtain ⟨size, head⟩ := (mem_words_iff _ _).mp inWords
    exact ⟨size + 1, (yields_nonterminal_iff _ _ _).mpr ⟨size, rfl, production, member, head⟩⟩

theorem words_le_language (name : String) (production : Production)
    (member : production ∈ grammar.alternatives name) :
    grammar.words production ≤ grammar.language name := by
  intro word inWords
  rw [language_eq_wordsOfAny]
  exact ⟨production, member, inWords⟩

theorem mem_words_terminal_iff (text : String) (word : List String) :
    word ∈ grammar.words [.terminal text] ↔ word = eraseEmpty [text] := by
  rw [mem_words_iff]
  constructor
  · rintro ⟨size, yielded⟩
    cases yielded with
    | terminal _ tail =>
        cases tail
        rw [List.append_nil]
  · rintro rfl
    exact ⟨0, yields_terminals [text]⟩

theorem words_epsilon : grammar.words epsilon = 1 := by
  ext word
  rw [epsilon, mem_words_terminal_iff, Language.mem_one]
  rfl

-- A grammar whose rules all hold in another one has no words that are not there.
theorem words_le_of_admissible (other : Grammar)
    (admissible : ∀ name, ∀ production ∈ grammar.alternatives name,
      other.words production ≤ other.language name) (symbols : Production) :
    grammar.words symbols ≤ other.words symbols := by
  intro word inWords
  obtain ⟨size, yielded⟩ := (mem_words_iff _ _).mp inWords
  induction yielded with
  | nil => exact Yields.nil.derives
  | @terminal _ rest _ text tail ih =>
      have head : eraseEmpty [text] ∈ other.words [.terminal text] :=
        (yields_terminals [text]).derives
      exact other.append_mem_words [.terminal text] rest _ _ head (ih tail.derives)
  | @nonterminal _ _ name _ rest _ _ member head tail ihHead ihTail =>
      have first := admissible name _ member (ihHead head.derives)
      exact other.append_mem_words [.nonterminal name] rest _ _ first (ihTail tail.derives)

/-- Nothing is lost from one grammar to another if each alternative is covered by
alternatives of the other that yield the same in no more replacements. The
covering is read in the first grammar, so the induction is on their number. -/
theorem words_le_of_covered (other : Grammar)
    (covered : ∀ name, ∀ production ∈ grammar.alternatives name, ∀ size word,
      grammar.Yields size production word → ∃ instead ∈ other.alternatives name,
        ∃ smaller ≤ size, grammar.Yields smaller instead word) (symbols : Production) :
    grammar.words symbols ≤ other.words symbols := by
  have bySize : ∀ size symbols word,
      grammar.Yields size symbols word → word ∈ other.words symbols := by
    intro size
    induction size using Nat.strong_induction_on with
    | _ size ih =>
        intro symbols
        induction symbols generalizing size with
        | nil =>
            intro word yielded
            cases yielded
            exact Yields.nil.derives
        | cons symbol rest ihRest =>
            intro word yielded
            cases yielded with
            | terminal text tail =>
                have head : eraseEmpty [text] ∈ other.words [.terminal text] :=
                  (yields_terminals [text]).derives
                exact other.append_mem_words [.terminal text] rest _ _ head
                  (ihRest size ih _ tail)
            | @nonterminal first second name production _ left right member head tail =>
                obtain ⟨instead, inOther, smaller, bound, yielded⟩ :=
                  covered name production member first left head
                have front : left ∈ other.language name :=
                  other.words_le_language name instead inOther
                    (ih smaller (by omega) instead left yielded)
                have back : right ∈ other.words rest := ih second (by omega) rest right tail
                exact other.append_mem_words [.nonterminal name] rest left right front back
  intro word inWords
  obtain ⟨size, yielded⟩ := (mem_words_iff _ _).mp inWords
  exact bySize size symbols word yielded

end WordLaws

end Grammar

end LeftRecursion
