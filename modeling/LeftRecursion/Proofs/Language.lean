import LeftRecursion.Proofs.Steps

/-!
What processing a nonterminal does to the languages. With α for the tails and β
for the bases, the auxiliary stands for α∗ and its owner for β α∗, both also where
α mentions the owner or an older auxiliary again, since that is all that their
rules say of them.

No step loses a word. A step that does not fall back on the empty string adds
none either, and where it does fall back, the nonterminal had no word at all.
-/

namespace LeftRecursion

open Computability

namespace Grammar

section Sums

variable (grammar : Grammar)

theorem words_le_wordsOfAny (rewrite : Rewrite) (production : Production)
    (member : production ∈ rewrite) :
    grammar.words production ≤ grammar.wordsOfAny rewrite :=
  fun _ inWords => ⟨production, member, inWords⟩

theorem wordsOfAny_append (first second : Rewrite) :
    grammar.wordsOfAny (first ++ second) =
      grammar.wordsOfAny first + grammar.wordsOfAny second := by
  ext word
  rw [Language.mem_add]
  constructor
  · rintro ⟨production, member, inWords⟩
    rcases List.mem_append.mp member with inFirst | inSecond
    · exact Or.inl ⟨production, inFirst, inWords⟩
    · exact Or.inr ⟨production, inSecond, inWords⟩
  · rintro (⟨production, member, inWords⟩ | ⟨production, member, inWords⟩)
    · exact ⟨production, List.mem_append_left second member, inWords⟩
    · exact ⟨production, List.mem_append_right first member, inWords⟩

theorem wordsOfAny_singleton (production : Production) :
    grammar.wordsOfAny [production] = grammar.words production := by
  ext word
  constructor
  · rintro ⟨other, member, inWords⟩
    rwa [List.mem_singleton.mp member] at inWords
  · intro inWords
    exact ⟨production, List.mem_singleton_self production, inWords⟩

theorem wordsOfAny_map_append (rewrite : Rewrite) (last : Production) :
    grammar.wordsOfAny (rewrite.map fun production => production ++ last) =
      grammar.wordsOfAny rewrite * grammar.words last := by
  ext word
  rw [Language.mem_mul]
  constructor
  · rintro ⟨_, member, inWords⟩
    obtain ⟨production, inRewrite, rfl⟩ := List.mem_map.mp member
    rw [words_append, Language.mem_mul] at inWords
    obtain ⟨left, inProduction, right, inLast, rfl⟩ := inWords
    exact ⟨left, ⟨production, inRewrite, inProduction⟩, right, inLast, rfl⟩
  · rintro ⟨left, ⟨production, inRewrite, inProduction⟩, right, inLast, rfl⟩
    exact ⟨_, List.mem_map_of_mem inRewrite,
      grammar.append_mem_words production last left right inProduction inLast⟩

-- Rules for a nonterminal that no other rule mentions add no words elsewhere.
theorem words_le_of_unmentioned (other : Grammar) (auxiliary : String)
    (unmentioned : ¬ other.Occurs (.nonterminal auxiliary))
    (same : ∀ name, name ≠ auxiliary → grammar.alternatives name = other.alternatives name)
    (symbols : Production) (absent : .nonterminal auxiliary ∉ symbols) :
    grammar.words symbols ≤ other.words symbols := by
  intro word inWords
  obtain ⟨size, yielded⟩ := (mem_words_iff _ _).mp inWords
  induction yielded with
  | nil => exact Yields.nil.derives
  | @terminal _ rest _ text tail ih =>
      have head : eraseEmpty [text] ∈ other.words [.terminal text] :=
        (yields_terminals [text]).derives
      have back := ih (fun inRest => absent (List.mem_cons_of_mem _ inRest)) tail.derives
      exact other.append_mem_words [.terminal text] rest _ _ head back
  | @nonterminal _ _ name production rest _ _ member head tail ihHead ihTail =>
      have different : name ≠ auxiliary := by
        rintro rfl
        exact absent List.mem_cons_self
      rw [same name different] at member
      have front := ihHead (fun occurs => unmentioned ⟨name, production, member, occurs⟩)
        head.derives
      have back := ihTail (fun inRest => absent (List.mem_cons_of_mem _ inRest)) tail.derives
      exact other.append_mem_words [.nonterminal name] rest _ _
        (other.words_le_language name production member front) back

end Sums

section Auxiliary

variable (grammar : Grammar) (split : Split) (auxiliary : String)

theorem wordsOfAny_baseRewrite :
    grammar.wordsOfAny (split.baseRewrite auxiliary) =
      grammar.wordsOfAny split.bases * grammar.language auxiliary :=
  grammar.wordsOfAny_map_append split.bases _

theorem wordsOfAny_auxiliaryRewrite :
    grammar.wordsOfAny (split.auxiliaryRewrite auxiliary) =
      grammar.wordsOfAny split.tails * grammar.language auxiliary + 1 := by
  rw [Split.auxiliaryRewrite, wordsOfAny_append, wordsOfAny_singleton, words_epsilon]
  congr 1
  exact grammar.wordsOfAny_map_append split.tails _

/-- An auxiliary stands for any number of tails. Least solutions are not at hand,
since the tails may depend on the auxiliary's owner, so one inclusion goes by the
number of replacements. -/
theorem language_auxiliary
    (rule : grammar.alternatives auxiliary = split.auxiliaryRewrite auxiliary) :
    grammar.language auxiliary = (grammar.wordsOfAny split.tails)∗ := by
  have equation : grammar.language auxiliary =
      grammar.wordsOfAny split.tails * grammar.language auxiliary + 1 := by
    rw [← wordsOfAny_auxiliaryRewrite, ← rule]
    exact grammar.language_eq_wordsOfAny auxiliary
  apply le_antisymm
  · have bySize : ∀ size word, grammar.Yields size [.nonterminal auxiliary] word →
        word ∈ (grammar.wordsOfAny split.tails)∗ := by
      intro size
      induction size using Nat.strong_induction_on with
      | _ size ih =>
          intro word yielded
          obtain ⟨smaller, rfl, production, member, inner⟩ :=
            (yields_nonterminal_iff _ _ _).mp yielded
          rw [rule, Split.mem_auxiliaryRewrite_iff] at member
          rcases member with ⟨tail, fromTail, rfl⟩ | rfl
          · obtain ⟨first, second, left, right, head, last, rfl, rfl⟩ :=
              (yields_append_iff _ _ _ _).mp inner
            have front : left ∈ grammar.wordsOfAny split.tails := ⟨tail, fromTail, head.derives⟩
            have back := ih second (by omega) right last
            have absorbed : grammar.wordsOfAny split.tails * (grammar.wordsOfAny split.tails)∗ ≤
                (grammar.wordsOfAny split.tails)∗ := mul_kstar_le_kstar
            exact absorbed (Language.append_mem_mul front back)
          · have empty := inner.derives
            rw [words_epsilon, Language.mem_one] at empty
            subst empty
            exact Language.nil_mem_kstar _
    intro word inLanguage
    obtain ⟨size, yielded⟩ := (mem_words_iff _ _).mp inLanguage
    exact bySize size word yielded
  · apply kstar_le_of_mul_le_right
    · calc
        (1 : Language String) ≤ grammar.wordsOfAny split.tails * grammar.language auxiliary + 1 :=
          le_add_self
        _ = grammar.language auxiliary := equation.symm
    · calc
        grammar.wordsOfAny split.tails * grammar.language auxiliary ≤
            grammar.wordsOfAny split.tails * grammar.language auxiliary + 1 := le_self_add
        _ = grammar.language auxiliary := equation.symm

end Auxiliary

end Grammar

namespace Progress

section Effect

variable (progress : Progress) (name : String)

def unfoldedGrammar : Grammar :=
  progress.grammar.insert name (progress.unfolded name)

theorem words_unfoldedGrammar (symbols : Production) :
    (progress.unfoldedGrammar name).words symbols = progress.grammar.words symbols :=
  progress.grammar.words_insert_unfold progress.processed name symbols

theorem alternatives_unfoldedGrammar (other : String) :
    (progress.unfoldedGrammar name).alternatives other =
      if other = name then progress.unfolded name else progress.grammar.alternatives other :=
  progress.grammar.alternatives_insert name other _

theorem words_kept (noTails : (progress.split name).tails = []) (symbols : Production) :
    (progress.kept name).grammar.words symbols = progress.grammar.words symbols := by
  rw [← progress.words_unfoldedGrammar name]
  apply le_antisymm
  · apply Grammar.words_le_of_admissible
    intro other production member
    apply Grammar.words_le_language
    rw [alternatives_kept] at member
    rw [alternatives_unfoldedGrammar]
    split at member
    · next same =>
        rw [if_pos same]
        exact ((Split.mem_others_iff _ _ _).mp member).1
    · next different =>
        rw [if_neg different]
        exact member
  · apply Grammar.words_le_of_admissible
    intro other production member
    rw [alternatives_unfoldedGrammar] at member
    split at member
    · next same =>
        subst same
        rcases Split.mem_split other _ production member with inOthers | rfl | ⟨tail, inTails, _⟩
        · apply Grammar.words_le_language
          rwa [alternatives_kept, if_pos rfl]
        · exact le_refl _
        · rw [← split, noTails] at inTails
          cases inTails
    · next different =>
        apply Grammar.words_le_language
        rwa [alternatives_kept, if_neg different]

theorem language_moved_auxiliary (auxiliary : String) :
    (progress.moved name auxiliary).grammar.language auxiliary =
      ((progress.moved name auxiliary).grammar.wordsOfAny (progress.split name).tails)∗ := by
  apply Grammar.language_auxiliary
  rw [alternatives_moved, if_pos rfl]

/-- The unfolded grammar with the auxiliary beside it, which its owner does not use
yet. -/
def extendedGrammar (auxiliary : String) : Grammar :=
  (progress.unfoldedGrammar name).insertGenerated auxiliary
    ((progress.split name).auxiliaryRewrite auxiliary)

theorem alternatives_extendedGrammar (auxiliary other : String) :
    (progress.extendedGrammar name auxiliary).alternatives other =
      if other = auxiliary then (progress.split name).auxiliaryRewrite auxiliary
      else if other = name then progress.unfolded name
      else progress.grammar.alternatives other := by
  rw [extendedGrammar, Grammar.alternatives_insertGenerated, alternatives_unfoldedGrammar]

theorem language_extended_auxiliary (auxiliary : String) :
    (progress.extendedGrammar name auxiliary).language auxiliary =
      ((progress.extendedGrammar name auxiliary).wordsOfAny (progress.split name).tails)∗ := by
  apply Grammar.language_auxiliary
  rw [alternatives_extendedGrammar, if_pos rfl]

theorem language_extended_mul_le (auxiliary : String) (different : name ≠ auxiliary) :
    (progress.extendedGrammar name auxiliary).language name *
        (progress.extendedGrammar name auxiliary).wordsOfAny (progress.split name).tails ≤
      (progress.extendedGrammar name auxiliary).language name := by
  intro word inProduct
  obtain ⟨left, inOwner, right, ⟨tail, inTails, inTail⟩, rfl⟩ := Language.mem_mul.mp inProduct
  have whole := (progress.extendedGrammar name auxiliary).append_mem_words
    [.nonterminal name] tail left right inOwner inTail
  have rule : .nonterminal name :: tail ∈
      (progress.extendedGrammar name auxiliary).alternatives name := by
    rw [alternatives_extendedGrammar, if_neg different, if_pos rfl]
    exact ((Split.mem_tails_iff _ _ _).mp inTails).1
  exact Grammar.words_le_language _ name _ rule whole

end Effect

section Moved

variable {progress : Progress} {name auxiliary : String} (tidy : progress.Tidy)
  (defined : progress.grammar.defines name = true)
  (unused : progress.supply.next? = some auxiliary)

include tidy defined unused

theorem language_moved_name :
    (progress.moved name auxiliary).grammar.language name =
      (progress.moved name auxiliary).grammar.wordsOfAny (progress.split name).bases *
        ((progress.moved name auxiliary).grammar.wordsOfAny (progress.split name).tails)∗ := by
  have different := tidy.fresh_ne auxiliary unused name defined
  rw [Grammar.language_eq_wordsOfAny, alternatives_moved, if_neg different, if_pos rfl,
    Grammar.wordsOfAny_baseRewrite, language_moved_auxiliary]

theorem words_le_moved (symbols : Production) :
    progress.grammar.words symbols ≤ (progress.moved name auxiliary).grammar.words symbols := by
  rw [← progress.words_unfoldedGrammar name]
  apply Grammar.words_le_of_admissible
  intro other production member
  rw [alternatives_unfoldedGrammar] at member
  split at member
  · next same =>
      subst same
      have owner := language_moved_name tidy defined unused
      rcases Split.mem_split other _ production member with inOthers | rfl | ⟨tail, inTails, rfl⟩
      · have inBases := Split.mem_bases_of_mem (progress.split other) production inOthers
        rw [owner, ← mul_one (Grammar.words _ production)]
        exact mul_le_mul' (Grammar.words_le_wordsOfAny _ _ _ inBases) one_le_kstar
      · exact le_refl _
      · have inSum := Grammar.words_le_wordsOfAny
          (progress.moved other auxiliary).grammar _ tail inTails
        have absorbed := mul_le_mul_right inSum
          ((progress.moved other auxiliary).grammar.wordsOfAny (progress.split other).tails)∗
        rw [← List.singleton_append, Grammar.words_append, ← Grammar.language, owner, mul_assoc]
        exact mul_le_mul_right (le_trans absorbed kstar_mul_le_kstar) _
  · next different =>
      have known := progress.grammar.defines_of_mem other production member
      apply Grammar.words_le_language
      rwa [alternatives_moved, if_neg (tidy.fresh_ne auxiliary unused other known),
        if_neg different]

theorem words_moved_le_extended (noFallback : (progress.split name).assumesEmptyString = false)
    (tails : (progress.split name).tails ≠ []) (symbols : Production) :
    (progress.moved name auxiliary).grammar.words symbols ≤
      (progress.extendedGrammar name auxiliary).words symbols := by
  have different := tidy.fresh_ne auxiliary unused name defined
  apply Grammar.words_le_of_admissible
  intro other production member
  rw [alternatives_moved] at member
  split at member
  · next same =>
      apply Grammar.words_le_language
      rwa [alternatives_extendedGrammar, if_pos same]
  · next notNew =>
      split at member
      · next same =>
          subst same
          rw [Split.mem_baseRewrite_iff, Split.bases_eq_others _ tails noFallback] at member
          obtain ⟨base, inOthers, rfl⟩ := member
          have inOwner : (progress.extendedGrammar other auxiliary).words base ≤
              (progress.extendedGrammar other auxiliary).language other := by
            apply Grammar.words_le_language
            rw [alternatives_extendedGrammar, if_neg notNew, if_pos rfl]
            exact ((Split.mem_others_iff _ _ _).mp inOthers).1
          rw [Grammar.words_append, ← Grammar.language, language_extended_auxiliary]
          exact mul_kstar_le inOwner (progress.language_extended_mul_le other auxiliary different)
      · next elsewhere =>
          apply Grammar.words_le_language
          rwa [alternatives_extendedGrammar, if_neg notNew, if_neg elsewhere]

omit defined in
theorem words_extended_le (symbols : Production) (absent : .nonterminal auxiliary ∉ symbols) :
    (progress.extendedGrammar name auxiliary).words symbols ≤ progress.grammar.words symbols := by
  rw [← progress.words_unfoldedGrammar name]
  apply Grammar.words_le_of_unmentioned _ _ auxiliary
  · rintro ⟨other, production, member, occurs⟩
    rw [alternatives_unfoldedGrammar] at member
    have old : progress.grammar.Occurs (.nonterminal auxiliary) := by
      split at member
      · exact progress.occurs_of_mem_unfolded name production member _ occurs
      · exact ⟨other, production, member, occurs⟩
    exact tidy.fresh_ne auxiliary unused auxiliary (tidy.defines_of_occurs auxiliary old) rfl
  · intro other notNew
    rw [alternatives_extendedGrammar, if_neg notNew, alternatives_unfoldedGrammar]
  · exact absent

end Moved

section Steps

variable {progress next : Progress} {name : String}

theorem Step.words_le (step : Step progress name next) (tidy : progress.Tidy)
    (symbols : Production) : progress.grammar.words symbols ≤ next.grammar.words symbols := by
  cases step with
  | kept _ noTails => exact le_of_eq (progress.words_kept name noTails symbols).symm
  | moved _ defined _ unused => exact words_le_moved tidy defined unused symbols

theorem Step.language_eq (step : Step progress name next) (tidy : progress.Tidy)
    (noFallback : (progress.split name).assumesEmptyString = false) (other : String)
    (known : progress.grammar.defines other = true) :
    next.grammar.language other = progress.grammar.language other := by
  cases step with
  | kept _ noTails => exact progress.words_kept name noTails _
  | moved auxiliary defined tails unused =>
      have absent : .nonterminal auxiliary ∉ [Symbol.nonterminal other] := by
        intro same
        rw [List.mem_singleton, Symbol.nonterminal.injEq] at same
        exact tidy.fresh_ne auxiliary unused other known same.symm
      apply le_antisymm
      · calc
          (progress.moved name auxiliary).grammar.language other ≤
              (progress.extendedGrammar name auxiliary).language other :=
            words_moved_le_extended tidy defined unused noFallback tails _
          _ ≤ progress.grammar.language other := words_extended_le tidy unused _ absent
      · exact words_le_moved tidy defined unused _

/-- Where the empty string is assumed, the nonterminal derives nothing: a word of
it would need another word of it with fewer replacements. -/
theorem language_of_assumesEmptyString (progress : Progress) (name : String)
    (assumes : (progress.split name).assumesEmptyString = true) :
    progress.grammar.language name = 0 := by
  have noOthers := ((Split.assumesEmptyString_iff _).mp assumes).2
  have none : ∀ size word, ¬ progress.grammar.Yields size [.nonterminal name] word := by
    intro size
    induction size using Nat.strong_induction_on with
    | _ size ih =>
        intro word yielded
        obtain ⟨smaller, rfl, production, member, inner⟩ :=
          (Grammar.yields_nonterminal_iff _ _ _).mp yielded
        obtain ⟨other, inUnfolded, least, bound, again⟩ :=
          progress.grammar.yields_unfold progress.processed _ production member smaller word inner
        cases begins : beginsWith name other with
        | false =>
            have inOthers : other ∈ (progress.split name).others :=
              (Split.mem_others_iff _ _ _).mpr ⟨inUnfolded, begins⟩
            rw [noOthers] at inOthers
            cases inOthers
        | true =>
            obtain ⟨tail, rfl⟩ := (beginsWith_iff name other).mp begins
            obtain ⟨first, second, left, right, head, _, rfl, rfl⟩ :=
              (Grammar.yields_append_iff least [.nonterminal name] tail word).mp again
            exact ih first (by omega) left head
  ext word
  constructor
  · intro inLanguage
    obtain ⟨size, yielded⟩ := (Grammar.mem_words_iff _ _).mp inLanguage
    exact absurd yielded (none size word)
  · intro inZero
    exact absurd inZero (Language.notMem_zero word)

end Steps

end Progress

end LeftRecursion
