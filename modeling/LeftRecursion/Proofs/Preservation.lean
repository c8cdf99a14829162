import LeftRecursion.Proofs.Fallback
import LeftRecursion.Proofs.Language

/-!
Runs and languages. Over any ordering, names that are repeated, left out or made
up on the way included, a run loses no word of any nonterminal. It adds words
only by assuming the empty string for a nonterminal that derives nothing, which
cannot happen in a grammar in which every nonterminal derives something.
-/

namespace LeftRecursion

/-- Whether every nonterminal with a rule derives some word. -/
def Grammar.Productive (grammar : Grammar) : Prop :=
  ∀ name, grammar.defines name = true → ∃ word, word ∈ grammar.language name

namespace Progress

section Runs

variable {first progress next : Progress} {name : String} {ordering remaining : List String}

theorem Step.productive (step : Step progress name next) (tidy : progress.Tidy)
    (productive : progress.grammar.Productive) : next.grammar.Productive := by
  have kept : ∀ other, progress.grammar.defines other = true →
      ∃ word, word ∈ next.grammar.language other := by
    intro other defined
    obtain ⟨word, inLanguage⟩ := productive other defined
    exact ⟨word, step.words_le tidy _ inLanguage⟩
  intro other defined
  cases step with
  | kept known =>
      rcases (defines_kept_iff _ _ _).mp defined with rfl | old
      · exact kept other known
      · exact kept other old
  | moved auxiliary known =>
      rcases (defines_moved_iff _ _ _ _).mp defined with rfl | rfl | old
      · refine ⟨[], ?_⟩
        rw [language_moved_auxiliary]
        exact Language.nil_mem_kstar _
      · exact kept other known
      · exact kept other old

theorem Reached.words_le (reached : Reached first ordering progress remaining)
    (tidy : first.Tidy) (symbols : Production) :
    first.grammar.words symbols ≤ progress.grammar.words symbols := by
  apply reached.invariant fun progress _ =>
    first.grammar.words symbols ≤ progress.grammar.words symbols
  · exact le_refl _
  · intro state _ _ _ earlier before step
    exact le_trans before (step.words_le (earlier.tidy tidy) symbols)

theorem Reached.productive (reached : Reached first ordering progress remaining)
    (tidy : first.Tidy) (productive : first.grammar.Productive) : progress.grammar.Productive := by
  apply reached.invariant fun progress _ => progress.grammar.Productive
  · exact productive
  · intro state _ _ _ earlier before step
    exact step.productive (earlier.tidy tidy) before

theorem Reached.language_eq (reached : Reached first ordering progress remaining)
    (tidy : first.Tidy)
    (noFallback : ∀ state name rest, Reached first ordering state (name :: rest) →
      (state.split name).assumesEmptyString = false)
    (other : String) (defined : first.grammar.defines other = true) :
    progress.grammar.language other = first.grammar.language other := by
  apply reached.invariant fun progress _ =>
    progress.grammar.language other = first.grammar.language other
  · rfl
  · intro state name rest next earlier before step
    rw [step.language_eq (earlier.tidy tidy) (noFallback state name rest earlier) other
      (earlier.defines other defined), before]

theorem Reached.noFallback (reached : Reached first ordering progress (name :: remaining))
    (tidy : first.Tidy) (productive : first.grammar.Productive) :
    (progress.split name).assumesEmptyString = false := by
  cases assumes : (progress.split name).assumesEmptyString with
  | false => rfl
  | true =>
      have tails := ((Split.assumesEmptyString_iff _).mp assumes).1
      have defined : progress.grammar.defines name = true := by
        rw [Grammar.defines_iff]
        cases found : progress.grammar.productions name with
        | none =>
            rw [progress.split_of_undefined name found] at tails
            exact absurd rfl tails
        | some rewrite => exact ⟨rewrite, rfl⟩
      obtain ⟨word, inLanguage⟩ := reached.productive tidy productive name defined
      rw [progress.language_of_assumesEmptyString name assumes] at inLanguage
      exact absurd inLanguage (Language.notMem_zero word)

end Runs

end Progress

namespace Grammar

section Preservation

/-- A run that never assumes the empty string keeps the language of every
nonterminal of the grammar. -/
theorem language_removeInOrder (grammar result : Grammar) (ordering : List String)
    (done : (grammar.removeInOrder ordering).result = .ok result)
    (noFallback : ∀ progress name, ¬ grammar.FallsBack ordering progress name)
    (name : String) (defined : grammar.defines name = true) :
    result.language name = grammar.language name := by
  have verified : grammar.verify.result = .ok () := by
    rw [verify_ok_iff]
    exact (grammar.reached_of_ok result ordering done).1
  obtain ⟨closed, last, reached, rfl⟩ := grammar.reached_of_ok result ordering done
  apply reached.language_eq (Progress.start_tidy grammar closed)
  · intro state other rest earlier
    cases assumes : (state.split other).assumesEmptyString with
    | false => rfl
    | true => exact absurd ⟨verified, rest, earlier, assumes⟩ (noFallback state other)
  · exact defined

def entangled : Grammar :=
  ((empty "S").insert "S" [[.nonterminal "A", .terminal "a"], [.terminal "b"]]).insert "A"
    [[.nonterminal "A", .terminal "c"], [.nonterminal "S", .terminal "d"], [.terminal "f"]]

def disentangled : Grammar :=
  (entangled.insert "A" [[.terminal "b", .terminal "d", .nonterminal "Z"],
    [.terminal "f", .nonterminal "Z"]]).insertGenerated "Z"
      [[.terminal "c", .nonterminal "Z"],
        [.terminal "a", .terminal "d", .nonterminal "Z"], epsilon]

theorem entangled_noFallback (progress : Progress) (name : String) :
    ¬ entangled.FallsBack ["S", "A"] progress name := by
  intro fallsBack
  have warned := (emptyStringAssumed_mem_events_iff _ _ _).mpr ⟨progress, fallsBack⟩
  have events : (entangled.removeInOrder ["S", "A"]).events =
      [.substituting "A" "S", .eliminated "A" "Z"] := by decide
  rw [events] at warned
  simp at warned

theorem language_removeInOrder_entangled :
    (entangled.removeInOrder ["S", "A"]).result = .ok disentangled ∧
      (∀ progress name, ¬ entangled.FallsBack ["S", "A"] progress name) ∧
      entangled.defines "A" = true ∧
      disentangled.language "A" = entangled.language "A" := by
  have done : (entangled.removeInOrder ["S", "A"]).result = .ok disentangled := by decide
  have defined : entangled.defines "A" = true := by decide
  exact ⟨done, entangled_noFallback, defined,
    language_removeInOrder entangled disentangled ["S", "A"] done entangled_noFallback "A" defined⟩

/-- No run loses a word, whether it falls back on the empty string or not. It does
so only for nonterminals without words, so never where each one has some. -/
theorem fallback_confined (grammar : Grammar) :
    (∀ ordering result, (grammar.removeInOrder ordering).result = .ok result →
      ∀ name, grammar.defines name = true → grammar.language name ≤ result.language name) ∧
    (∀ ordering progress name, grammar.FallsBack ordering progress name →
      progress.grammar.language name = 0) ∧
    (grammar.Productive → ∀ ordering name,
      (∀ progress, ¬ grammar.FallsBack ordering progress name) ∧
        .emptyStringAssumed name ∉ (grammar.removeInOrder ordering).events) := by
  refine ⟨?_, ?_, ?_⟩
  · intro ordering result done name _
    obtain ⟨closed, last, reached, rfl⟩ := grammar.reached_of_ok result ordering done
    exact reached.words_le (Progress.start_tidy grammar closed) _
  · rintro ordering progress name ⟨_, rest, _, assumes⟩
    exact progress.language_of_assumesEmptyString name assumes
  · intro productive ordering name
    have never : ∀ progress, ¬ grammar.FallsBack ordering progress name := by
      rintro progress ⟨verified, rest, reached, assumes⟩
      have tidy := Progress.start_tidy grammar (grammar.verify_ok_iff.mp verified)
      rw [reached.noFallback tidy productive] at assumes
      cases assumes
    refine ⟨never, fun warned => ?_⟩
    obtain ⟨progress, fallsBack⟩ := (emptyStringAssumed_mem_events_iff _ _ _).mp warned
    exact never progress fallsBack

def bottomless : Grammar :=
  (empty "C").insert "C" [[.nonterminal "C", .terminal "x"], [.nonterminal "C", .terminal "y"]]

def grounded : Grammar :=
  (bottomless.insert "C" [[.terminal "e", .nonterminal "Z"]]).insertGenerated "Z"
    [[.terminal "x", .nonterminal "Z"], [.terminal "y", .nonterminal "Z"], epsilon]

theorem entangled_productive : entangled.Productive := by
  intro name defined
  have listed : name ∈ entangled.rules.keys := (NameMap.mem_keys_iff _ _).mpr defined
  have names : entangled.rules.keys = ["A", "S"] := by decide
  have derives : ∀ text, [.terminal text] ∈ entangled.alternatives name →
      eraseEmpty [text] ∈ entangled.language name := fun text member =>
    entangled.words_le_language name _ member (yields_terminals [text]).derives
  rw [names] at listed
  rcases List.mem_cons.mp listed with rfl | last
  · exact ⟨["f"], derives "f" (by decide)⟩
  · obtain rfl := List.mem_singleton.mp last
    exact ⟨["b"], derives "b" (by decide)⟩

theorem fallback_confined_bottomless :
    (bottomless.removeInOrder ["C"]).result = .ok grounded ∧ bottomless.defines "C" = true ∧
      bottomless.language "C" ≤ grounded.language "C" ∧
      bottomless.FallsBack ["C"] (.start bottomless) "C" ∧ bottomless.language "C" = 0 ∧
      entangled.Productive ∧
      .emptyStringAssumed "A" ∉ (entangled.removeInOrder ["A", "S"]).events := by
  have done : (bottomless.removeInOrder ["C"]).result = .ok grounded := by decide
  have defined : bottomless.defines "C" = true := by decide
  have fallsBack : bottomless.FallsBack ["C"] (.start bottomless) "C" :=
    ⟨by decide, [], .start, by decide⟩
  exact ⟨done, defined, (fallback_confined bottomless).1 ["C"] grounded done "C" defined,
    fallsBack, (fallback_confined bottomless).2.1 ["C"] _ "C" fallsBack,
    entangled_productive,
    ((fallback_confined entangled).2.2 entangled_productive ["A", "S"] "A").2⟩

end Preservation

end Grammar

end LeftRecursion
