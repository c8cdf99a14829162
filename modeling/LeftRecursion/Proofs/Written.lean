import LeftRecursion.Proofs.NewNames
import LeftRecursion.Proofs.Readings
import LeftRecursion.Proofs.Spelling

/-!
Grammars whose names and symbols are such as can be read. Every grammar that is
read is one, and a run keeps it so: the symbols of its rules are old ones, the
empty string and new names, and new names are uppercase letters.
-/

namespace LeftRecursion

namespace Grammar

structure IsWritten (grammar : Grammar) : Prop where
  names : ∀ name, grammar.defines name = true → isName name = true ∧ IsWord name
  symbols : ∀ symbol, grammar.Occurs symbol → symbol.IsWritten

/-- What reading the text of a grammar again relies on. -/
structure IsReadable (grammar : Grammar) : Prop where
  written : grammar.IsWritten
  nonempty : ∀ name, [] ∉ grammar.alternatives name
  marked : ∀ name, grammar.isGenerated name = true → grammar.defines name = true

theorem IsWritten.symbols_of_mem {grammar : Grammar} (written : grammar.IsWritten) (name : String)
    (production : Production) (member : production ∈ grammar.alternatives name) :
    ∀ symbol ∈ production, symbol.IsWritten :=
  fun symbol occurs => written.symbols symbol ⟨name, production, member, occurs⟩

end Grammar

namespace Reading

variable (start : String) (location : Location) (lines : List (Nat × String))

theorem isWord_of_mem_namesOf :
    ∀ name ∈ namesOf (rulesOf (readLines location lines)), isName name = true ∧ IsWord name := by
  intro name known
  obtain ⟨rule, member, rfl⟩ := (mem_namesOf_iff _ _).mp known
  obtain ⟨line, read⟩ := ofLine_of_mem_rulesOf location lines rule member
  exact ⟨((Rule.ofLine_eq_ok_iff line _).mp read).2, rule.value.isWord_name line read⟩

theorem exists_word_of_mem (name : String) (production : Production)
    (member : production ∈ (ofNumbered start location lines).grammar.alternatives name) :
    ∃ word, IsWord word ∧
      production = readAlternative (namesOf (rulesOf (readLines location lines))) word := by
  obtain ⟨rule, inRules, _, word, inWords, same⟩ := exists_of_mem_alternatives _ _ _ _ member
  obtain ⟨line, read⟩ := ofLine_of_mem_rulesOf location lines rule inRules
  exact ⟨word, rule.value.isWord_of_mem_words line read word inWords, same⟩

theorem mem_namesOf_iff_defines (name : String) :
    name ∈ namesOf (rulesOf (readLines location lines)) ↔
      (ofNumbered start location lines).grammar.defines name = true := by
  rw [mem_namesOf_iff]
  exact (defines_grammarOf_iff _ _ _).symm

theorem isWritten_ofNumbered : (ofNumbered start location lines).grammar.IsWritten := by
  have named := isWord_of_mem_namesOf location lines
  constructor
  · exact fun name defined => named name ((mem_namesOf_iff_defines _ _ _ _).mpr defined)
  · rintro symbol ⟨name, production, member, occurs⟩
    obtain ⟨word, isWord, rfl⟩ := exists_word_of_mem _ _ _ _ _ member
    exact isWritten_of_mem_readAlternative _ named word isWord.solid symbol occurs

theorem isReadable_ofNumbered : (ofNumbered start location lines).grammar.IsReadable := by
  have given := isGiven_ofNumbered start location lines
  exact ⟨isWritten_ofNumbered start location lines, given.nonempty, given.marked⟩

end Reading

namespace NameSupply

theorem isWord_of_mem_candidateNames (name : String) (candidate : name ∈ candidateNames) :
    isName name = true ∧ IsWord name := by
  obtain ⟨nonempty, letters⟩ := letters_of_mem_candidateNames name candidate
  have each : (alphabet.all fun c => Text.isUppercase c && !Text.isBlank c && c != '-') = true := by
    decide
  have plain : ∀ c ∈ alphabet, Text.isUppercase c = true ∧ Text.isBlank c = false ∧ c ≠ '-' := by
    intro c member
    simpa [and_assoc] using List.all_eq_true.mp each c member
  refine ⟨?_, ?_, ?_, ?_⟩
  · cases characters : name.toList with
    | nil => exact absurd characters nonempty
    | cons c rest =>
        have inAlphabet := letters c (by simp [characters])
        exact (isName_iff name).mpr ⟨c, rest, characters, (plain c inAlphabet).1⟩
  · rintro rfl
    exact nonempty rfl
  · exact fun c member => (plain c (letters c member)).2.1
  · intro holds
    exact (plain '-' (letters '-' (holds.subset List.mem_cons_self))).2.2 rfl

end NameSupply

namespace Progress

section Runs

variable {first progress next : Progress} {name : String} {ordering remaining : List String}

theorem Step.isWritten (step : Step progress name next) (written : progress.grammar.IsWritten) :
    next.grammar.IsWritten := by
  have fresh : ∀ auxiliary, progress.supply.next? = some auxiliary →
      isName auxiliary = true ∧ IsWord auxiliary := fun auxiliary unused =>
    NameSupply.isWord_of_mem_candidateNames auxiliary
      (progress.supply.next?_mem auxiliary unused).1
  constructor
  · intro other defined
    cases step with
    | kept known =>
        rcases (defines_kept_iff _ _ _).mp defined with rfl | old
        · exact written.names other known
        · exact written.names other old
    | moved auxiliary known _ unused =>
        rcases (defines_moved_iff _ _ _ _).mp defined with rfl | rfl | old
        · exact fresh other unused
        · exact written.names other known
        · exact written.names other old
  · rintro symbol ⟨other, production, member, occurs⟩
    rcases step.symbol_cases other production member symbol occurs with
      old | rfl | ⟨auxiliary, rfl, _, unused⟩
    · exact written.symbols symbol old
    · exact ⟨'e', rfl, by decide, by decide⟩
    · exact fresh auxiliary unused

theorem Reached.isWritten (reached : Reached first ordering progress remaining)
    (written : first.grammar.IsWritten) : progress.grammar.IsWritten :=
  reached.invariant (fun progress _ => progress.grammar.IsWritten) written
    fun _ _ _ _ _ written step => step.isWritten written

end Runs

end Progress

namespace Grammar

section Outputs

/-- What holds of every grammar that a run makes of lines. -/
structure IsOutput (grammar : Grammar) : Prop extends grammar.IsReadable where
  closed : grammar.Closed

theorem isOutput_of_ok (start : String) (location : Location) (lines : List (Nat × String))
    (ordering : List String) (result : Grammar)
    (done : ((Reading.ofNumbered start location lines).grammar.removeInOrder ordering).result =
      .ok result) : result.IsOutput := by
  have readable := Reading.isReadable_ofNumbered start location lines
  obtain ⟨closed, last, reached, rfl⟩ := reached_of_ok _ result ordering done
  exact ⟨⟨reached.isWritten readable.written, reached.nonempty readable.nonempty,
    reached.defines_of_isGenerated readable.marked⟩,
    (reached.tidy (Progress.start_tidy _ closed)).closed⟩

theorem start_of_ok (start : String) (location : Location) (lines : List (Nat × String))
    (ordering : List String) (result : Grammar)
    (done : ((Reading.ofNumbered start location lines).grammar.removeInOrder ordering).result =
      .ok result) : result.start = start :=
  (start_eq_of_ok _ result ordering done).trans
    (Reading.frame_ofNumbered start location lines).1

end Outputs

end Grammar

end LeftRecursion
