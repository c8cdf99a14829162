import LeftRecursion.Proofs.Leading
import LeftRecursion.Proofs.RuleLines
import LeftRecursion.Reading

/-!
Grammars as they are read from lines. Nothing in them is made up, and since no
token is a word without characters, no alternative is without symbols.
-/

namespace LeftRecursion

section Words

theorem readAlternative_ne_nil (names : List String) (word : String) (nonempty : word ≠ "") :
    readAlternative names word ≠ [] := by
  unfold readAlternative
  split
  · exact List.cons_ne_nil _ _
  · cases characters : word.toList with
    | nil => exact absurd (String.toList_eq_nil_iff.mp characters) nonempty
    | cons c rest =>
        simp only [munch]
        split <;> exact List.cons_ne_nil _ _

end Words

namespace Reading

section Given

theorem mem_rulesOf_iff (read : List (Located (Except LineFault Rule))) (rule : Located Rule) :
    rule ∈ rulesOf read ↔ ⟨rule.location, .ok rule.value⟩ ∈ read := by
  induction read with
  | nil => simp [rulesOf]
  | cons first rest ih =>
      obtain ⟨location, value⟩ := first
      cases value with
      | error fault => simp [rulesOf, ih]
      | ok value =>
          have same : rule = ⟨location, value⟩ ↔ rule.location = location ∧ rule.value = value := by
            cases rule
            simp
          simp [rulesOf, ih, same]

theorem ofLine_of_mem_rulesOf (location : Location) (lines : List (Nat × String))
    (rule : Located Rule) (member : rule ∈ rulesOf (readLines location lines)) :
    ∃ line, Rule.ofLine line = .ok rule.value := by
  have inRead := (mem_rulesOf_iff _ _).mp member
  unfold readLines at inRead
  obtain ⟨line, _, same⟩ := List.mem_map.mp inRead
  exact ⟨line.2, congrArg Located.value same⟩

theorem define_isGiven (names : List String) (grammar : Grammar) (rule : Located Rule)
    (given : grammar.IsGiven) (nonempty : ∀ word ∈ rule.value.words, word ≠ "") :
    (define names grammar rule).IsGiven := by
  refine ⟨given.noGenerated, fun name member => ?_⟩
  rw [define, Grammar.alternatives_insert] at member
  split at member
  · obtain ⟨word, inWords, empty⟩ := List.mem_map.mp member
    exact readAlternative_ne_nil names word (nonempty word inWords) empty
  · exact given.nonempty name member

theorem foldl_define_isGiven (names : List String) (rules : List (Located Rule))
    (grammar : Grammar) (given : grammar.IsGiven)
    (nonempty : ∀ rule ∈ rules, ∀ word ∈ rule.value.words, word ≠ "") :
    (rules.foldl (define names) grammar).IsGiven := by
  induction rules generalizing grammar with
  | nil => exact given
  | cons rule rest ih =>
      apply ih
      · exact define_isGiven names grammar rule given (nonempty rule List.mem_cons_self)
      · intro other member
        exact nonempty other (List.mem_cons_of_mem rule member)

theorem empty_isGiven (start : String) : (Grammar.empty start).IsGiven where
  noGenerated _ := rfl
  nonempty _ member := nomatch member

theorem isGiven_ofNumbered (start : String) (location : Location) (lines : List (Nat × String)) :
    (ofNumbered start location lines).grammar.IsGiven := by
  apply foldl_define_isGiven _ _ _ (empty_isGiven start)
  intro rule member
  obtain ⟨line, read⟩ := ofLine_of_mem_rulesOf location lines rule member
  exact fun word inWords => (rule.value.isWord_of_mem_words line read word inWords).nonempty

end Given

end Reading

end LeftRecursion
