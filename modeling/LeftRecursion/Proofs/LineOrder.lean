import LeftRecursion.Proofs.RoundTrip

/-!
Lines in another order. Each line is read on its own, into a rule or into a fault at its place,
or into nothing if it is blank. If no name has two rules, the grammar that the rules make does
not depend on their order, although the names are collected in it: only names of
one length can change places among them, and of those no two fit at one place. So the order
of the lines shows in the order of the faults, and nowhere else.
-/

namespace LeftRecursion

namespace Reading

section Reordered

variable (start : String)

theorem productions_grammarOf_perm (rules others : List (Located Rule))
    (reordered : rules.Perm others)
    (distinct : (rules.map fun rule => rule.value.name).Nodup) (name : String) :
    (grammarOf start rules).productions name = (grammarOf start others).productions name := by
  by_cases defined : ∃ rule ∈ rules, rule.value.name = name
  · obtain ⟨rule, member, rfl⟩ := defined
    have alsoDistinct : (others.map fun rule => rule.value.name).Nodup :=
      (reordered.map _).nodup_iff.mp distinct
    have sameNames : ∀ name, name ∈ namesOf rules ↔ name ∈ namesOf others := by
      intro name
      simp only [mem_namesOf_iff, reordered.mem_iff]
    rw [productions_grammarOf_of_nodup start rules distinct rule member,
      productions_grammarOf_of_nodup start others alsoDistinct rule (reordered.mem_iff.mp member)]
    refine congrArg some (List.map_congr_left fun word _ => ?_)
    exact readAlternative_congr (namesOf_descending rules) (namesOf_descending others) sameNames
      word
  · have undefined : ¬ ∃ rule ∈ others, rule.value.name = name := by
      simpa only [reordered.mem_iff] using defined
    rw [← defines_grammarOf_iff start, Bool.not_eq_true] at defined undefined
    rw [(Grammar.productions_eq_none_iff _ _).mpr defined,
      (Grammar.productions_eq_none_iff _ _).mpr undefined]

theorem grammarOf_perm (rules others : List (Located Rule)) (reordered : rules.Perm others)
    (distinct : (rules.map fun rule => rule.value.name).Nodup) :
    grammarOf start rules = grammarOf start others := by
  obtain ⟨sameStart, noMarks⟩ := frame_foldl_define (namesOf rules) rules (.empty start)
  obtain ⟨alsoStart, alsoNoMarks⟩ := frame_foldl_define (namesOf others) others (.empty start)
  exact Grammar.eq_of_fields (sameStart.trans alsoStart.symm)
    (NameMap.ext_get? _ _ (productions_grammarOf_perm start rules others reordered distinct))
    (noMarks.trans alsoNoMarks.symm)

/-- If no two rules define the same name, lines in another order are read into the same
grammar, and the faults are those of each line in the order of the lines. So the grammar is
transformed alike, with the same log, and its text is the same. -/
theorem ofNumbered_reordered (location : Location) (lines others : List (Nat × String))
    (reordered : lines.Perm others) (distinct : (lines.filterMap definedName?).Nodup) :
    (ofNumbered start location lines).skipped = lines.filterMap (faultAt? location) ∧
      ofNumbered start location others =
        { ofNumbered start location lines with
          skipped := others.filterMap (faultAt? location) } ∧
      (ofNumbered start location others).grammar.removeLeftRecursion =
        (ofNumbered start location lines).grammar.removeLeftRecursion ∧
      (ofNumbered start location others).grammar.removeLeftRecursion.result.map Grammar.render =
        (ofNumbered start location lines).grammar.removeLeftRecursion.result.map
          Grammar.render := by
  have alsoDistinct : (others.filterMap definedName?).Nodup :=
    (reordered.filterMap definedName?).nodup_iff.mp distinct
  have sameGrammar : (ofNumbered start location others).grammar =
      (ofNumbered start location lines).grammar := by
    refine (grammarOf_perm start _ _ ?_ ?_).symm
    · rw [rulesOf_readLines, rulesOf_readLines]
      exact reordered.filterMap (ruleAt? location)
    · rw [names_rulesOf_readLines]
      exact distinct
  have noneReplaced : ∀ lines : List (Nat × String), (lines.filterMap definedName?).Nodup →
      (ofNumbered start location lines).redefined = [] := by
    intro lines distinct
    refine (repeatsOf_eq_nil_iff [] _).mpr ⟨?_, by simp⟩
    rw [names_rulesOf_readLines]
    exact distinct
  refine ⟨faultsOf_readLines location lines, ?_, ?_, ?_⟩
  · exact eq_of_fields sameGrammar (faultsOf_readLines location others)
      ((noneReplaced others alsoDistinct).trans (noneReplaced lines distinct).symm)
  · rw [sameGrammar]
  · rw [sameGrammar]

def mixedLines : List (Nat × String) :=
  [(3, "AC -> ABa"), (4, "AB AC"), (5, " "), (6, "AB -> ACb ABc e"), (7, "-> AC")]

theorem ofNumbered_reordered_mixedLines :
    mixedLines.Perm mixedLines.reverse ∧ (mixedLines.filterMap definedName?).Nodup ∧
      (ofNumbered "S" {} mixedLines.reverse).grammar = (ofNumbered "S" {} mixedLines).grammar ∧
      (ofNumbered "S" {} mixedLines).grammar.productions "AC" =
        some [[.nonterminal "AB", .terminal "a"]] ∧
      (ofNumbered "S" {} mixedLines).skipped =
        [⟨{ lineNumber := 4 }, .missingArrow⟩, ⟨{ lineNumber := 7 }, .missingName⟩] ∧
      (ofNumbered "S" {} mixedLines.reverse).skipped =
        [⟨{ lineNumber := 7 }, .missingName⟩, ⟨{ lineNumber := 4 }, .missingArrow⟩] := by
  have reordered : mixedLines.Perm mixedLines.reverse := (List.reverse_perm mixedLines).symm
  have distinct : (mixedLines.filterMap definedName?).Nodup := by decide
  obtain ⟨skipped, others, _, _⟩ :=
    ofNumbered_reordered "S" {} mixedLines mixedLines.reverse reordered distinct
  refine ⟨reordered, distinct, ?_, by decide, ?_, ?_⟩
  · rw [others]
  · rw [skipped]
    decide
  · rw [others]
    decide

end Reordered

end Reading

end LeftRecursion
