import LeftRecursion.Proofs.Rereading

/-!
Grammars that are read, written and read again. Every alternative of a grammar that
is read is made of a word, and that word is the text that is written for it. No
arrow is in a word, so every line that is written is a rule. The names with a rule
are the same ones, so they split each word as before, and since each name has one
line only, none replaces another.
-/

namespace LeftRecursion

namespace Reading

theorem eq_of_fields {first second : Reading} (grammar : first.grammar = second.grammar)
    (skipped : first.skipped = second.skipped) (redefined : first.redefined = second.redefined) :
    first = second := by
  cases first
  cases second
  cases grammar
  cases skipped
  cases redefined
  rfl

section Words

variable (start : String) (location : Location) (lines : List (Nat × String))

theorem productionText_readAlternative_namesOf (word : String) :
    productionText (readAlternative (namesOf (rulesOf (readLines location lines))) word) = word :=
  productionText_readAlternative
    (fun name known => (isWord_of_mem_namesOf location lines name known).1) word

theorem whole_ofNumbered : (ofNumbered start location lines).grammar.Whole := by
  intro name production member
  obtain ⟨word, isWord, rfl⟩ := exists_word_of_mem start location lines name production member
  rw [productionText_readAlternative_namesOf]
  exact isWord.whole

theorem readAlternative_productionText (name : String) (production : Production)
    (member : production ∈ (ofNumbered start location lines).grammar.alternatives name) :
    readAlternative (longestFirst (ofNumbered start location lines).grammar.rules.keys)
      (productionText production) = production := by
  obtain ⟨word, _, rfl⟩ := exists_word_of_mem start location lines name production member
  rw [productionText_readAlternative_namesOf]
  apply readAlternative_congr (longestFirst_descending _) (namesOf_descending _)
  intro other
  rw [mem_longestFirst, Grammar.mem_rules_keys_iff]
  exact (mem_namesOf_iff_defines start location lines other).symm

end Words

end Reading

namespace Grammar

section RoundTrip

variable {grammar : Grammar}

theorem IsReadable.redefined_reread (readable : grammar.IsReadable) (whole : grammar.Whole)
    (start : String) : (grammar.reread start).redefined = [] := by
  have named := congrArg (List.map Rule.name) (readable.rules_reread whole)
  simp only [List.map_map, Function.comp_def, List.map_id'] at named
  rw [reread, readable.lines_render]
  apply (Reading.repeatsOf_eq_nil_iff [] _).mpr
  exact ⟨named ▸ grammar.listing_nodup, fun _ _ => List.not_mem_nil⟩

theorem IsReadable.reread_eq (readable : grammar.IsReadable) (whole : grammar.Whole)
    (start : String)
    (back : ∀ name, ∀ production ∈ grammar.alternatives name,
      readAlternative (longestFirst grammar.rules.keys) (productionText production) =
        production) :
    grammar.reread start = ⟨{ grammar.unmarked with start := start }, [], []⟩ := by
  have sameRules : (grammar.reread start).grammar.rules = grammar.rules := by
    apply NameMap.ext_get?
    intro name
    refine (readable.productions_reread whole start name).trans ?_
    cases found : grammar.productions name with
    | none => exact found.symm
    | some rewrite =>
        have each : ∀ production ∈ rewrite, readAlternative (longestFirst grammar.rules.keys)
            (productionText production) = production := by
          rw [← grammar.alternatives_of_productions name rewrite found]
          exact back name
        rw [Option.map_some, List.map_congr_left each, List.map_id']
        exact found.symm
  obtain ⟨sameStart, noMarks⟩ := frame_reread start grammar
  have same : (grammar.reread start).grammar = { grammar.unmarked with start := start } :=
    eq_of_fields sameStart sameRules noMarks
  apply Reading.eq_of_fields same
  · exact (readable.skipped_reread_iff start).mpr whole
  · exact readable.redefined_reread whole start

/-- A grammar that is read comes back from its own text as it was, symbol for symbol.
No line is skipped on the way and no rule is replaced. -/
theorem reread_ofLines (start : String) (lines : List String) :
    (Reading.ofLines start lines).grammar.reread start =
        ⟨(Reading.ofLines start lines).grammar, [], []⟩ ∧
      (Reading.ofLines start lines).grammar.start = start ∧
      (Reading.ofLines start lines).grammar.generated = .empty := by
  have numbered : Reading.ofLines start lines =
      Reading.ofNumbered start {} (Reading.numberFrom 1 lines) := rfl
  obtain ⟨sameStart, noMarks⟩ := Reading.frame_ofNumbered start {} (Reading.numberFrom 1 lines)
  rw [numbered]
  refine ⟨?_, sameStart, noMarks⟩
  have same : { unmarked (Reading.ofNumbered start {} (Reading.numberFrom 1 lines)).grammar with
      start := start } = (Reading.ofNumbered start {} (Reading.numberFrom 1 lines)).grammar :=
    eq_of_fields sameStart.symm rfl noMarks.symm
  rw [(Reading.isReadable_ofNumbered start {} _).reread_eq (Reading.whole_ofNumbered start {} _)
    start (Reading.readAlternative_productionText start {} _), same]

-- `S` has two rules, `B` has none, and `A` begins another name.
example :
    let grammar := (Reading.ofLines "S"
      ["S -> x", "A ->", "b -> c", "S ->AbB A-ÉA e", "A-É -> A"]).grammar
    grammar.render = "S -> AbB A-ÉA e\nA -> \nA-É -> A" ∧
      grammar.reread "S" = ⟨grammar, [], []⟩ := by
  decide +kernel

end RoundTrip

end Grammar

end LeftRecursion
