import LeftRecursion.Proofs.RuleLines
import LeftRecursion.Proofs.Written

/-!
Texts that are read again. The text of a readable grammar has one line for each rule,
and a line is skipped only if an arrow has come up where two symbols of an alternative
meet. Every other line gives back its name and the texts of its alternatives, and
they are split into symbols again by the names that the lines define. So an output
comes back, but for the marks of made-up names, exactly if every alternative of it
reads back.
-/

namespace LeftRecursion

namespace Grammar

/-- What the text of a grammar reads as, with a start symbol. -/
def reread (start : String) (grammar : Grammar) : Reading :=
  .ofLines start (Text.lines grammar.render)

/-- The grammar without the marks of made-up names. -/
def unmarked (grammar : Grammar) : Grammar :=
  { grammar with generated := .empty }

theorem eq_of_fields {first second : Grammar} (start : first.start = second.start)
    (rules : first.rules = second.rules) (generated : first.generated = second.generated) :
    first = second := by
  cases first
  cases second
  cases start
  cases rules
  cases generated
  rfl

theorem frame_reread (start : String) (grammar : Grammar) :
    (grammar.reread start).grammar.start = start ∧
      (grammar.reread start).grammar.generated = .empty :=
  Reading.frame_ofNumbered start {} _

def Whole (grammar : Grammar) : Prop :=
  ∀ name, ∀ production ∈ grammar.alternatives name, ¬ HoldsArrow (productionText production).toList

section Lines

variable {grammar : Grammar}

theorem IsReadable.lines_eq (readable : grammar.IsReadable) :
    grammar.lines =
      grammar.listing.map fun name => ruleText name (grammar.alternatives name) := by
  simp [lines, grammar.entries_eq_map readable.marked]

theorem IsReadable.names_of_mem (readable : grammar.IsReadable) (name : String)
    (listed : name ∈ grammar.listing) : isName name = true ∧ IsWord name :=
  readable.written.names name ((grammar.mem_listing_iff readable.marked name).mp listed)

theorem IsReadable.unbroken_lines (readable : grammar.IsReadable) :
    ∀ line ∈ grammar.lines, line ≠ "" ∧ '\n' ∉ line.toList := by
  rw [readable.lines_eq, List.forall_mem_map]
  intro name listed
  constructor
  · intro empty
    have characters := Rule.toList_ruleText name (grammar.alternatives name)
    rw [empty] at characters
    simp at characters
  · apply Rule.newline_not_mem_ruleText
    · exact (readable.names_of_mem name listed).2.solid
    · exact fun production inRule =>
        solid_productionText production (readable.written.symbols_of_mem name production inRule)

theorem IsReadable.lines_render (readable : grammar.IsReadable) :
    Text.lines grammar.render = grammar.lines :=
  Text.lines_intercalate _ (fun line member => (readable.unbroken_lines line member).2)
    fun line member => (readable.unbroken_lines line member).1

theorem IsReadable.isWord_of_whole (readable : grammar.IsReadable) (whole : grammar.Whole)
    (name : String) (production : Production) (member : production ∈ grammar.alternatives name) :
    IsWord (productionText production) := by
  apply isWord_productionText production
  · rintro rfl
    exact readable.nonempty name member
  · exact readable.written.symbols_of_mem name production member
  · exact whole name production member

theorem IsReadable.ofLine_of_whole (readable : grammar.IsReadable) (whole : grammar.Whole)
    (name : String) (listed : name ∈ grammar.listing) :
    Rule.ofLine (ruleText name (grammar.alternatives name)) =
      .ok ⟨name, (grammar.alternatives name).map productionText⟩ :=
  have ⟨named, isWord⟩ := readable.names_of_mem name listed
  Rule.ofLine_ruleText name _ named isWord (readable.isWord_of_whole whole name)

theorem IsReadable.skipped_reread_iff (readable : grammar.IsReadable) (start : String) :
    (grammar.reread start).skipped = [] ↔ grammar.Whole := by
  rw [reread, readable.lines_render, Reading.skipped_eq_nil_iff, readable.lines_eq,
    List.forall_mem_map]
  constructor
  · intro accepted name production member
    have listed := (grammar.mem_listing_iff readable.marked name).mpr
      (grammar.defines_of_mem name production member)
    obtain ⟨rule, read⟩ := accepted name listed (Rule.not_isBlankLine_ruleText _ _)
    exact Rule.not_holdsArrow_of_ofLine_ruleText name _ (readable.names_of_mem name listed).2 rule
      read production member
  · intro whole name listed _
    exact ⟨_, readable.ofLine_of_whole whole name listed⟩

end Lines

section Rules

variable {grammar : Grammar}

theorem IsReadable.rules_reread (readable : grammar.IsReadable) (whole : grammar.Whole) :
    (Reading.rulesOf (Reading.readLines {} (Reading.numberFrom 1 grammar.lines))).map
        Located.value =
      grammar.listing.map fun name =>
        ⟨name, (grammar.alternatives name).map productionText⟩ := by
  rw [Reading.rules_of_lines, List.filter_eq_self.mpr, readable.lines_eq, List.filterMap_map]
  · apply List.filterMap_eq_map_iff_forall_eq_some.mpr
    intro name listed
    rw [Function.comp_apply, readable.ofLine_of_whole whole name listed]
    rfl
  · rw [readable.lines_eq]
    simp

/-- The names that split the alternatives are those of the grammar, and each
alternative is what they make of its text. -/
theorem IsReadable.productions_reread (readable : grammar.IsReadable) (whole : grammar.Whole)
    (start name : String) :
    (grammar.reread start).grammar.productions name =
      (grammar.productions name).map fun rewrite => rewrite.map fun production =>
        readAlternative (longestFirst grammar.rules.keys) (productionText production) := by
  have reading : (grammar.reread start).grammar = Reading.grammarOf start
      (Reading.rulesOf (Reading.readLines {} (Reading.numberFrom 1 grammar.lines))) := by
    rw [reread, readable.lines_render]
    rfl
  have values := readable.rules_reread whole
  generalize Reading.rulesOf _ = rules at reading values
  have sameNames : ∀ name, name ∈ Reading.namesOf rules ↔
      name ∈ longestFirst grammar.rules.keys := by
    intro name
    rw [Reading.mem_namesOf_iff, mem_longestFirst, grammar.mem_rules_keys_iff,
      ← grammar.mem_listing_iff readable.marked]
    have named := congrArg (fun values => name ∈ values.map Rule.name) values
    simpa using named
  rw [reading, Reading.productions_grammarOf_of_values start rules _ grammar.listing_nodup _ values,
    funext (readAlternative_congr (Reading.namesOf_descending rules) (longestFirst_descending _)
      sameNames)]
  simp only [grammar.mem_listing_iff readable.marked, List.map_map]
  cases found : grammar.productions name with
  | none => simp [defines_iff, found]
  | some rewrite =>
      have defined := (defines_iff grammar name).mpr ⟨rewrite, found⟩
      rw [if_pos defined, grammar.alternatives_of_productions name rewrite found]
      rfl

theorem IsReadable.isName_of_mem_keys (readable : grammar.IsReadable) :
    ∀ name ∈ longestFirst grammar.rules.keys, isName name = true := by
  intro name member
  rw [mem_longestFirst, mem_rules_keys_iff] at member
  exact (readable.written.names name member).1

theorem IsReadable.texts_reread (readable : grammar.IsReadable) (whole : grammar.Whole)
    (start name : String) :
    (grammar.reread start).grammar.defines name = grammar.defines name ∧
      ((grammar.reread start).grammar.alternatives name).map productionText =
        (grammar.alternatives name).map productionText := by
  have read := readable.productions_reread whole start name
  have same := productionText_readAlternative readable.isName_of_mem_keys
  constructor
  · rw [Bool.eq_iff_iff, defines_iff, defines_iff, read]
    simp
  · rw [alternatives, alternatives, read]
    cases grammar.productions name <;> simp [same]

theorem IsOutput.productions_reread_eq_iff (output : grammar.IsOutput) (whole : grammar.Whole)
    (start name : String) :
    (grammar.reread start).grammar.productions name = grammar.productions name ↔
      ∀ production ∈ grammar.alternatives name, Legible grammar.rules.keys production := by
  have named := output.isName_of_mem_keys
  rw [output.productions_reread whole start name]
  cases found : grammar.productions name with
  | none => simp [alternatives, found]
  | some rewrite =>
      have same := grammar.alternatives_of_productions name rewrite found
      rw [Option.map_some, Option.some.injEq, same]
      conv_lhs => rhs; rw [← List.map_id rewrite]
      rw [List.map_inj_left]
      refine forall₂_congr fun production member => ?_
      rw [← same] at member
      rw [id_eq, readAlternative_eq_munch named,
        ← Legible.congr fun name => mem_longestFirst name grammar.rules.keys]
      apply munch_productionText_iff (longestFirst_descending _) named
      · exact output.written.symbols_of_mem name production member
      · intro reference occurs
        rw [mem_longestFirst, mem_rules_keys_iff]
        exact output.closed name production member reference ((mem_namesIn_iff _ _).mpr occurs)

end Rules

section Outcome

variable {grammar : Grammar}

theorem IsOutput.reread_eq_unmarked_iff (output : grammar.IsOutput) :
    (grammar.reread grammar.start).skipped = [] ∧
        (grammar.reread grammar.start).grammar = grammar.unmarked ↔
      ∀ name, ∀ production ∈ grammar.alternatives name,
        ReadsBack grammar.rules.keys production := by
  rw [output.skipped_reread_iff]
  constructor
  · rintro ⟨whole, same⟩ name production member
    refine ⟨whole name production member, ?_⟩
    apply (output.productions_reread_eq_iff whole grammar.start name).mp _ production member
    rw [same]
    rfl
  · intro back
    have whole : grammar.Whole := fun name production member => (back name production member).whole
    obtain ⟨sameStart, noMarks⟩ := frame_reread grammar.start grammar
    refine ⟨whole, ?_⟩
    have sameRules : (grammar.reread grammar.start).grammar.rules = grammar.rules := by
      apply NameMap.ext_get?
      intro name
      exact (output.productions_reread_eq_iff whole grammar.start name).mpr
        fun production member => (back name production member).legible
    exact eq_of_fields sameStart sameRules noMarks

/-- The text of a result is read without fault exactly if no arrow has come up in it.
Then its names come back, each with alternatives of the same texts in the same order,
and all of it comes back, without the marks, exactly if each alternative reads back. -/
theorem result_reads_back_iff (start : String) (lines : List String) (result : Grammar)
    (done : (Reading.ofLines start lines).grammar.removeLeftRecursion.result = .ok result) :
    ((result.reread start).skipped = [] ↔ result.Whole) ∧
    ((result.reread start).skipped = [] → ∀ name,
      (result.reread start).grammar.defines name = result.defines name ∧
        ((result.reread start).grammar.alternatives name).map productionText =
          (result.alternatives name).map productionText) ∧
    ((result.reread start).skipped = [] ∧ (result.reread start).grammar = result.unmarked ↔
      ∀ name, ∀ production ∈ result.alternatives name,
        ReadsBack result.rules.keys production) := by
  have output := isOutput_of_ok start {} _ _ result done
  obtain rfl : result.start = start := start_of_ok start {} _ _ result done
  refine ⟨output.skipped_reread_iff _, fun accepted name => ?_, output.reread_eq_unmarked_iff⟩
  exact output.texts_reread ((output.skipped_reread_iff _).mp accepted) _ name

/-- A result in which one name begins another, and is nowhere followed by what would
make it the other. -/
def overlapping : Grammar :=
  (((empty "S").insert "S" [[.terminal "b", .nonterminal "Z"]]).insert "Sa"
    [[.terminal "c"]]).insertGenerated "Z"
      [[.nonterminal "Sa", .terminal "b", .nonterminal "Z"], epsilon]

theorem result_reads_back_overlapping :
    (Reading.ofLines "S" ["S -> SSab b", "Sa -> c"]).grammar.removeLeftRecursion.result =
        .ok overlapping ∧
      (∀ name, ∀ production ∈ overlapping.alternatives name,
        ReadsBack overlapping.rules.keys production) ∧
      (overlapping.reread "S").skipped = [] ∧
      (overlapping.reread "S").grammar = overlapping.unmarked := by
  have done : (Reading.ofLines "S"
      ["S -> SSab b", "Sa -> c"]).grammar.removeLeftRecursion.result = .ok overlapping := by
    decide
  have back : ∀ name, ∀ production ∈ overlapping.alternatives name,
      ReadsBack overlapping.rules.keys production :=
    overlapping.forall_of_keys _ (by decide)
  exact ⟨done, back, (result_reads_back_iff "S" _ overlapping done).2.2.mpr back⟩

/-- A result in which a name is followed by what makes it another. -/
def misread : Grammar :=
  ((((empty "S").insert "S" [[.terminal "c"]]).insert "A"
    [[.terminal "b", .nonterminal "S"]]).insert "B"
      [[.terminal "b", .nonterminal "S", .terminal "a"]]).insert "Sa" [[.terminal "d"]]

/-- Unfolding `A` in `Aa` puts `S` before `a`, and there `Sa` is read. -/
theorem result_need_not_read_back :
    ¬ ∀ (start : String) (lines : List String) (result : Grammar),
      (Reading.ofLines start lines).grammar.removeLeftRecursion.result = .ok result →
        (result.reread start).skipped = [] ∧
          (result.reread start).grammar = result.unmarked := by
  intro always
  have done : (Reading.ofLines "S" ["S -> c", "Sa -> d", "A -> bS",
      "B -> Aa"]).grammar.removeLeftRecursion.result = .ok misread := by
    decide
  have different : (misread.reread "S").grammar ≠ misread.unmarked := by decide
  exact different (always "S" _ misread done).2

end Outcome

end Grammar

end LeftRecursion
