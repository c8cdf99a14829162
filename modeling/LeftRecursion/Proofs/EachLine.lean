import LeftRecursion.Proofs.Readings

/-!
What each line contributes to a reading. A line that is not blank is a rule or has exactly one
fault, and its tokens say which; a blank line is neither. A rule gives its name a rule, which is
either new or takes the place of an earlier one with a warning. So every line that is not blank
is found again in a reading: among the faults, the names with a rule or the warnings.
-/

namespace LeftRecursion

namespace Rule

section Faults

def BeginsRule (tokens : List Token) : Prop :=
  ∃ name rest, tokens = .word name :: .arrow :: rest ∧ isName name = true

/-- Whether this is the fault that keeps tokens from being those of a rule. -/
def HasFault (tokens : List Token) : LineFault → Prop
  | .missingArrow => .arrow ∉ tokens
  | .missingName => .arrow ∈ tokens ∧ ¬ BeginsRule tokens
  | .secondArrow => BeginsRule tokens ∧ .arrow ∈ tokens.drop 2

theorem beginsRule_iff (name : String) (rest : List Token) :
    BeginsRule (.word name :: .arrow :: rest) ↔ isName name = true := by
  constructor
  · rintro ⟨_, _, same, named⟩
    cases same
    exact named
  · intro named
    exact ⟨name, rest, rfl, named⟩

theorem wordsOf?_eq_none_iff (tokens : List Token) :
    wordsOf? tokens = none ↔ .arrow ∈ tokens := by
  induction tokens with
  | nil => simp [wordsOf?]
  | cons token rest ih => cases token <;> simp [wordsOf?, ih]

theorem ofTokens_eq_error_iff (tokens : List Token) (fault : LineFault) :
    ofTokens tokens = .error fault ↔ HasFault tokens fault := by
  unfold ofTokens
  split
  · next none =>
      cases fault with
      | missingArrow => simpa [HasFault] using none
      | missingName => simp [HasFault, none]
      | secondArrow =>
          have later : Token.arrow ∉ tokens.drop 2 := fun member =>
            none (List.mem_of_mem_drop member)
          simp [HasFault, later]
  · next some =>
      rw [not_not] at some
      split
      · next name rest =>
          have begins := beginsRule_iff name rest
          cases named : isName name with
          | false => cases fault <;> simp [HasFault, begins, named]
          | true =>
              cases words : wordsOf? rest with
              | none =>
                  have second := (wordsOf?_eq_none_iff rest).mp words
                  cases fault <;> simp [HasFault, begins, named, second]
              | some words =>
                  have single : Token.arrow ∉ rest := by
                    rw [← wordsOf?_eq_none_iff]
                    simp [words]
                  cases fault <;> simp [HasFault, begins, named, single]
      · next other =>
          have apart : ¬ BeginsRule tokens := by
            rintro ⟨name, rest, rfl, _⟩
            exact other name rest rfl
          cases fault <;> simp [HasFault, apart, some]

end Faults

end Rule

theorem NameMap.size_insert {α : Type} (map : NameMap α) (name : String) (value : α) :
    (map.insert name value).size = if map.contains name then map.size else map.size + 1 := by
  have size : ∀ map : NameMap α, map.size = map.keys.length := fun map => by simp [size, keys]
  have member : ∀ other,
      other ∈ (map.insert name value).keys ↔ other = name ∨ other ∈ map.keys := by
    intro other
    simp
  rw [size, size]
  split
  · next known =>
      have same : (map.insert name value).keys.Perm map.keys := by
        refine (List.perm_ext_iff_of_nodup (keys_nodup _) map.keys_nodup).mpr fun other => ?_
        rw [member, or_iff_right_iff_imp]
        rintro rfl
        exact (mem_keys_iff map other).mpr known
      exact same.length_eq
  · next new =>
      have absent : name ∉ map.keys := mt (mem_keys_iff map name).mp new
      have longer : (map.insert name value).keys.Perm (name :: map.keys) := by
        refine (List.perm_ext_iff_of_nodup (keys_nodup _)
          (List.nodup_cons.mpr ⟨absent, map.keys_nodup⟩)).mpr fun other => ?_
        rw [member, List.mem_cons]
      exact longer.length_eq

namespace Reading

section Counting

theorem length_rulesOf_add_faultsOf (read : List (Located (Except LineFault Rule))) :
    (rulesOf read).length + (faultsOf read).length = read.length := by
  induction read with
  | nil => rfl
  | cons first rest ih =>
      obtain ⟨location, value⟩ := first
      cases value <;> simp only [rulesOf, faultsOf, List.length_cons] <;> omega

-- The names that are seen are those with a rule, so a rule is counted as a new name or as a
-- repetition, whichever comes first.
theorem size_foldl_define (names seen : List String) (rules : List (Located Rule))
    (grammar : Grammar) (known : ∀ name, grammar.defines name = true ↔ name ∈ seen) :
    (rules.foldl (define names) grammar).size + (repeatsOf seen rules).length =
      grammar.size + rules.length := by
  induction rules generalizing grammar seen with
  | nil => rfl
  | cons rule rest ih =>
      have size : (define names grammar rule).size =
          if grammar.defines rule.value.name then grammar.size else grammar.size + 1 :=
        NameMap.size_insert _ _ _
      have defined : ∀ name, (define names grammar rule).defines name = true ↔
          name = rule.value.name ∨ name ∈ seen := by
        intro name
        simp [define, known]
      rw [List.foldl_cons, repeatsOf]
      split
      · next before =>
          have again : ∀ name,
              (define names grammar rule).defines name = true ↔ name ∈ seen := by
            intro name
            rw [defined, or_iff_right_iff_imp]
            rintro rfl
            exact before
          have later := ih seen (define names grammar rule) again
          rw [size, if_pos ((known _).mpr before)] at later
          simp only [List.length_cons]
          omega
      · next new =>
          have later := ih (rule.value.name :: seen) (define names grammar rule)
            (by simpa using defined)
          rw [size, if_neg (mt (known _).mp new)] at later
          simp only [List.length_cons]
          omega

theorem size_grammarOf (start : String) (rules : List (Located Rule)) :
    (grammarOf start rules).size + (repeatsOf [] rules).length = rules.length := by
  have counted := size_foldl_define (namesOf rules) [] rules (.empty start)
    fun name => by simp [Grammar.defines, Grammar.empty, NameMap.contains]
  simpa [grammarOf, Grammar.empty, Grammar.size, NameMap.empty, NameMap.size] using counted

end Counting

section Contributions

variable (start : String) (location : Location) (lines : List (Nat × String))

theorem ruleAt?_eq_some_iff (line : Nat × String) (found : Located Rule) :
    ruleAt? location line = some found ↔
      found.location = location.atLine line.1 ∧
        Token.ofLine line.2 = .word found.value.name :: .arrow :: found.value.words.map .word ∧
        isName found.value.name = true := by
  rw [← Rule.ofLine_eq_ok_iff]
  obtain ⟨place, rule⟩ := found
  cases read : Rule.ofLine line.2 <;> simp [ruleAt?, read, Except.toOption, eq_comm]

theorem faultAt?_eq_some_iff (line : Nat × String) (found : Located LineFault) :
    faultAt? location line = some found ↔
      Text.isBlankLine line.2 = false ∧ found.location = location.atLine line.1 ∧
        Rule.HasFault (Token.ofLine line.2) found.value := by
  rw [← Rule.ofTokens_eq_error_iff, ← Rule.ofLine]
  obtain ⟨place, fault⟩ := found
  cases blank : Text.isBlankLine line.2 <;>
    cases read : Rule.ofLine line.2 <;> simp [faultAt?, blank, read, eq_comm]

theorem contribution_exclusive (line : Nat × String) :
    (ruleAt? location line).toList.length + (faultAt? location line).toList.length =
      if Text.isBlankLine line.2 then 0 else 1 := by
  cases blank : Text.isBlankLine line.2 with
  | true =>
      simp [ruleAt?, faultAt?, blank, Rule.ofLine_of_isBlankLine line.2 blank, Except.toOption]
  | false =>
      cases read : Rule.ofLine line.2 <;> simp [ruleAt?, faultAt?, blank, read, Except.toOption]

theorem productions_eq_getLast? (rules : List (Located Rule)) (name : String) :
    (grammarOf start rules).productions name =
      (rules.filter fun rule => rule.value.name == name).getLast?.map fun rule =>
        rule.value.words.map (readAlternative (namesOf rules)) := by
  rw [productions_grammarOf, List.getLast?_eq_head?_reverse, ← List.filter_reverse,
    List.head?_filter]

/-- Every line is accounted for, as a rule or with its fault. A name gets the words of the last
rule that defines it, and all rules have a say in how these are split into symbols, also those
that are replaced. -/
theorem ofNumbered_accounts_for_lines :
    (∀ line found, ruleAt? location line = some found ↔
      found.location = ⟨location.file, location.caseNumber, line.1⟩ ∧
        Token.ofLine line.2 = .word found.value.name :: .arrow :: found.value.words.map .word ∧
        isName found.value.name = true) ∧
    (∀ line found, faultAt? location line = some found ↔
      Text.isBlankLine line.2 = false ∧
        found.location = ⟨location.file, location.caseNumber, line.1⟩ ∧
        Rule.HasFault (Token.ofLine line.2) found.value) ∧
    (∀ line, (ruleAt? location line).toList.length + (faultAt? location line).toList.length =
      if Text.isBlankLine line.2 then 0 else 1) ∧
    let reading := ofNumbered start location lines
    let rules := lines.filterMap (ruleAt? location)
    reading.skipped = lines.filterMap (faultAt? location) ∧
    (∃ names : List String,
      (names.Pairwise fun first second => second.utf8ByteSize ≤ first.utf8ByteSize) ∧
      (∀ name, name ∈ names ↔ ∃ rule ∈ rules, rule.value.name = name) ∧
      (∀ name, reading.grammar.defines name = true ↔ name ∈ names) ∧
      ∀ name, reading.grammar.productions name =
        (rules.filter fun rule => rule.value.name == name).getLast?.map fun rule =>
          rule.value.words.map (readAlternative names)) ∧
    (lines.filter fun line => !Text.isBlankLine line.2).length =
      reading.skipped.length + reading.grammar.size + reading.warnings.length := by
  refine ⟨ruleAt?_eq_some_iff location, faultAt?_eq_some_iff location,
    contribution_exclusive location, ?_⟩
  intro reading rules
  have found : rulesOf (readLines location lines) = rules := rulesOf_readLines location lines
  refine ⟨faultsOf_readLines location lines, ?_, ?_⟩
  · have grammar : reading.grammar = grammarOf start rules := congrArg (grammarOf start) found
    refine ⟨namesOf rules, namesOf_descending rules, mem_namesOf_iff rules, ?_, ?_⟩
    · intro name
      rw [grammar, defines_grammarOf_iff, mem_namesOf_iff]
    · intro name
      rw [grammar, productions_eq_getLast?]
  · have split := length_rulesOf_add_faultsOf (readLines location lines)
    have counted := size_grammarOf start (rulesOf (readLines location lines))
    have shown : (readLines location lines).length =
        (lines.filter fun line => !Text.isBlankLine line.2).length := List.length_map _
    have warned : reading.warnings.length =
        (repeatsOf [] (rulesOf (readLines location lines))).length := List.length_map _
    have skipped : reading.skipped = faultsOf (readLines location lines) := rfl
    have grammar : reading.grammar = grammarOf start (rulesOf (readLines location lines)) := rfl
    rw [skipped, grammar, warned]
    omega

/-- Rules, of which one is replaced, among lines with every fault and a blank one. -/
def unevenLines : List (Nat × String) :=
  [(2, "A -> AB e"), (3, " "), (4, "A AB"), (5, "a -> -> b"), (6, "A -> b -> c"), (7, "AB -> x"),
    (8, "A->ABc"), (9, "A A -> b")]

theorem ofNumbered_accounts_for_lines_uneven :
    (ofNumbered "S" {} unevenLines).skipped =
        [⟨{ lineNumber := 4 }, .missingArrow⟩, ⟨{ lineNumber := 5 }, .missingName⟩,
          ⟨{ lineNumber := 6 }, .secondArrow⟩, ⟨{ lineNumber := 9 }, .missingName⟩] ∧
      Token.ofLine "A->ABc" = [.word "A", .arrow, .word "ABc"] ∧
      Rule.HasFault (Token.ofLine "a -> -> b") .missingName ∧
      (ofNumbered "S" {} unevenLines).grammar.productions "A" =
        some [[.nonterminal "AB", .terminal "c"]] ∧
      (ofNumbered "S" {} unevenLines).grammar.size = 2 ∧
      7 = 4 + 2 + (ofNumbered "S" {} unevenLines).warnings.length := by
  obtain ⟨rule, fault, _, skipped, _, counted⟩ := ofNumbered_accounts_for_lines "S" {} unevenLines
  have accepted := (rule (8, "A->ABc") ⟨{ lineNumber := 8 }, ⟨"A", ["ABc"]⟩⟩).mp (by decide)
  have faulty := (fault (5, "a -> -> b") ⟨{ lineNumber := 5 }, .missingName⟩).mp (by decide)
  have faults : unevenLines.filterMap (faultAt? {}) =
      [⟨{ lineNumber := 4 }, .missingArrow⟩, ⟨{ lineNumber := 5 }, .missingName⟩,
        ⟨{ lineNumber := 6 }, .secondArrow⟩, ⟨{ lineNumber := 9 }, .missingName⟩] := by decide
  have size : (ofNumbered "S" {} unevenLines).grammar.size = 2 := by decide
  have shown : (unevenLines.filter fun line => !Text.isBlankLine line.2).length = 7 := by decide
  rw [shown, size, skipped, faults] at counted
  exact ⟨skipped.trans faults, accepted.2.1, faulty.2.2, by decide, size, counted⟩

end Contributions

end Reading

end LeftRecursion
