import LeftRecursion.Proofs.Given

/-!
What a reading holds. Its rules are those of the lines that are not blank, in their
order, and nothing is skipped if each of them is a rule. The rule that a name gets
is the last one that defines it, and a name has a rule exactly if one defines it.
-/

namespace LeftRecursion

namespace Reading

section Lines

theorem map_value_rulesOf (read : List (Located (Except LineFault Rule))) :
    (rulesOf read).map Located.value = read.filterMap fun found => found.value.toOption := by
  induction read with
  | nil => rfl
  | cons first rest ih =>
      obtain ⟨location, value⟩ := first
      cases value <;> simp [rulesOf, Except.toOption, ih]

theorem faultsOf_eq_nil_iff (read : List (Located (Except LineFault Rule))) :
    faultsOf read = [] ↔ ∀ found ∈ read, ∃ rule, found.value = .ok rule := by
  induction read with
  | nil => simp [faultsOf]
  | cons first rest ih =>
      obtain ⟨location, value⟩ := first
      cases value <;> simp [faultsOf, ih]

theorem map_snd_numberFrom (first : Nat) (lines : List String) :
    (numberFrom first lines).map Prod.snd = lines := by
  induction lines generalizing first with
  | nil => rfl
  | cons line rest ih => simp [numberFrom, ih]

variable (location : Location)

theorem map_value_readLines (numbered : List (Nat × String)) :
    (readLines location numbered).map Located.value =
      ((numbered.map Prod.snd).filter fun line => !Text.isBlankLine line).map Rule.ofLine := by
  simp [readLines, List.filter_map, Function.comp_def]

theorem rules_of_numbered (numbered : List (Nat × String)) :
    (rulesOf (readLines location numbered)).map Located.value =
      ((numbered.map Prod.snd).filter fun line => !Text.isBlankLine line).filterMap fun line =>
        (Rule.ofLine line).toOption := by
  have composed : ((readLines location numbered).map Located.value).filterMap Except.toOption =
      (((numbered.map Prod.snd).filter fun line => !Text.isBlankLine line).map
        Rule.ofLine).filterMap Except.toOption := by rw [map_value_readLines]
  rw [map_value_rulesOf]
  simpa [List.filterMap_map, Function.comp_def] using composed

variable (first : Nat) (lines : List String)

theorem rules_of_lines :
    (rulesOf (readLines location (numberFrom first lines))).map Located.value =
      (lines.filter fun line => !Text.isBlankLine line).filterMap fun line =>
        (Rule.ofLine line).toOption := by
  rw [rules_of_numbered, map_snd_numberFrom]

theorem skipped_eq_nil_iff (start : String) :
    (ofLines start lines).skipped = [] ↔
      ∀ line ∈ lines, Text.isBlankLine line = false → ∃ rule, Rule.ofLine line = .ok rule := by
  have skipped : (ofLines start lines).skipped = faultsOf (readLines {} (numberFrom 1 lines)) :=
    rfl
  have each : (∀ found ∈ readLines {} (numberFrom 1 lines), ∃ rule, found.value = .ok rule) ↔
      ∀ value ∈ (readLines {} (numberFrom 1 lines)).map Located.value,
        ∃ rule, value = .ok rule := by
    rw [List.forall_mem_map]
  rw [skipped, faultsOf_eq_nil_iff, each, map_value_readLines, map_snd_numberFrom,
    List.forall_mem_map]
  simp

end Lines

section EachLine

def definedName? (line : Nat × String) : Option String :=
  (Rule.ofLine line.2).toOption.map Rule.name

/-- The rule that a line holds, at its place. -/
def ruleAt? (location : Location) (line : Nat × String) : Option (Located Rule) :=
  (Rule.ofLine line.2).toOption.map fun rule => ⟨location.atLine line.1, rule⟩

/-- What keeps a line from being a rule, at its place. Blank lines are not meant to be rules. -/
def faultAt? (location : Location) (line : Nat × String) : Option (Located LineFault) :=
  if Text.isBlankLine line.2 then none
  else
    match Rule.ofLine line.2 with
    | .ok _ => none
    | .error fault => some ⟨location.atLine line.1, fault⟩

variable (location : Location) (lines : List (Nat × String))

theorem readLines_cons (line : Nat × String) :
    readLines location (line :: lines) =
      if Text.isBlankLine line.2 then readLines location lines
      else ⟨location.atLine line.1, Rule.ofLine line.2⟩ :: readLines location lines := by
  cases blank : Text.isBlankLine line.2 <;> simp [readLines, blank]

theorem rulesOf_readLines :
    rulesOf (readLines location lines) = lines.filterMap (ruleAt? location) := by
  induction lines with
  | nil => rfl
  | cons line rest ih =>
      rw [readLines_cons]
      split
      · next blank =>
          have none : ruleAt? location line = none := by
            simp [ruleAt?, Rule.ofLine_of_isBlankLine line.2 blank, Except.toOption]
          rw [ih, List.filterMap_cons_none none]
      · cases read : Rule.ofLine line.2 <;>
          simp [rulesOf, ruleAt?, read, Except.toOption, ih]

theorem faultsOf_readLines :
    faultsOf (readLines location lines) = lines.filterMap (faultAt? location) := by
  induction lines with
  | nil => rfl
  | cons line rest ih =>
      rw [readLines_cons]
      split
      · next blank => rw [ih, List.filterMap_cons_none (by simp [faultAt?, blank])]
      · next shown =>
          cases read : Rule.ofLine line.2 <;> simp [faultsOf, faultAt?, shown, read, ih]

theorem names_rulesOf_readLines :
    (rulesOf (readLines location lines)).map (fun rule => rule.value.name) =
      lines.filterMap definedName? := by
  have each : ∀ line, (ruleAt? location line).map (fun rule => rule.value.name) =
      definedName? line := by
    intro line
    simp [ruleAt?, definedName?, Function.comp_def]
  rw [rulesOf_readLines, List.map_filterMap]
  simp only [each]

end EachLine

section Definitions

theorem productions_foldl_define (names : List String) (rules : List (Located Rule))
    (grammar : Grammar) (name : String) :
    (rules.foldl (define names) grammar).productions name =
      ((rules.reverse.find? fun rule => rule.value.name == name).map fun rule =>
        rule.value.words.map (readAlternative names)).or (grammar.productions name) := by
  induction rules generalizing grammar with
  | nil => rfl
  | cons rule rest ih =>
      rw [List.foldl_cons, ih, List.reverse_cons, List.find?_append]
      cases found : rest.reverse.find? fun rule => rule.value.name == name with
      | some later => simp
      | none =>
          rw [define, Grammar.productions_insert]
          by_cases same : rule.value.name = name
          · simp [same]
          · simp [same, Ne.symm same]

theorem frame_foldl_define (names : List String) (rules : List (Located Rule))
    (grammar : Grammar) :
    (rules.foldl (define names) grammar).start = grammar.start ∧
      (rules.foldl (define names) grammar).generated = grammar.generated := by
  induction rules generalizing grammar with
  | nil => exact ⟨rfl, rfl⟩
  | cons rule rest ih => exact ih (define names grammar rule)

theorem frame_ofNumbered (start : String) (location : Location) (lines : List (Nat × String)) :
    (ofNumbered start location lines).grammar.start = start ∧
      (ofNumbered start location lines).grammar.generated = .empty :=
  frame_foldl_define _ _ _

variable (start : String) (rules : List (Located Rule))

theorem mem_namesOf_iff (name : String) :
    name ∈ namesOf rules ↔ ∃ rule ∈ rules, rule.value.name = name := by
  simp [namesOf]

theorem namesOf_descending :
    (namesOf rules).Pairwise fun first second => second.utf8ByteSize ≤ first.utf8ByteSize :=
  longestFirst_descending _

theorem productions_grammarOf (name : String) :
    (grammarOf start rules).productions name =
      (rules.reverse.find? fun rule => rule.value.name == name).map fun rule =>
        rule.value.words.map (readAlternative (namesOf rules)) := by
  rw [grammarOf, productions_foldl_define]
  simp [Grammar.productions, Grammar.empty]

theorem defines_grammarOf_iff (name : String) :
    (grammarOf start rules).defines name = true ↔ ∃ rule ∈ rules, rule.value.name = name := by
  rw [Grammar.defines_iff, ← Option.isSome_iff_exists, productions_grammarOf]
  simp

theorem defines_ofLines_iff (lines : List String) (name : String) :
    (ofLines start lines).grammar.defines name = true ↔
      ∃ line ∈ lines, Text.isBlankLine line = false ∧
        ∃ rule, Rule.ofLine line = .ok rule ∧ rule.name = name := by
  have isRead : (ofLines start lines).grammar =
      grammarOf start (rulesOf (readLines {} (numberFrom 1 lines))) := rfl
  have each : (∃ rule ∈ rulesOf (readLines {} (numberFrom 1 lines)), rule.value.name = name) ↔
      ∃ value ∈ (rulesOf (readLines {} (numberFrom 1 lines))).map Located.value,
        value.name = name := by
    simp
  have accepted : ∀ line rule, (Rule.ofLine line).toOption = some rule ↔
      Rule.ofLine line = .ok rule := by
    intro line rule
    cases Rule.ofLine line <;> simp [Except.toOption]
  rw [isRead, defines_grammarOf_iff, each, rules_of_lines]
  simp only [List.mem_filterMap, List.mem_filter, accepted, Bool.not_eq_true']
  constructor
  · rintro ⟨rule, ⟨line, ⟨member, notBlank⟩, read⟩, named⟩
    exact ⟨line, member, notBlank, rule, read, named⟩
  · rintro ⟨line, member, notBlank, rule, read, named⟩
    exact ⟨rule, ⟨line, ⟨member, notBlank⟩, read⟩, named⟩

theorem exists_of_mem_alternatives (name : String) (production : Production)
    (member : production ∈ (grammarOf start rules).alternatives name) :
    ∃ rule ∈ rules, rule.value.name = name ∧
      ∃ word ∈ rule.value.words, production = readAlternative (namesOf rules) word := by
  rw [Grammar.alternatives, productions_grammarOf] at member
  cases found : rules.reverse.find? fun rule => rule.value.name == name with
  | none => simp [found] at member
  | some rule =>
      simp only [found, Option.map_some, Option.getD_some, List.mem_map] at member
      obtain ⟨word, inWords, rfl⟩ := member
      have inRules : rule ∈ rules := by simpa using List.mem_of_find?_eq_some found
      exact ⟨rule, inRules, by simpa using List.find?_some found, word, inWords, rfl⟩

theorem productions_grammarOf_of_nodup
    (nodup : (rules.map fun rule => rule.value.name).Nodup) (rule : Located Rule)
    (member : rule ∈ rules) :
    (grammarOf start rules).productions rule.value.name =
      some (rule.value.words.map (readAlternative (namesOf rules))) := by
  rw [productions_grammarOf]
  cases found : rules.reverse.find? fun other => other.value.name == rule.value.name with
  | none =>
      have absent := List.find?_eq_none.mp found rule (List.mem_reverse.mpr member)
      simp at absent
  | some other =>
      have inRules : other ∈ rules := by simpa using List.mem_of_find?_eq_some found
      have sameName : other.value.name = rule.value.name := by simpa using List.find?_some found
      rw [List.inj_on_of_nodup_map nodup inRules member sameName]
      rfl

theorem productions_grammarOf_of_values (names : List String) (nodup : names.Nodup)
    (words : String → List String)
    (values : rules.map Located.value = names.map fun name => ⟨name, words name⟩)
    (name : String) :
    (grammarOf start rules).productions name =
      if name ∈ names then some ((words name).map (readAlternative (namesOf rules))) else none := by
  have listed : rules.map (fun rule => rule.value.name) = names := by
    have each := congrArg (List.map Rule.name) values
    simpa [Function.comp_def] using each
  split
  · next member =>
      have isValue : ⟨name, words name⟩ ∈ rules.map Located.value := by
        rw [values]
        exact List.mem_map_of_mem member
      obtain ⟨rule, inRules, same⟩ := List.mem_map.mp isValue
      have found := productions_grammarOf_of_nodup start rules (listed ▸ nodup) rule inRules
      rwa [same] at found
  · next absent =>
      cases found : (grammarOf start rules).productions name with
      | none => rfl
      | some rewrite =>
          have defined := (Grammar.defines_iff _ _).mpr ⟨rewrite, found⟩
          obtain ⟨rule, inRules, rfl⟩ := (defines_grammarOf_iff _ _ _).mp defined
          rw [← listed] at absent
          exact absurd (List.mem_map_of_mem inRules) absent

end Definitions

section Repeats

theorem repeatsOf_eq_nil_iff (seen : List String) (rules : List (Located Rule)) :
    repeatsOf seen rules = [] ↔
      (rules.map fun rule => rule.value.name).Nodup ∧
        ∀ rule ∈ rules, rule.value.name ∉ seen := by
  induction rules generalizing seen with
  | nil => simp [repeatsOf]
  | cons rule rest ih =>
      rw [repeatsOf, List.map_cons, List.nodup_cons, List.forall_mem_cons]
      split
      · next before => simp [before]
      · next new =>
          rw [ih]
          simp only [List.mem_cons, not_or, List.mem_map, not_exists, not_and]
          constructor
          · rintro ⟨nodup, others⟩
            exact ⟨⟨fun other member => (others other member).1, nodup⟩, new,
              fun other member => (others other member).2⟩
          · rintro ⟨⟨different, nodup⟩, _, unseen⟩
            exact ⟨nodup, fun other member => ⟨different other member, unseen other member⟩⟩

end Repeats

end Reading

end LeftRecursion
