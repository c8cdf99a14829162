import LeftRecursion.Elimination.Run
import Mathlib.Data.List.Nodup

/-!
The rules of a grammar: what a change of one rule leaves of the others, and the
grammars in which every name that is referred to has a rule. Verification
accepts exactly those, whether a rule is given or made up.
-/

namespace LeftRecursion

namespace Grammar

section Alternatives

variable (grammar : Grammar)

theorem alternatives_of_productions (name : String) (rewrite : Rewrite)
    (found : grammar.productions name = some rewrite) : grammar.alternatives name = rewrite := by
  simp [alternatives, found]

theorem productions_eq_none_iff (name : String) :
    grammar.productions name = none ↔ grammar.defines name = false := by
  simp [defines, productions, NameMap.contains]

theorem defines_of_mem (name : String) (production : Production)
    (member : production ∈ grammar.alternatives name) : grammar.defines name = true := by
  rw [defines_iff]
  cases found : grammar.productions name with
  | none => simp [alternatives, found] at member
  | some rewrite => exact ⟨rewrite, rfl⟩

theorem alternatives_of_not_defines (name : String) (undefined : grammar.defines name = false) :
    grammar.alternatives name = [] := by
  rw [List.eq_nil_iff_forall_not_mem]
  intro production member
  have defined := grammar.defines_of_mem name production member
  rw [undefined] at defined
  cases defined

theorem productions_eq_of_alternatives {first second : Grammar} {name : String}
    (defined : first.defines name = second.defines name)
    (same : first.alternatives name = second.alternatives name) :
    first.productions name = second.productions name := by
  rw [Bool.eq_iff_iff, defines_iff, defines_iff] at defined
  unfold alternatives at same
  cases inFirst : first.productions name <;> cases inSecond : second.productions name <;>
    simp_all

theorem mem_rules_keys_iff (name : String) :
    name ∈ grammar.rules.keys ↔ grammar.defines name = true :=
  NameMap.mem_keys_iff grammar.rules name

theorem defines_eq_of_keys (other : Grammar) (same : grammar.rules.keys = other.rules.keys)
    (name : String) : grammar.defines name = other.defines name := by
  rw [Bool.eq_iff_iff, ← mem_rules_keys_iff, ← mem_rules_keys_iff, same]

theorem mem_keys_of_mem (name : String) (production : Production)
    (member : production ∈ grammar.alternatives name) : name ∈ grammar.rules.keys :=
  (grammar.mem_rules_keys_iff name).mpr (grammar.defines_of_mem name production member)

theorem forall_of_keys (property : String → Production → Prop)
    (each : ∀ name ∈ grammar.rules.keys, ∀ production ∈ grammar.alternatives name,
      property name production) :
    ∀ name, ∀ production ∈ grammar.alternatives name, property name production :=
  fun name production member =>
    each name (grammar.mem_keys_of_mem name production member) production member

theorem ne_of_defines (name other : String) (defined : grammar.defines name = true)
    (undefined : grammar.defines other = false) : name ≠ other := by
  rintro rfl
  rw [undefined] at defined
  cases defined

theorem alternatives_insert (name other : String) (rewrite : Rewrite) :
    (grammar.insert name rewrite).alternatives other =
      if other = name then rewrite else grammar.alternatives other := by
  unfold alternatives
  rw [productions_insert]
  split <;> rfl

@[simp] theorem alternatives_insert_self (name : String) (rewrite : Rewrite) :
    (grammar.insert name rewrite).alternatives name = rewrite := by
  rw [alternatives_insert, if_pos rfl]

theorem alternatives_insert_ne (name other : String) (rewrite : Rewrite)
    (different : other ≠ name) :
    (grammar.insert name rewrite).alternatives other = grammar.alternatives other := by
  rw [alternatives_insert, if_neg different]

@[simp] theorem defines_insert (name other : String) (rewrite : Rewrite) :
    (grammar.insert name rewrite).defines other = (other == name || grammar.defines other) :=
  NameMap.contains_insert grammar.rules name other rewrite

@[simp] theorem defines_insertGenerated (name other : String) (rewrite : Rewrite) :
    (grammar.insertGenerated name rewrite).defines other =
      (other == name || grammar.defines other) :=
  NameMap.contains_insert grammar.rules name other rewrite

theorem alternatives_insertGenerated (name other : String) (rewrite : Rewrite) :
    (grammar.insertGenerated name rewrite).alternatives other =
      if other = name then rewrite else grammar.alternatives other := by
  unfold alternatives
  rw [productions_insertGenerated]
  split <;> rfl

end Alternatives

section Entries

theorem ordering_nodup (grammar : Grammar) : grammar.ordering.Nodup := by
  have names : grammar.givenNames.Nodup := grammar.rules.keys_nodup.filter _
  apply List.Nodup.append (names.filter _) (names.filter _)
  intro name inFirst inSecond
  have same := (List.mem_filter.mp inFirst).2
  have different := (List.mem_filter.mp inSecond).2
  simp_all

theorem ordering_of_start (grammar : Grammar) (given : grammar.start ∈ grammar.givenNames) :
    ∃ rest, grammar.ordering = grammar.start :: rest := by
  have nodup : grammar.givenNames.Nodup := grammar.rules.keys_nodup.filter _
  rw [ordering, List.filter_beq, List.count_eq_one_of_mem nodup given]
  exact ⟨_, rfl⟩

/-- The names in the order in which their rules are written out. -/
def listing (grammar : Grammar) : List String :=
  grammar.ordering ++ grammar.generated.keys

variable (grammar : Grammar)

theorem mem_listing_iff
    (marked : ∀ name, grammar.isGenerated name = true → grammar.defines name = true)
    (name : String) : name ∈ grammar.listing ↔ grammar.defines name = true := by
  rw [listing, List.mem_append, mem_ordering_iff, NameMap.mem_keys_iff]
  constructor
  · rintro (given | made)
    · exact given.1
    · exact marked name made
  · intro defined
    cases made : grammar.isGenerated name with
    | false => exact Or.inl ⟨defined, rfl⟩
    | true => exact Or.inr made

theorem listing_nodup : grammar.listing.Nodup := by
  apply grammar.ordering_nodup.append grammar.generated.keys_nodup
  intro name given made
  have unmarked := ((mem_ordering_iff grammar name).mp given).2
  rw [isGenerated, (NameMap.mem_keys_iff _ _).mp made] at unmarked
  cases unmarked

theorem entries_eq_map
    (marked : ∀ name, grammar.isGenerated name = true → grammar.defines name = true) :
    grammar.entries = grammar.listing.map fun name => (name, grammar.alternatives name) := by
  apply List.filterMap_eq_map_iff_forall_eq_some.mpr
  intro name listed
  obtain ⟨rewrite, found⟩ :=
    (defines_iff _ _).mp ((grammar.mem_listing_iff marked name).mp listed)
  simp [grammar.alternatives_of_productions name rewrite found, found]

theorem map_fst_entries
    (marked : ∀ name, grammar.isGenerated name = true → grammar.defines name = true) :
    grammar.entries.map Prod.fst = grammar.listing := by
  simp [grammar.entries_eq_map marked, Function.comp_def]

end Entries

section Closed

/-- Whether every name that a rule refers to has a rule. -/
def Closed (grammar : Grammar) : Prop :=
  ∀ name, ∀ production ∈ grammar.alternatives name,
    ∀ reference ∈ namesIn production, grammar.defines reference = true

def Occurs (grammar : Grammar) (symbol : Symbol) : Prop :=
  ∃ name, ∃ production ∈ grammar.alternatives name, symbol ∈ production

theorem Closed.defines_of_occurs {grammar : Grammar} (closed : grammar.Closed) (reference : String)
    (occurs : grammar.Occurs (.nonterminal reference)) : grammar.defines reference = true := by
  obtain ⟨source, production, member, inProduction⟩ := occurs
  exact closed source production member reference
    ((mem_namesIn_iff production reference).mpr inProduction)

variable (grammar : Grammar)

theorem mem_entries_iff (name : String) (rewrite : Rewrite) :
    (name, rewrite) ∈ grammar.entries ↔ grammar.productions name = some rewrite := by
  simp only [entries, List.mem_filterMap, Option.map_eq_some_iff, Prod.mk.injEq]
  constructor
  · rintro ⟨_, _, _, found, rfl, rfl⟩
    exact found
  · intro found
    refine ⟨name, ?_, rewrite, found, rfl, rfl⟩
    have defined : grammar.defines name = true := (defines_iff _ _).mpr ⟨rewrite, found⟩
    rw [List.mem_append]
    cases made : grammar.isGenerated name with
    | false => exact Or.inl ((mem_ordering_iff _ _).mpr ⟨defined, made⟩)
    | true => exact Or.inr ((NameMap.mem_keys_iff _ _).mpr made)

theorem mem_references_iff (reference : String) :
    reference ∈ grammar.references ↔
      ∃ name, ∃ production ∈ grammar.alternatives name, reference ∈ namesIn production := by
  simp only [references, List.mem_flatMap]
  constructor
  · rintro ⟨⟨name, rewrite⟩, entry, production, member, occurs⟩
    have found := (grammar.mem_entries_iff name rewrite).mp entry
    refine ⟨name, production, ?_, occurs⟩
    rwa [grammar.alternatives_of_productions name rewrite found]
  · rintro ⟨name, production, member, occurs⟩
    obtain ⟨rewrite, found⟩ := (defines_iff _ _).mp (grammar.defines_of_mem name production member)
    rw [grammar.alternatives_of_productions name rewrite found] at member
    exact ⟨(name, rewrite), (grammar.mem_entries_iff name rewrite).mpr found, production, member,
      occurs⟩

theorem closed_iff : grammar.Closed ↔ ∀ name ∈ grammar.references, grammar.defines name = true := by
  constructor
  · intro closed reference mentioned
    obtain ⟨name, production, member, occurs⟩ := (grammar.mem_references_iff reference).mp mentioned
    exact closed name production member reference occurs
  · intro defined name production member reference occurs
    exact defined reference
      ((grammar.mem_references_iff reference).mpr ⟨name, production, member, occurs⟩)

theorem undefinedNames_eq_nil_iff : grammar.undefinedNames = [] ↔ grammar.Closed := by
  rw [closed_iff, undefinedNames, List.eq_nil_iff_forall_not_mem]
  simp

instance : Decidable grammar.Closed :=
  decidable_of_iff (grammar.undefinedNames = []) grammar.undefinedNames_eq_nil_iff

theorem verify_ok_iff : grammar.verify.result = .ok () ↔ grammar.Closed := by
  rw [← undefinedNames_eq_nil_iff, result_verify]
  cases grammar.undefinedNames <;> simp

end Closed

end Grammar

end LeftRecursion
