import LeftRecursion.Proofs.Steps

/-!
The names that a run makes up. The names that are taken are those with a rule, at
the start and after every step. So a new name has no rule yet, and since every name
that a rule refers to has one, no alternative mentions it. A step makes up one name
at most, and all that it changes is the rule of the name that it processes.
-/

namespace LeftRecursion

namespace NameSupply

section Candidates

theorem length_candidateNames : candidateNames.length = 700 := by
  have singles : singleLetters.length = 24 := by decide
  have letters : alphabet.length = 26 := by decide
  simp [candidateNames, letterPairs, singles, letters, List.length_flatMap]

theorem letters_of_mem_candidateNames (name : String) (candidate : name ∈ candidateNames) :
    name.toList ≠ [] ∧ ∀ c ∈ name.toList, c ∈ alphabet := by
  -- Decided over the list: a quantifier over characters might go through all of them.
  have within : (singleLetters.all fun letter => alphabet.contains letter) = true := by decide
  have single : ∀ letter ∈ singleLetters, letter ∈ alphabet := by
    simpa only [List.all_eq_true, List.contains_iff_mem] using within
  rcases List.mem_append.mp candidate with short | long
  · simp only [List.map_map, List.mem_map, Function.comp_apply] at short
    obtain ⟨letter, inLetters, rfl⟩ := short
    simpa using single letter inLetters
  · obtain ⟨pair, inPairs, rfl⟩ := List.mem_map.mp long
    simp only [letterPairs, List.mem_flatMap, List.mem_map] at inPairs
    obtain ⟨first, isFirst, second, isSecond, rfl⟩ := inPairs
    simp [isFirst, isSecond]

theorem letterPairs_nodup : letterPairs.Nodup := by
  have letters : alphabet.Nodup := by decide
  refine List.nodup_flatMap.mpr ⟨fun first _ => letters.map ?_, ?_⟩
  · intro second other same
    simpa using same
  · refine letters.imp fun different pair inFirst inSecond => ?_
    obtain ⟨_, _, rfl⟩ := List.mem_map.mp inFirst
    obtain ⟨_, _, same⟩ := List.mem_map.mp inSecond
    exact different (List.cons.inj same).1.symm

theorem candidateNames_nodup : candidateNames.Nodup := by
  have injective : Function.Injective String.ofList := fun first second same => by
    simpa using congrArg String.toList same
  have singles : (singleLetters.map fun letter => [letter]).Nodup := by decide
  rw [candidateNames, ← List.map_append]
  refine (singles.append letterPairs_nodup ?_).map injective
  intro name short long
  obtain ⟨_, _, rfl⟩ := List.mem_map.mp short
  simp [letterPairs] at long

end Candidates

end NameSupply

namespace Progress

section MadeUp

/-- The names of a state if those in `made`, the latest first, are what the run from
`origin` has made up so far. -/
structure MadeUp (origin : Grammar) (made : List String) (progress : Progress) : Prop where
  taken : progress.supply.taken = made ++ origin.rules.keys
  nodup : progress.supply.taken.Nodup
  candidates : ∀ name ∈ made, name ∈ candidateNames
  count : made.length ≤ progress.processed.length
  defines : ∀ name, progress.grammar.defines name = true ↔ name ∈ progress.supply.taken
  generated : ∀ name, progress.grammar.isGenerated name = true ↔
    name ∈ made ∨ origin.isGenerated name = true

variable {origin : Grammar} {made : List String} {progress next : Progress} {name : String}

theorem start_madeUp (origin : Grammar) : MadeUp origin [] (start origin) where
  taken := rfl
  nodup := origin.rules.keys_nodup
  candidates _ member := nomatch member
  count := Nat.le_refl _
  defines name := (origin.mem_rules_keys_iff name).symm
  generated name := by simp [start]

theorem MadeUp.kept (madeUp : MadeUp origin made progress)
    (defined : progress.grammar.defines name = true) : MadeUp origin made (progress.kept name) where
  taken := madeUp.taken
  nodup := madeUp.nodup
  candidates := madeUp.candidates
  count := by
    have before := madeUp.count
    simp only [Progress.kept, List.length_append]
    omega
  defines other := by
    rw [defines_kept_iff, madeUp.defines]
    refine ⟨?_, Or.inr⟩
    rintro (rfl | old)
    · exact (madeUp.defines other).mp defined
    · exact old
  generated := madeUp.generated

theorem MadeUp.moved (madeUp : MadeUp origin made progress)
    (defined : progress.grammar.defines name = true) (auxiliary : String)
    (unused : progress.supply.next? = some auxiliary) :
    MadeUp origin (auxiliary :: made) (progress.moved name auxiliary) where
  taken := congrArg (auxiliary :: ·) madeUp.taken
  nodup := List.nodup_cons.mpr ⟨(progress.supply.next?_mem auxiliary unused).2, madeUp.nodup⟩
  candidates := List.forall_mem_cons.mpr
    ⟨(progress.supply.next?_mem auxiliary unused).1, madeUp.candidates⟩
  count := by
    have before := madeUp.count
    simp only [Progress.moved, List.length_append, List.length_cons]
    omega
  defines other := by
    rw [defines_moved_iff, madeUp.defines, Progress.moved, List.mem_cons]
    refine or_congr_right ⟨?_, Or.inr⟩
    rintro (rfl | old)
    · exact (madeUp.defines other).mp defined
    · exact old
  generated other := by
    rw [isGenerated_moved, Bool.or_eq_true, beq_iff_eq, madeUp.generated, List.mem_cons, or_assoc]

theorem MadeUp.step (madeUp : MadeUp origin made progress) (step : Step progress name next) :
    MadeUp origin made next ∨
      ∃ auxiliary, progress.supply.next? = some auxiliary ∧
        MadeUp origin (auxiliary :: made) next := by
  cases step with
  | kept defined => exact Or.inl (madeUp.kept defined)
  | moved auxiliary defined _ unused =>
      exact Or.inr ⟨auxiliary, unused, madeUp.moved defined auxiliary unused⟩

theorem Reached.madeUp {ordering remaining : List String}
    (reached : Reached (.start origin) ordering progress remaining) :
    ∃ made, MadeUp origin made progress := by
  apply reached.invariant fun progress _ => ∃ made, MadeUp origin made progress
  · exact ⟨[], start_madeUp origin⟩
  · rintro before name rest after - ⟨made, madeUp⟩ step
    rcases madeUp.step step with same | ⟨auxiliary, _, longer⟩
    · exact ⟨made, same⟩
    · exact ⟨auxiliary :: made, longer⟩

theorem MadeUp.defines_iff (madeUp : MadeUp origin made progress) (name : String) :
    progress.grammar.defines name = true ↔ name ∈ made ∨ origin.defines name = true := by
  rw [madeUp.defines, madeUp.taken, List.mem_append, Grammar.mem_rules_keys_iff]

theorem MadeUp.fresh (madeUp : MadeUp origin made progress) (name : String)
    (member : name ∈ made) : origin.defines name = false := by
  have nodup := madeUp.nodup
  rw [madeUp.taken] at nodup
  rw [Bool.eq_false_iff]
  intro defined
  exact (List.nodup_append.mp nodup).2.2 name member name
    ((origin.mem_rules_keys_iff name).mpr defined) rfl

end MadeUp

section Frame

variable {first progress : Progress} {ordering remaining : List String}

theorem Reached.alternatives_of_not_mem (reached : Reached first ordering progress remaining)
    (tidy : first.Tidy) (name : String) (defined : first.grammar.defines name = true)
    (unlisted : name ∉ ordering) :
    progress.grammar.alternatives name = first.grammar.alternatives name := by
  apply reached.invariant fun progress _ =>
    progress.grammar.alternatives name = first.grammar.alternatives name
  · rfl
  · intro before current rest after earlier same step
    have different : name ≠ current := by
      rintro rfl
      exact unlisted (earlier.remaining_suffix.subset List.mem_cons_self)
    rw [step.alternatives_ne (earlier.tidy tidy) name different (earlier.defines name defined),
      same]

end Frame

end Progress

namespace Grammar

section NewNames

def newNames (before after : Grammar) : List String :=
  after.generated.keys.filter fun name => !before.isGenerated name

variable {grammar result : Grammar} {ordering : List String}

theorem newNames_nodup (before after : Grammar) : (before.newNames after).Nodup :=
  after.generated.keys_nodup.filter _

theorem mem_newNames_iff (before after : Grammar) (name : String) :
    name ∈ before.newNames after ↔
      after.isGenerated name = true ∧ before.isGenerated name = false := by
  rw [newNames, List.mem_filter, NameMap.mem_keys_iff, Bool.not_eq_true']
  rfl

-- A name marked as made up that has no rule could be made up again, and would not be new.
theorem mem_newNames_of_madeUp {made : List String} {progress : Progress}
    (marked : ∀ name, grammar.isGenerated name = true → grammar.defines name = true)
    (madeUp : Progress.MadeUp grammar made progress) (name : String) :
    name ∈ grammar.newNames progress.grammar ↔ name ∈ made := by
  rw [mem_newNames_iff, madeUp.generated]
  constructor
  · rintro ⟨new | old, unmarked⟩
    · exact new
    · rw [old] at unmarked
      cases unmarked
  · intro new
    refine ⟨Or.inl new, ?_⟩
    rw [Bool.eq_false_iff]
    intro old
    have defined := marked name old
    rw [madeUp.fresh name new] at defined
    cases defined

/-- A run only adds names that are new in every respect: they had no rule, and no
alternative mentioned them. It adds one for each place of the ordering at most, leaves
the rules of other names alone, and keeps every name that is mentioned defined. -/
theorem removeInOrder_names (grammar result : Grammar) (ordering : List String)
    (marked : ∀ name, grammar.isGenerated name = true → grammar.defines name = true)
    (done : (grammar.removeInOrder ordering).result = .ok result) :
    (∀ name, result.defines name = true ↔
      grammar.defines name = true ∨ name ∈ grammar.newNames result) ∧
    (∀ name ∈ grammar.newNames result,
      grammar.defines name = false ∧ ¬ grammar.Occurs (.nonterminal name)) ∧
    (grammar.newNames result).length ≤ ordering.length ∧
    (∀ name, grammar.isGenerated name = true → result.isGenerated name = true) ∧
    result.start = grammar.start ∧
    (∀ name, grammar.defines name = true → name ∉ ordering →
      result.productions name = grammar.productions name) ∧
    result.Closed ∧ result.verify.result = .ok () := by
  obtain ⟨closed, last, reached, rfl⟩ := grammar.reached_of_ok result ordering done
  obtain ⟨made, madeUp⟩ := reached.madeUp
  have tidy := Progress.start_tidy grammar closed
  have isNew := mem_newNames_of_madeUp marked madeUp
  have closedAfter : last.grammar.Closed := (reached.tidy tidy).closed
  refine ⟨?_, ?_, ?_, ?_, reached.start_eq, ?_, closedAfter,
    last.grammar.verify_ok_iff.mpr closedAfter⟩
  · intro name
    rw [madeUp.defines_iff, isNew, or_comm]
  · intro name new
    have fresh := madeUp.fresh name ((isNew name).mp new)
    refine ⟨fresh, fun occurs => ?_⟩
    have defined := tidy.defines_of_occurs name occurs
    rw [Progress.start, fresh] at defined
    cases defined
  · have places := reached.processed_append
    rw [List.append_nil, Progress.start, List.nil_append] at places
    calc
      (grammar.newNames last.grammar).length ≤ made.length :=
        ((newNames_nodup _ _).subperm fun name new => (isNew name).mp new).length_le
      _ ≤ last.processed.length := madeUp.count
      _ = ordering.length := by rw [places]
  · exact fun name old => (madeUp.generated name).mpr (Or.inr old)
  · intro name defined unlisted
    exact productions_eq_of_alternatives ((reached.defines name defined).trans defined.symm)
      (reached.alternatives_of_not_mem tidy name defined unlisted)

def halfway : Grammar :=
  (((empty "S").insert "S" [[.nonterminal "S", .terminal "a"], [.nonterminal "Z"]]).insert "A"
    [[.nonterminal "S", .nonterminal "Z"]]).insertGenerated "Z" [[.terminal "b", .nonterminal "A"]]

def further : Grammar :=
  (halfway.insert "S" [[.nonterminal "Z", .nonterminal "Y"]]).insertGenerated "Y"
    [[.terminal "a", .nonterminal "Y"], epsilon]

theorem removeInOrder_names_halfway :
    (∀ name, halfway.isGenerated name = true → halfway.defines name = true) ∧
      (halfway.removeInOrder ["S", "S"]).result = .ok further ∧
      halfway.newNames further = ["Y"] ∧ halfway.defines "Y" = false ∧
      further.productions "A" = halfway.productions "A" ∧ further.Closed := by
  have marked : ∀ name, halfway.isGenerated name = true → halfway.defines name = true := by
    intro name made
    have listed : name ∈ halfway.generated.keys := (NameMap.mem_keys_iff _ _).mpr made
    have names : halfway.generated.keys = ["Z"] := by decide
    rw [names, List.mem_singleton] at listed
    rw [listed]
    decide
  have done : (halfway.removeInOrder ["S", "S"]).result = .ok further := by decide
  have new : halfway.newNames further = ["Y"] := by decide
  obtain ⟨_, fresh, _, _, _, kept, closed, _⟩ :=
    removeInOrder_names halfway further ["S", "S"] marked done
  exact ⟨marked, done, new, (fresh "Y" (by rw [new]; decide)).1, kept "A" (by decide) (by decide),
    closed⟩

end NewNames

end Grammar

end LeftRecursion
