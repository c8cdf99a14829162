import LeftRecursion.Proofs.Fallback
import LeftRecursion.Proofs.NewNames

/-!
How runs end. A run that fails stops in one of its states, either at a name without
a rule or because no name is free for a new nonterminal. In its own ordering a
grammar lists only names with rules, and rules are never taken away, so only the
verification at the start can find a name without one. A run makes up one name for
each place of the ordering at most, so it runs out of names only if the grammar has
many rules already.
-/

namespace LeftRecursion

theorem NameMap.get?_foldr_insert {α : Type} (names : List String) (value : α) (name : String) :
    (names.foldr (fun other map => map.insert other value) NameMap.empty).get? name =
      if name ∈ names then some value else none := by
  induction names with
  | nil => rfl
  | cons first rest ih =>
      rw [List.foldr_cons, get?_insert, ih]
      by_cases same : name = first <;> simp [same]

namespace Progress

section Ends

variable {first progress : Progress} {ordering remaining : List String}

theorem step_of_error (progress : Progress) (name : String) (failure : Failure)
    (failed : (progress.step name).result = .error failure) :
    (failure = .undefined name ∧ progress.grammar.defines name = false) ∨
      (failure = .namesExhausted ∧ progress.supply.next? = none) := by
  cases defined : progress.grammar.defines name with
  | false =>
      rw [result_step_of_not_defines _ _ defined, Except.error.injEq] at failed
      exact Or.inl ⟨failed.symm, rfl⟩
  | true =>
      rw [result_step_of_defined _ _ defined] at failed
      split at failed
      · cases failed
      · cases unused : progress.supply.next? with
        | none =>
            simp only [unused, Except.error.injEq] at failed
            exact Or.inr ⟨failed.symm, rfl⟩
        | some auxiliary => simp [unused] at failed

theorem Reached.stops (reached : Reached first ordering progress remaining) (failure : Failure)
    (failed : (progress.run remaining).result = .error failure) :
    ∃ state name rest, Reached first ordering state (name :: rest) ∧
      (state.step name).result = .error failure := by
  induction remaining generalizing progress with
  | nil => cases failed
  | cons name rest ih =>
      cases processed : (progress.step name).result with
      | error cause =>
          rw [result_run_cons, processed, Except.bind] at failed
          cases failed
          exact ⟨progress, name, rest, reached, processed⟩
      | ok next =>
          rw [result_run_cons, processed, Except.bind] at failed
          exact ih (.step reached processed) failed

end Ends

section Eliminations

variable {first progress : Progress} {ordering remaining : List String}

theorem eliminated_mem_step_iff (progress : Progress) (name other auxiliary : String) :
    .eliminated other auxiliary ∈ (progress.step name).events ↔
      other = name ∧ (progress.split name).tails ≠ [] ∧
        progress.supply.next? = some auxiliary := by
  simp [mem_events_step_iff, eq_comm (a := auxiliary), and_comm, and_assoc]

theorem Reached.taken_cases (reached : Reached first ordering progress remaining) (name : String)
    (taken : name ∈ progress.supply.taken) :
    name ∈ first.supply.taken ∨
      ∃ state other rest, Reached first ordering state (other :: rest) ∧
        .eliminated other name ∈ (state.step other).events := by
  induction reached with
  | start => exact Or.inl taken
  | @step before _ other rest earlier done ih =>
      cases step_of_ok _ _ _ done with
      | kept => exact ih taken
      | moved auxiliary _ tails unused =>
          rcases List.mem_cons.mp taken with rfl | old
          · exact Or.inr ⟨before, other, rest, earlier,
              (eliminated_mem_step_iff _ _ _ _).mpr ⟨rfl, tails, unused⟩⟩
          · exact ih old

end Eliminations

section Supply

variable {grammar : Grammar} {progress : Progress} {name : String} {ordering rest : List String}

/-- A name is free where the rules and the places of the ordering are fewer than the
candidates, since every place makes up one name at most. -/
theorem Reached.next?_ne_none (reached : Reached (.start grammar) ordering progress (name :: rest))
    (few : grammar.size + ordering.length ≤ candidateNames.length) :
    progress.supply.next? ≠ none := by
  intro exhausted
  obtain ⟨made, madeUp⟩ := reached.madeUp
  have allTaken := (progress.supply.next?_eq_none_iff).mp exhausted
  have bound : candidateNames.length ≤ progress.supply.taken.length :=
    (NameSupply.candidateNames_nodup.subperm allTaken).length_le
  have places := congrArg List.length reached.processed_append
  have count := madeUp.count
  have keys : grammar.rules.keys.length = grammar.size := List.length_map _
  simp only [Progress.start, List.nil_append, List.length_append, List.length_cons] at places
  rw [madeUp.taken, List.length_append, keys] at bound
  omega

end Supply

end Progress

namespace Grammar

section References

variable (grammar : Grammar)

theorem head?_undefinedNames :
    grammar.undefinedNames.head? = grammar.references.find? fun name => !grammar.defines name := by
  rw [undefinedNames, ← List.head?_filter]
  cases grammar.references.filter fun name => !grammar.defines name with
  | nil => rfl
  | cons first rest => rw [List.eraseDups_cons, List.head?_cons, List.head?_cons]

theorem result_verify_eq : grammar.verify.result =
    match grammar.references.find? fun name => !grammar.defines name with
    | none => .ok ()
    | some name => .error (.undefined name) := by
  rw [result_verify, ← head?_undefinedNames]
  cases grammar.undefinedNames <;> rfl

theorem length_ordering_le : grammar.ordering.length ≤ grammar.size := by
  have keys : grammar.rules.keys.length = grammar.size := List.length_map _
  rw [← keys]
  refine (grammar.ordering_nodup.subperm fun name listed => ?_).length_le
  exact (grammar.mem_rules_keys_iff name).mpr ((mem_ordering_iff grammar name).mp listed).1

end References

section Runs

variable {grammar : Grammar} {ordering : List String}

theorem result_removeInOrder_of_closed (closed : grammar.Closed) (ordering : List String) :
    (grammar.removeInOrder ordering).result =
      ((Progress.start grammar).run ordering).result.map Progress.grammar := by
  rw [result_removeInOrder, grammar.verify_ok_iff.mpr closed]
  rfl

theorem reached_of_error (closed : grammar.Closed) (failure : Failure)
    (failed : (grammar.removeInOrder ordering).result = .error failure) :
    ∃ progress name rest, Progress.Reached (.start grammar) ordering progress (name :: rest) ∧
      (progress.step name).result = .error failure := by
  rw [result_removeInOrder_of_closed closed] at failed
  cases ran : ((Progress.start grammar).run ordering).result with
  | ok last => simp [ran, Except.map] at failed
  | error cause =>
      simp only [ran, Except.map, Except.error.injEq] at failed
      subst failed
      exact Progress.Reached.start.stops cause ran

variable {failure : Failure} {progress : Progress} {name : String} {rest : List String}

theorem defines_of_reached
    (reached : Progress.Reached (.start grammar) grammar.ordering progress (name :: rest)) :
    ∀ source ∈ name :: progress.processed, progress.grammar.defines source = true := by
  intro source lookedUp
  have places : progress.processed ++ name :: rest = grammar.ordering := reached.processed_append
  have listed : source ∈ grammar.ordering := by
    rw [← places]
    rcases List.mem_cons.mp lookedUp with rfl | earlier
    · exact List.mem_append_right _ List.mem_cons_self
    · exact List.mem_append_left _ earlier
  exact reached.defines source ((mem_ordering_iff grammar source).mp listed).1

theorem exhausted_of_error (closed : grammar.Closed)
    (failed : grammar.removeLeftRecursion.result = .error failure) :
    failure = .namesExhausted ∧
      ∃ progress name rest,
        Progress.Reached (.start grammar) grammar.ordering progress (name :: rest) ∧
          progress.supply.next? = none := by
  obtain ⟨progress, name, rest, reached, stopped⟩ := reached_of_error closed failure failed
  rcases progress.step_of_error name failure stopped with ⟨_, undefined⟩ | ⟨same, exhausted⟩
  · rw [defines_of_reached reached name List.mem_cons_self] at undefined
    cases undefined
  · exact ⟨same, progress, name, rest, reached, exhausted⟩

/-- With a rule for each candidate a left recursive start symbol ends the run at once. -/
theorem exhausted_of_full (grammar : Grammar) (closed : grammar.Closed)
    (given : grammar.start ∈ grammar.givenNames)
    (recursive : ((Progress.start grammar).split grammar.start).tails ≠ [])
    (full : ∀ candidate ∈ candidateNames, grammar.defines candidate = true) :
    grammar.removeLeftRecursion.result = .error .namesExhausted := by
  obtain ⟨rest, ordering⟩ := grammar.ordering_of_start given
  have exhausted : (Progress.start grammar).supply.next? = none := by
    rw [NameSupply.next?_eq_none_iff]
    exact fun candidate member =>
      (grammar.mem_rules_keys_iff candidate).mpr (full candidate member)
  have defined : (Progress.start grammar).grammar.defines grammar.start = true :=
    ((mem_givenNames_iff grammar _).mp given).1
  have stopped : ((Progress.start grammar).step grammar.start).result = .error .namesExhausted := by
    rw [Progress.result_step_of_defined _ _ defined, if_neg recursive, exhausted]
  rw [removeLeftRecursion, result_removeInOrder_of_closed closed, ordering,
    Progress.result_run_cons, stopped]
  rfl

end Runs

section Outcome

/-- How a run in the grammar's own ordering ends. If some rule refers to a name without
a rule, it fails at the first such name in the order of the listing. If none does, every
look-up on the way finds a rule, names run out only when each candidate has a rule in the
grammar or was made up before, and with few rules they never do. -/
theorem removeLeftRecursion_outcome (grammar : Grammar) :
    (¬ grammar.Closed →
      ∃ name, grammar.references.find? (fun name => !grammar.defines name) = some name ∧
        grammar.removeLeftRecursion.result = .error (.undefined name)) ∧
    (grammar.Closed →
      (∀ name, grammar.removeLeftRecursion.result ≠ .error (.undefined name)) ∧
      (∀ progress name rest,
        Progress.Reached (.start grammar) grammar.ordering progress (name :: rest) →
          ∀ source ∈ name :: progress.processed, progress.grammar.defines source = true) ∧
      (grammar.removeLeftRecursion.result = .error .namesExhausted →
        ∀ candidate ∈ candidateNames, grammar.defines candidate = true ∨
          ∃ name, .eliminated name candidate ∈ grammar.removeLeftRecursion.events) ∧
      (grammar.size ≤ 350 → ∃ result, grammar.removeLeftRecursion.result = .ok result)) := by
  refine ⟨fun notClosed => ?_, fun closed => ⟨?_, fun _ _ _ => defines_of_reached, ?_, ?_⟩⟩
  · cases found : grammar.references.find? fun name => !grammar.defines name with
    | none =>
        have verified : grammar.verify.result = .ok () := by rw [result_verify_eq, found]
        exact absurd (grammar.verify_ok_iff.mp verified) notClosed
    | some name =>
        refine ⟨name, rfl, ?_⟩
        rw [removeLeftRecursion, result_removeInOrder, result_verify_eq, found]
        rfl
  · intro name failed
    cases (exhausted_of_error closed failed).1
  · intro failed candidate isCandidate
    obtain ⟨_, progress, name, rest, reached, exhausted⟩ := exhausted_of_error closed failed
    have taken := progress.supply.next?_eq_none_iff.mp exhausted candidate isCandidate
    rcases reached.taken_cases candidate taken with hasRule | ⟨state, other, later, earlier, noted⟩
    · exact Or.inl ((grammar.mem_rules_keys_iff candidate).mp hasRule)
    · have verified := grammar.verify_ok_iff.mpr closed
      exact Or.inr ⟨other, (mem_events_removeInOrder_iff _ _ _).mpr
        (Or.inr ⟨verified, state, other, later, earlier, noted⟩)⟩
  · intro few
    have fewer := grammar.length_ordering_le
    have enough : grammar.size + grammar.ordering.length ≤ candidateNames.length := by
      rw [NameSupply.length_candidateNames]
      omega
    cases ran : grammar.removeLeftRecursion.result with
    | ok result => exact ⟨result, rfl⟩
    | error failure =>
        obtain ⟨_, progress, name, rest, reached, exhausted⟩ := exhausted_of_error closed ran
        exact absurd exhausted (reached.next?_ne_none enough)

def dangling : Grammar :=
  ((empty "S").insert "S" [[.nonterminal "S", .nonterminal "Q"], [.terminal "b"]]).insert "A"
    [[.terminal "a", .nonterminal "P"]]

def crowded : Grammar where
  start := "S"
  rules := NameMap.insert
    (candidateNames.foldr (fun name rules => rules.insert name []) NameMap.empty) "S"
    [[.nonterminal "S", .terminal "a"], [.terminal "b"]]

theorem productions_crowded (name : String) :
    crowded.productions name =
      if name = "S" then some [[.nonterminal "S", .terminal "a"], [.terminal "b"]]
      else if name ∈ candidateNames then some [] else none := by
  rw [productions, crowded, NameMap.get?_insert, NameMap.get?_foldr_insert]

theorem crowded_closed : crowded.Closed := by
  have defined : crowded.defines "S" = true := by
    rw [defines_iff, productions_crowded]
    exact ⟨_, rfl⟩
  intro name production member reference mentioned
  rw [alternatives, productions_crowded] at member
  split at member
  · have onlyStart : ∀ production ∈
        ([[.nonterminal "S", .terminal "a"], [.terminal "b"]] : Rewrite),
          ∀ reference ∈ namesIn production, reference = "S" := by decide
    rw [onlyStart production member reference mentioned]
    exact defined
  · split at member <;> cases member

theorem crowded_exhausted : crowded.removeLeftRecursion.result = .error .namesExhausted := by
  have found : crowded.productions "S" =
      some [[.nonterminal "S", .terminal "a"], [.terminal "b"]] := by
    rw [productions_crowded, if_pos rfl]
  have given : crowded.start ∈ crowded.givenNames :=
    (mem_givenNames_iff crowded "S").mpr ⟨(defines_iff crowded "S").mpr ⟨_, found⟩, rfl⟩
  have tails : ((Progress.start crowded).split "S").tails = [[.terminal "a"]] := by
    rw [Progress.split, Progress.unfolded, Progress.start,
      alternatives_of_productions crowded "S" _ found]
    rfl
  apply exhausted_of_full crowded crowded_closed given
  · intro none
    rw [show crowded.start = "S" from rfl, tails] at none
    cases none
  · intro candidate member
    rw [defines_iff, productions_crowded, if_pos member]
    split <;> exact ⟨_, rfl⟩

theorem removeLeftRecursion_outcome_crowded :
    (¬ dangling.Closed ∧ dangling.references = ["S", "Q", "P"] ∧
      dangling.removeLeftRecursion.result = .error (.undefined "Q")) ∧
    (crowded.Closed ∧ crowded.removeLeftRecursion.result = .error .namesExhausted ∧
      ∀ candidate ∈ candidateNames, crowded.defines candidate = true ∨
        ∃ name, .eliminated name candidate ∈ crowded.removeLeftRecursion.events) ∧
    (halfway.Closed ∧ halfway.size ≤ 350 ∧
      ∃ result, halfway.removeLeftRecursion.result = .ok result) := by
  have notClosed : ¬ dangling.Closed := by decide
  have closed : halfway.Closed := by decide
  have few : halfway.size ≤ 350 := by decide
  have references : dangling.references = ["S", "Q", "P"] := by decide
  obtain ⟨name, found, failed⟩ := (removeLeftRecursion_outcome dangling).1 notClosed
  obtain rfl : name = "Q" := by
    have first : dangling.references.find? (fun name => !dangling.defines name) = some "Q" := by
      decide
    exact Option.some.inj (found.symm.trans first)
  exact ⟨⟨notClosed, references, failed⟩,
    ⟨crowded_closed, crowded_exhausted,
      ((removeLeftRecursion_outcome crowded).2 crowded_closed).2.2.1 crowded_exhausted⟩,
    closed, few, ((removeLeftRecursion_outcome halfway).2 closed).2.2.2 few⟩

end Outcome

end Grammar

end LeftRecursion
