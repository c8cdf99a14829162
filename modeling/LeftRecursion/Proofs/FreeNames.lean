import LeftRecursion.Proofs.Finality

/-!
The order in which new names are handed out. A request takes the first candidate that is free
and leaves the others free. A run makes a request exactly where it notes that a nonterminal
carries the recursion of another, and before the first of them the names that are taken are
those with a rule.
-/

namespace LeftRecursion

namespace NameSupply

section Requests

/-- The candidates that are not taken, in the order in which they are handed out. -/
def free (supply : NameSupply) : List String :=
  candidateNames.filter fun name => !supply.isTaken name

/-- The answers to so many requests for a name, one after another, and the supply after them.
A request for which no name is left leaves the supply as it is. -/
def requests : Nat → NameSupply → List (Except Failure String) × NameSupply
  | 0, supply => ([], supply)
  | count + 1, supply =>
      match supply.allocate with
      | none =>
          let later := requests count supply
          (.error .namesExhausted :: later.1, later.2)
      | some (name, left) =>
          let later := requests count left
          (.ok name :: later.1, later.2)

variable (supply : NameSupply)

theorem next?_eq_head? : supply.next? = supply.free.head? := by
  rw [next?, free, List.head?_filter]

theorem free_nodup : supply.free.Nodup :=
  candidateNames_nodup.filter _

theorem free_of_next? (name : String) (found : supply.next? = some name) :
    supply.free = name :: free ⟨name :: supply.taken⟩ := by
  obtain ⟨rest, first⟩ := List.head?_eq_some_iff.mp ((next?_eq_head? supply).symm.trans found)
  have without : free ⟨name :: supply.taken⟩ =
      supply.free.filter fun other => other != name := by
    rw [free, free, List.filter_filter]
    refine List.filter_congr fun other _ => ?_
    simp [isTaken, bne, Bool.beq_eq_decide_eq]
  have nodup := supply.free_nodup
  rw [first, List.nodup_cons] at nodup
  have others : rest.filter (fun other => other != name) = rest := by
    refine List.filter_eq_self.mpr fun other member => bne_iff_ne.mpr ?_
    rintro rfl
    exact nodup.1 member
  rw [without, first, List.filter_cons_of_neg (by simp), others]

theorem requests_eq (count : Nat) :
    supply.requests count =
      ((supply.free.take count).map Except.ok ++
          List.replicate (count - supply.free.length) (Except.error .namesExhausted),
        ⟨(supply.free.take count).reverse ++ supply.taken⟩) := by
  induction count generalizing supply with
  | zero => simp [requests]
  | succ count ih =>
      cases found : supply.next? with
      | none =>
          have empty : supply.free = [] := by
            rwa [next?_eq_head?, List.head?_eq_none_iff] at found
          have failed : supply.allocate = none := by rw [allocate, found, Option.map_none]
          simp [requests, failed, ih supply, empty, List.replicate_succ]
      | some name =>
          have taken : supply.allocate = some (name, ⟨name :: supply.taken⟩) := by
            rw [allocate, found, Option.map_some]
          have first := supply.free_of_next? name found
          simp [requests, taken, ih ⟨name :: supply.taken⟩, first]

end Requests

end NameSupply

/-- The nonterminals of an elimination that is noted, the one that loses its recursion first. -/
def Event.elimination? : Event → Option (String × String)
  | .eliminated name auxiliary => some (name, auxiliary)
  | _ => none

namespace Progress

section Requests

variable {progress next last : Progress} {name : String} {ordering : List String}

theorem Step.free_eq (step : Step progress name next) :
    progress.supply.free = next.takenSince progress ++ next.supply.free := by
  cases step with
  | kept =>
      rw [takenSince_kept]
      rfl
  | moved auxiliary _ _ unused =>
      rw [takenSince_moved _ _ _ unused]
      exact progress.supply.free_of_next? auxiliary unused

/-- A run takes free names in their order and leaves out none, even if it fails. -/
theorem allocations_prefix (progress : Progress) (ordering : List String) :
    progress.allocations ordering <+: progress.supply.free := by
  induction ordering generalizing progress with
  | nil => exact List.nil_prefix
  | cons name rest ih =>
      cases done : (progress.step name).result with
      | error failure => simp [allocations, done]
      | ok next =>
          rw [allocations_cons done, (step_of_ok _ _ _ done).free_eq, List.prefix_append_right_inj]
          exact ih next

theorem eliminations_step (done : (progress.step name).result = .ok next) :
    (progress.step name).events.filterMap Event.elimination? =
      (next.takenSince progress).map fun auxiliary => (name, auxiliary) := by
  have warnings : ((progress.split name).warnings name).filterMap Event.elimination? = [] := by
    unfold Split.warnings
    split <;> split <;> rfl
  have sources : ((progress.substituted name).map (Event.substituting name)).filterMap
      Event.elimination? = [] := by
    simp [List.filterMap_map, Function.comp_def, Event.elimination?]
  rw [events_step, List.filterMap_append, List.filterMap_append, sources, warnings]
  cases step_of_ok _ _ _ done with
  | kept _ noTails => simp [noTails]
  | moved auxiliary _ tails unused =>
      simp [tails, unused, Event.elimination?]

theorem eliminations_run (ran : (progress.run ordering).result = .ok last) :
    ((progress.run ordering).events.filterMap Event.elimination?).map Prod.snd =
      progress.allocations ordering := by
  induction ordering generalizing progress with
  | nil => rfl
  | cons name rest ih =>
      obtain ⟨next, done, later⟩ := run_cons_eq_ok_iff.mp ran
      have events : (progress.run (name :: rest)).events =
          (progress.step name).events ++ (next.run rest).events := by
        rw [run, Logged.andThen_of_ok _ _ _ done, Logged.events_noting]
      rw [events, List.filterMap_append, List.map_append, eliminations_step done, ih later,
        allocations_cons done, List.map_map]
      simp

end Requests

end Progress

namespace Grammar

section CandidateOrder

theorem free_ofGrammar (grammar : Grammar) :
    (NameSupply.ofGrammar grammar).free =
      candidateNames.filter fun name => !grammar.defines name := by
  refine List.filter_congr fun name _ => ?_
  rw [NameSupply.isTaken, NameSupply.ofGrammar, Bool.not_inj_iff, Bool.eq_iff_iff,
    decide_eq_true_iff, mem_rules_keys_iff]

theorem events_removeInOrder_of_closed {grammar : Grammar} (closed : grammar.Closed)
    (ordering : List String) :
    (grammar.removeInOrder ordering).events = ((Progress.start grammar).run ordering).events := by
  have verified : grammar.verify = .done () := by
    rw [verify, (undefinedNames_eq_nil_iff grammar).mpr closed]
  rw [removeInOrder, verified, Logged.andThen_of_ok _ _ () rfl]
  cases ran : ((Progress.start grammar).run ordering).result with
  | ok last => simp [Logged.andThen_of_ok _ _ _ ran]
  | error failure => simp [Logged.andThen_of_error _ _ _ ran]

variable {grammar result : Grammar} {ordering : List String}

theorem allocations_perm
    (marked : ∀ name, grammar.isGenerated name = true → grammar.defines name = true)
    (done : (grammar.removeInOrder ordering).result = .ok result) :
    ((Progress.start grammar).allocations ordering).Perm (grammar.newNames result) := by
  obtain ⟨_, last, reached, rfl⟩ := grammar.reached_of_ok result ordering done
  have madeUp := Progress.madeUp_allocations (Progress.reached_nil_iff.mp reached)
  have nodup := (Progress.allocations_prefix (Progress.start grammar) ordering).sublist.nodup
    (NameSupply.free_nodup _)
  refine (List.perm_ext_iff_of_nodup nodup (newNames_nodup _ _)).mpr fun name => ?_
  rw [mem_newNames_of_madeUp marked madeUp, List.mem_reverse]

theorem eliminations_removeInOrder
    (done : (grammar.removeInOrder ordering).result = .ok result) :
    ((grammar.removeInOrder ordering).events.filterMap Event.elimination?).map Prod.snd =
      (Progress.start grammar).allocations ordering := by
  obtain ⟨closed, _, reached, _⟩ := grammar.reached_of_ok result ordering done
  rw [events_removeInOrder_of_closed closed]
  exact Progress.eliminations_run (Progress.reached_nil_iff.mp reached)

/-- Requests for names are answered with the candidates that are free, in their order and each
once, until none is left, and exactly the answers are taken from then on. So the new names of a
run are the first candidates without a rule, in the order in which it makes them up and notes
them. -/
theorem new_names_in_candidate_order :
    (∀ (supply : NameSupply) (count : Nat),
      (supply.free = candidateNames.filter fun name => name ∉ supply.taken) ∧
        supply.free.Nodup ∧
        supply.requests count =
          ((supply.free.take count).map Except.ok ++
              List.replicate (count - supply.free.length) (Except.error .namesExhausted),
            ⟨(supply.free.take count).reverse ++ supply.taken⟩)) ∧
    ∀ (grammar result : Grammar) (ordering : List String),
      (∀ name, grammar.isGenerated name = true → grammar.defines name = true) →
      (grammar.removeInOrder ordering).result = .ok result →
        let created := (Progress.start grammar).allocations ordering
        created.Perm (grammar.newNames result) ∧
          (created =
            (candidateNames.filter fun name => !grammar.defines name).take created.length) ∧
          ((grammar.removeInOrder ordering).events.filterMap Event.elimination?).map Prod.snd =
            created := by
  refine ⟨fun supply count => ⟨?_, supply.free_nodup, supply.requests_eq count⟩, ?_⟩
  · simp [NameSupply.free, NameSupply.isTaken]
  intro grammar result ordering marked done created
  have isPrefix := Progress.allocations_prefix (Progress.start grammar) ordering
  rw [Progress.start, free_ofGrammar] at isPrefix
  exact ⟨allocations_perm marked done, List.prefix_iff_eq_take.mp isPrefix,
    eliminations_removeInOrder done⟩

/-- Two left recursive nonterminals, of which one has the name of the first candidate, and a
rule that was made up before with the name of the third. -/
def gapped : Grammar :=
  (((empty "S").insert "S" [[.nonterminal "S", .terminal "a"], [.nonterminal "Z"]]).insert "Z"
    [[.nonterminal "Z", .nonterminal "X"], [.terminal "b"]]).insertGenerated "X" [[.terminal "c"]]

def gapsFilled : Grammar :=
  (((gapped.insert "Z" [[.terminal "b", .nonterminal "Y"]]).insertGenerated "Y"
    [[.nonterminal "X", .nonterminal "Y"], epsilon]).insert "S"
      [[.terminal "b", .nonterminal "Y", .nonterminal "W"]]).insertGenerated "W"
        [[.terminal "a", .nonterminal "W"], epsilon]

theorem new_names_in_candidate_order_gapped :
    NameSupply.requests 2 ⟨candidateNames⟩ =
        ([.error .namesExhausted, .error .namesExhausted], ⟨candidateNames⟩) ∧
      (∀ name, gapped.isGenerated name = true → gapped.defines name = true) ∧
      (gapped.removeInOrder ["Z", "S"]).result = .ok gapsFilled ∧
      (Progress.start gapped).allocations ["Z", "S"] = ["Y", "W"] ∧
      ["Y", "W"].Perm (gapped.newNames gapsFilled) ∧
      (candidateNames.filter fun name => !gapped.defines name).take 2 = ["Y", "W"] := by
  obtain ⟨supplies, runs⟩ := new_names_in_candidate_order
  obtain ⟨isFree, _, answers⟩ := supplies ⟨candidateNames⟩ 2
  have none : NameSupply.free ⟨candidateNames⟩ = [] := by
    rw [isFree]
    simp
  have marked : ∀ name, gapped.isGenerated name = true → gapped.defines name = true := by
    intro name made
    have listed : name ∈ gapped.generated.keys := (NameMap.mem_keys_iff _ _).mpr made
    rw [show gapped.generated.keys = ["X"] by decide, List.mem_singleton] at listed
    rw [listed]
    decide
  have done : (gapped.removeInOrder ["Z", "S"]).result = .ok gapsFilled := by decide
  have created : (Progress.start gapped).allocations ["Z", "S"] = ["Y", "W"] := by decide
  obtain ⟨new, inOrder, _⟩ := runs gapped gapsFilled ["Z", "S"] marked done
  rw [created] at new inOrder
  refine ⟨?_, marked, done, created, new, inOrder.symm⟩
  rw [answers, none]
  rfl

end CandidateOrder

end Grammar

end LeftRecursion
