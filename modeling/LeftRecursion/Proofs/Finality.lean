import LeftRecursion.Proofs.Outcome

/-!
What is final in a run. Each step rewrites the rule of the name that it processes, which it
finds as it was given, and adds at most one rule, of a name that it makes up. No later
step changes either of them.
-/

namespace LeftRecursion

namespace Progress

section Allocations

def takenSince (progress earlier : Progress) : List String :=
  progress.supply.taken.filter fun name => !earlier.supply.isTaken name

/-- The names that a run takes from the supply, in the order in which its steps take them.
A run that fails has taken those of the steps before. -/
def allocations (progress : Progress) : List String → List String
  | [] => []
  | name :: rest =>
      match (progress.step name).result with
      | .error _ => []
      | .ok next => next.takenSince progress ++ next.allocations rest

variable {progress next middle last : Progress} {name : String} {front back ordering : List String}

theorem allocations_cons (done : (progress.step name).result = .ok next) (rest : List String) :
    progress.allocations (name :: rest) = next.takenSince progress ++ next.allocations rest := by
  simp [allocations, done]

@[simp] theorem takenSince_kept (progress : Progress) (name : String) :
    (progress.kept name).takenSince progress = [] := by
  simp [takenSince, kept, NameSupply.isTaken]

@[simp] theorem takenSince_moved (progress : Progress) (name auxiliary : String)
    (unused : progress.supply.next? = some auxiliary) :
    (progress.moved name auxiliary).takenSince progress = [auxiliary] := by
  have free := (progress.supply.next?_mem auxiliary unused).2
  simp [takenSince, moved, NameSupply.isTaken, free]

theorem Step.taken_eq (step : Step progress name next) :
    next.supply.taken = (next.takenSince progress).reverse ++ progress.supply.taken := by
  cases step with
  | kept =>
      rw [takenSince_kept]
      rfl
  | moved auxiliary _ _ unused =>
      rw [takenSince_moved _ _ _ unused]
      rfl

theorem taken_of_run (ran : (progress.run ordering).result = .ok last) :
    last.supply.taken = (progress.allocations ordering).reverse ++ progress.supply.taken := by
  induction ordering generalizing progress with
  | nil =>
      cases ran
      rfl
  | cons name rest ih =>
      obtain ⟨next, done, later⟩ := run_cons_eq_ok_iff.mp ran
      rw [ih later, allocations_cons done, (step_of_ok _ _ _ done).taken_eq, List.reverse_append,
        List.append_assoc]

theorem allocations_append (ran : (progress.run front).result = .ok middle)
    (back : List String) :
    progress.allocations (front ++ back) =
      progress.allocations front ++ middle.allocations back := by
  induction front generalizing progress with
  | nil =>
      cases ran
      rfl
  | cons name rest ih =>
      obtain ⟨next, done, later⟩ := run_cons_eq_ok_iff.mp ran
      rw [List.cons_append, allocations_cons done, allocations_cons done, ih later,
        List.append_assoc]

theorem madeUp_allocations {grammar : Grammar}
    (ran : ((start grammar).run ordering).result = .ok last) :
    MadeUp grammar ((start grammar).allocations ordering).reverse last := by
  obtain ⟨made, madeUp⟩ :=
    (reached_iff.mpr ⟨ordering, (List.append_nil ordering).symm, ran⟩).madeUp
  have same : made ++ grammar.rules.keys =
      ((start grammar).allocations ordering).reverse ++ grammar.rules.keys :=
    madeUp.taken.symm.trans (taken_of_run ran)
  rwa [List.append_cancel_right same] at madeUp

end Allocations

section Final

variable {middle last : Progress} {rest : List String}

theorem productions_of_run (tidy : middle.Tidy) (ran : (middle.run rest).result = .ok last)
    (name : String) (defined : middle.grammar.defines name = true) (unlisted : name ∉ rest) :
    last.grammar.productions name = middle.grammar.productions name := by
  have reached : Reached middle rest last [] :=
    reached_iff.mpr ⟨rest, (List.append_nil rest).symm, ran⟩
  exact Grammar.productions_eq_of_alternatives ((reached.defines name defined).trans defined.symm)
    (reached.alternatives_of_not_mem tidy name defined unlisted)

/-- What a run processes and makes up has a rule after it, and is not among the rest of the
rules that were given. -/
theorem settled_of_run {grammar : Grammar} {front : List String}
    (nodup : (front ++ rest).Nodup)
    (defined : ∀ name ∈ front ++ rest, grammar.defines name = true)
    (ran : ((start grammar).run front).result = .ok middle) :
    ∀ name ∈ front ++ (start grammar).allocations front,
      middle.grammar.defines name = true ∧ name ∉ rest := by
  intro name member
  rcases List.mem_append.mp member with given | made
  · have reached : Reached (.start grammar) front middle [] :=
      reached_iff.mpr ⟨front, (List.append_nil front).symm, ran⟩
    exact ⟨reached.defines name (defined name (List.mem_append_left rest given)),
      fun later => (List.nodup_append.mp nodup).2.2 name given name later rfl⟩
  · have madeUp := madeUp_allocations ran
    have inMade := List.mem_reverse.mpr made
    refine ⟨(madeUp.defines_iff name).mpr (Or.inl inMade), fun later => ?_⟩
    have known := defined name (List.mem_append_right front later)
    rw [madeUp.fresh name inMade] at known
    cases known

end Final

end Progress

namespace Grammar

section Final

/-- The run over the beginning of an ordering rewrites the rules there for good, and the
names that it makes up are the first that the whole run does, with the same rules. It
leaves the rules of the rest of the ordering as they are given, and what the next of them is
unfolded with are rules of the final result. -/
theorem processed_rules_final (grammar result : Grammar) (front rest : List String)
    (nodup : (front ++ rest).Nodup)
    (defined : ∀ name ∈ front ++ rest, grammar.defines name = true)
    (done : (grammar.removeInOrder (front ++ rest)).result = .ok result) :
    ∃ progress, ((Progress.start grammar).run front).result = .ok progress ∧
      (grammar.removeInOrder front).result = .ok progress.grammar ∧
      (∀ name ∈ front ++ (Progress.start grammar).allocations front,
        progress.grammar.defines name = true ∧
          progress.grammar.productions name = result.productions name) ∧
      (Progress.start grammar).allocations front <+:
        (Progress.start grammar).allocations (front ++ rest) ∧
      (∀ name ∈ rest, progress.grammar.productions name = grammar.productions name) ∧
      ∀ name ∈ rest,
        unfold progress.grammar progress.processed (progress.grammar.alternatives name) =
          unfold result front (grammar.alternatives name) := by
  obtain ⟨closed, last, reached, rfl⟩ := grammar.reached_of_ok result _ done
  obtain ⟨whole, same, ran⟩ := Progress.reached_iff.mp reached
  rw [List.append_nil] at same
  subst same
  obtain ⟨progress, ranFront, ranRest⟩ := Progress.run_append_eq_ok_iff.mp ran
  have tidy := Progress.start_tidy grammar closed
  have reachedFront : Progress.Reached (.start grammar) front progress [] :=
    Progress.reached_iff.mpr ⟨front, (List.append_nil front).symm, ranFront⟩
  have processed := Progress.settled_of_run nodup defined ranFront
  have final : ∀ name, progress.grammar.defines name = true → name ∉ rest →
      last.grammar.productions name = progress.grammar.productions name :=
    Progress.productions_of_run (reachedFront.tidy tidy) ranRest
  have waiting : ∀ name ∈ rest,
      progress.grammar.productions name = grammar.productions name := by
    intro name member
    exact Progress.productions_of_run tidy ranFront name
      (defined name (List.mem_append_right front member))
      fun given => (List.nodup_append.mp nodup).2.2 name given name member rfl
  refine ⟨progress, ranFront, ?_, ?_, ?_, waiting, ?_⟩
  · rw [result_removeInOrder_of_closed closed, ranFront]
    rfl
  · intro name member
    obtain ⟨known, unlisted⟩ := processed name member
    exact ⟨known, (final name known unlisted).symm⟩
  · rw [Progress.allocations_append ranFront]
    exact List.prefix_append _ _
  · intro name member
    have sources : progress.processed = front := by
      simpa [Progress.start] using reachedFront.processed_append
    have target : progress.grammar.alternatives name = grammar.alternatives name :=
      congrArg (Option.getD · []) (waiting name member)
    rw [sources, target]
    apply unfold_congr
    intro source given
    obtain ⟨known, unlisted⟩ := processed source (List.mem_append_left _ given)
    exact congrArg (Option.getD · []) (final source known unlisted).symm

def paired : Grammar :=
  ((empty "S").insert "S" [[.nonterminal "S", .terminal "a"], [.terminal "b"]]).insert "A"
    [[.nonterminal "S", .terminal "c"], [.nonterminal "A", .terminal "d"]]

def parted : Grammar :=
  (((paired.insert "S" [[.terminal "b", .nonterminal "Z"]]).insertGenerated "Z"
    [[.terminal "a", .nonterminal "Z"], epsilon]).insert "A"
      [[.terminal "b", .nonterminal "Z", .terminal "c", .nonterminal "Y"]]).insertGenerated "Y"
        [[.terminal "d", .nonterminal "Y"], epsilon]

theorem processed_rules_final_paired :
    ["S", "A"].Nodup ∧ (∀ name ∈ ["S", "A"], paired.defines name = true) ∧
      (paired.removeInOrder ["S", "A"]).result = .ok parted ∧
      (Progress.start paired).allocations ["S"] = ["Z"] ∧
      (Progress.start paired).allocations ["S", "A"] = ["Z", "Y"] ∧
      ∃ progress, ((Progress.start paired).run ["S"]).result = .ok progress ∧
        progress.grammar.productions "S" = parted.productions "S" ∧
        progress.grammar.productions "Z" = parted.productions "Z" ∧
        progress.grammar.productions "A" = paired.productions "A" ∧
        unfold progress.grammar progress.processed (progress.grammar.alternatives "A") =
          unfold parted ["S"] (paired.alternatives "A") := by
  have nodup : ["S", "A"].Nodup := by decide
  have defined : ∀ name ∈ ["S", "A"], paired.defines name = true := by decide
  have done : (paired.removeInOrder ["S", "A"]).result = .ok parted := by decide
  have made : (Progress.start paired).allocations ["S"] = ["Z"] := by decide
  obtain ⟨progress, ran, _, final, _, waiting, reads⟩ :=
    processed_rules_final paired parted ["S"] ["A"] nodup defined done
  rw [made] at final
  exact ⟨nodup, defined, done, made, by decide, progress, ran, (final "S" (by decide)).2,
    (final "Z" (by decide)).2, waiting "A" (by decide), reads "A" (by decide)⟩

end Final

end Grammar

end LeftRecursion
