import LeftRecursion.Proofs.Triangular

/-!
What a run leaves as it is. Where every alternative begins with a terminal or
with a name that stands later in the ordering, nothing is ever unfolded and
nothing is left recursive, so every step stores the rule that it read. Made-up
names are not in the ordering, so their rules may begin with anything.

A run brings about just that, and it keeps the ordering of the grammar. So its
results are its fixed points, and a second run changes nothing.
-/

namespace LeftRecursion

/-- Whether an alternative of a name begins with a terminal or with a name that
stands after it in the ordering. -/
def LeadsOnward (ordering : List String) (name : String) (production : Production) : Prop :=
  (∃ text rest, production = .terminal text :: rest) ∨
    ∃ target rest, production = .nonterminal target :: rest ∧ [name, target].Sublist ordering

theorem LeadsOnward.mono {ordering longer : List String} {name : String} {production : Production}
    (onward : LeadsOnward ordering name production) (within : ordering.Sublist longer) :
    LeadsOnward longer name production := by
  rcases onward with terminal | ⟨target, rest, same, after⟩
  · exact Or.inl terminal
  · exact Or.inr ⟨target, rest, same, after.trans within⟩

section Onward

theorem mem_of_sublist_pair (front back : List String) (name target : String)
    (nodup : (front ++ name :: back).Nodup)
    (after : [name, target].Sublist (front ++ name :: back)) : target ∈ back := by
  induction front with
  | nil =>
      have absent : name ∉ back := (List.nodup_cons.mp nodup).1
      rcases List.cons_sublist_cons'.mp after with skipped | ⟨_, rest⟩
      · exact absurd (skipped.subset List.mem_cons_self) absent
      · exact List.singleton_sublist.mp rest
  | cons first rest ih =>
      obtain ⟨absent, later⟩ := List.nodup_cons.mp nodup
      rcases List.cons_sublist_cons'.mp after with skipped | ⟨rfl, _⟩
      · exact ih later skipped
      · exact absurd (List.mem_append_right rest List.mem_cons_self) absent

theorem leadsOnward_of_eachBefore (grammar : Grammar) (ordering : List String)
    (each : EachBefore (fun name later => ∀ production ∈ grammar.alternatives name,
      BeginsAmong later production) ordering) :
    ∀ name ∈ ordering, ∀ production ∈ grammar.alternatives name,
      LeadsOnward ordering name production := by
  induction ordering with
  | nil => exact fun _ member => absurd member List.not_mem_nil
  | cons first rest ih =>
      intro name listed production member
      rcases List.mem_cons.mp listed with rfl | inRest
      · match production, each.1 production member with
        | .terminal text :: tail, _ => exact Or.inl ⟨text, tail, rfl⟩
        | .nonterminal target :: tail, later =>
            exact Or.inr ⟨target, tail, rfl, (List.singleton_sublist.mpr later).cons_cons name⟩
      · rcases ih each.2 name inRest production member with terminal | ⟨target, tail, rfl, after⟩
        · exact Or.inl terminal
        · exact Or.inr ⟨target, tail, rfl, after.cons first⟩

-- Nothing that is processed before the name, and not the name itself, leads.
theorem not_beginsWith_of_leadsOnward (front back : List String) (name : String)
    (nodup : (front ++ name :: back).Nodup) (production : Production)
    (onward : LeadsOnward (front ++ name :: back) name production) :
    beginsWith name production = false ∧
      ∀ source ∈ front, beginsWith source production = false := by
  rcases onward with ⟨text, rest, rfl⟩ | ⟨target, rest, rfl, after⟩
  · exact ⟨rfl, fun _ _ => rfl⟩
  · have inBack := mem_of_sublist_pair front back name target nodup after
    obtain ⟨_, unique, apart⟩ := List.nodup_append.mp nodup
    have other : ∀ source, source ≠ target →
        beginsWith source (.nonterminal target :: rest) = false := by
      intro source different
      simp [beginsWith, stripLeading, different.symm]
    refine ⟨other name ?_, fun source member => other source ?_⟩
    · rintro rfl
      exact (List.nodup_cons.mp unique).1 inBack
    · exact apart source member target (List.mem_cons_of_mem name inBack)

end Onward

theorem unfold_of_not_beginsWith (grammar : Grammar) (sources : List String) (rewrite : Rewrite)
    (free : ∀ production ∈ rewrite, ∀ source ∈ sources, beginsWith source production = false) :
    (unfold grammar sources rewrite).rewrite = rewrite := by
  apply unfold_induction grammar sources rewrite fun target => target = rewrite
  · rfl
  · rintro source isSource _ rfl
    exact substitute_of_not_beginsWith source _ _ fun production member =>
      free production member source isSource

namespace Grammar

theorem insert_alternatives (grammar : Grammar) (name : String)
    (defined : grammar.defines name = true) :
    grammar.insert name (grammar.alternatives name) = grammar := by
  obtain ⟨rewrite, found⟩ := (defines_iff _ _).mp defined
  have same : (grammar.rules.insert name (grammar.alternatives name)) = grammar.rules := by
    apply NameMap.ext_get?
    intro other
    rw [NameMap.get?_insert]
    split
    · next equal =>
        subst equal
        rw [grammar.alternatives_of_productions other rewrite found]
        exact found.symm
    · rfl
  rw [insert, same]

end Grammar

namespace Progress

section Unchanged

variable (grammar : Grammar) (supply : NameSupply)

theorem result_step_of_leadsOnward (front back : List String) (name : String)
    (nodup : (front ++ name :: back).Nodup) (defined : grammar.defines name = true)
    (onward : ∀ production ∈ grammar.alternatives name,
      LeadsOnward (front ++ name :: back) name production) :
    (step ⟨grammar, supply, front⟩ name).result = .ok ⟨grammar, supply, front ++ [name]⟩ := by
  have free := fun production member =>
    not_beginsWith_of_leadsOnward front back name nodup production (onward production member)
  have same : unfolded ⟨grammar, supply, front⟩ name = grammar.alternatives name :=
    unfold_of_not_beginsWith grammar front _ fun production member => (free production member).2
  have notRecursive : isLeftRecursive name (unfolded ⟨grammar, supply, front⟩ name) = false := by
    rw [same, isLeftRecursive, List.any_eq_false]
    intro production member
    simp [(free production member).1]
  have noTails : (split ⟨grammar, supply, front⟩ name).tails = [] :=
    Split.tails_of_free name _ notRecursive
  have others : (split ⟨grammar, supply, front⟩ name).others = grammar.alternatives name :=
    (Split.others_of_free name _ notRecursive).trans same
  rw [result_step_of_defined _ _ defined, if_pos noTails, kept, others,
    grammar.insert_alternatives name defined]

theorem result_run_of_leadsOnward (front back : List String) (nodup : (front ++ back).Nodup)
    (defined : ∀ name ∈ back, grammar.defines name = true)
    (onward : ∀ name ∈ back, ∀ production ∈ grammar.alternatives name,
      LeadsOnward (front ++ back) name production) :
    (run ⟨grammar, supply, front⟩ back).result = .ok ⟨grammar, supply, front ++ back⟩ := by
  induction back generalizing front with
  | nil => simp
  | cons name rest ih =>
      rw [result_run_cons, result_step_of_leadsOnward grammar supply front rest name nodup
        (defined name List.mem_cons_self) (onward name List.mem_cons_self)]
      rw [List.append_cons front name rest] at nodup onward ⊢
      exact ih (front ++ [name]) nodup
        (fun other member => defined other (List.mem_cons_of_mem name member))
        fun other member => onward other (List.mem_cons_of_mem name member)

theorem Reached.alternatives_of_leadsOnward {first progress : Progress}
    {ordering remaining : List String} (reached : Reached first ordering progress remaining)
    (tidy : first.Tidy) (unprocessed : first.processed = []) (nodup : ordering.Nodup)
    (name : String) (defined : first.grammar.defines name = true)
    (onward : ∀ production ∈ first.grammar.alternatives name,
      LeadsOnward ordering name production) :
    progress.grammar.alternatives name = first.grammar.alternatives name := by
  induction reached with
  | start => rfl
  | @step before _ current rest earlier done ih =>
      by_cases same : current = name
      · subst same
        have position := earlier.processed_append
        rw [unprocessed, List.nil_append] at position
        rw [← ih, ← position] at onward
        rw [← position] at nodup
        have unchanged := result_step_of_leadsOnward before.grammar before.supply before.processed
          rest current nodup (earlier.defines current defined) onward
        cases done.symm.trans unchanged
        exact ih
      · have step := step_of_ok _ _ _ done
        exact (step.alternatives_ne (earlier.tidy tidy) name (Ne.symm same)
          (earlier.defines name defined)).trans ih

end Unchanged

end Progress

namespace Grammar

section FixedPoints

variable {grammar result : Grammar}

/-- Whether every name that is referred to has a rule, and every given name leads
only to terminals and to names after it. -/
structure Settled (grammar : Grammar) : Prop where
  closed : grammar.Closed
  onward : ∀ name ∈ grammar.ordering, ∀ production ∈ grammar.alternatives name,
    LeadsOnward grammar.ordering name production

theorem Settled.unchanged (settled : grammar.Settled) :
    grammar.removeLeftRecursion.result = .ok grammar := by
  have defined : ∀ name ∈ grammar.ordering, grammar.defines name = true :=
    fun name listed => ((mem_ordering_iff grammar name).mp listed).1
  have ran := Progress.result_run_of_leadsOnward grammar (.ofGrammar grammar) [] grammar.ordering
    grammar.ordering_nodup defined settled.onward
  rw [removeLeftRecursion, result_removeInOrder, (verify_ok_iff grammar).mpr settled.closed,
    Progress.start, ran]
  rfl

theorem settled_of_ok (given : grammar.IsGiven)
    (done : grammar.removeLeftRecursion.result = .ok result) : result.Settled := by
  obtain ⟨closed, last, reached, rfl⟩ := grammar.reached_of_ok result grammar.ordering done
  have tidy := Progress.start_tidy grammar closed
  have lists := grammar.ordering_listsOnce given
  obtain ⟨made, ordered⟩ := reached.ordered (Progress.start_ordered grammar given closed lists)
  refine ⟨(reached.tidy tidy).closed, ?_⟩
  rw [reached.ordering_eq tidy]
  exact leadsOnward_of_eachBefore _ _ (eachBefore_beginsAmong ordered)

/-- The grammars that a run leaves as they are, among those that are read, are the
ones that lead onward in their own ordering, and every result is left as it is. -/
theorem removeLeftRecursion_fixed_points (grammar : Grammar) (given : grammar.IsGiven) :
    (grammar.removeLeftRecursion.result = .ok grammar ↔
      grammar.Closed ∧ ∀ name ∈ grammar.ordering, ∀ production ∈ grammar.alternatives name,
        LeadsOnward grammar.ordering name production) ∧
    ∀ result, grammar.removeLeftRecursion.result = .ok result →
      result.removeLeftRecursion.result = .ok result := by
  refine ⟨⟨?_, ?_⟩, ?_⟩
  · intro unchanged
    have settled := settled_of_ok given unchanged
    exact ⟨settled.closed, settled.onward⟩
  · rintro ⟨closed, onward⟩
    exact Settled.unchanged ⟨closed, onward⟩
  · intro result done
    exact (settled_of_ok given done).unchanged

def stepwise : Grammar :=
  ((empty "S").insert "S" [[.nonterminal "A", .terminal "a"], [.terminal "b"]]).insert "A"
    [[.terminal "c", .nonterminal "S"]]

theorem removeLeftRecursion_fixed_points_stepwise :
    stepwise.IsGiven ∧ stepwise.removeLeftRecursion.result = .ok stepwise ∧
      LeadsOnward ["S", "A"] "S" [.nonterminal "A", .terminal "a"] ∧
      entangled.IsGiven ∧ entangled.removeLeftRecursion.result = .ok disentangled ∧
      disentangled.removeLeftRecursion.result = .ok disentangled := by
  have readStepwise : (Reading.ofLines "S" ["S -> Aa b", "A -> cS"]).grammar = stepwise := by
    decide
  have stepwiseGiven : stepwise.IsGiven := by
    rw [← readStepwise]
    exact Reading.isGiven_ofNumbered "S" {} _
  have readEntangled :
      (Reading.ofLines "S" ["S -> Aa b", "A -> Ac Sd f"]).grammar = entangled := by decide
  have entangledGiven : entangled.IsGiven := by
    rw [← readEntangled]
    exact Reading.isGiven_ofNumbered "S" {} _
  have unchanged : stepwise.removeLeftRecursion.result = .ok stepwise := by decide
  have done : entangled.removeLeftRecursion.result = .ok disentangled := by decide
  have onward := ((removeLeftRecursion_fixed_points stepwise stepwiseGiven).1.mp unchanged).2
  exact ⟨stepwiseGiven, unchanged, onward "S" (by decide) _ (by decide), entangledGiven, done,
    (removeLeftRecursion_fixed_points entangled entangledGiven).2 disentangled done⟩

end FixedPoints

end Grammar

end LeftRecursion
