import LeftRecursion.Proofs.Preservation
import LeftRecursion.Proofs.Leading

/-!
Grammars without left recursion. Over any ordering, also one that repeats names
or leaves some out, a rule may be unfolded with nonterminals before and after it.
Whatever is unfolded, an alternative then begins only with nonterminals that the
rule led to before, at once or through others. So no cycle comes up, no step finds
left recursion, and no name is made up.
-/

namespace LeftRecursion

/-- What leads from a rule goes on to lead from it when it is unfolded. A source
without symbols would bring what follows it to the left end. -/
theorem begins_unfold (grammar : Grammar) (nonempty : ∀ name, [] ∉ grammar.alternatives name)
    (sources : List String) (rewrite : Rewrite) (reached : String → Prop)
    (goesOn : ∀ source target, reached source → grammar.Leads source target → reached target)
    (begins : ∀ target rest, .nonterminal target :: rest ∈ rewrite → reached target) :
    ∀ target rest, .nonterminal target :: rest ∈ (unfold grammar sources rewrite).rewrite →
      reached target := by
  apply unfold_induction grammar sources rewrite fun target =>
    ∀ first rest, .nonterminal first :: rest ∈ target → reached first
  · exact begins
  · rintro source - target begins first rest member
    rcases (mem_substitute_iff _ _ _ _).mp member with
      ⟨old, _⟩ | ⟨expansion, fromSource, tail, leads, joined⟩
    · exact begins first rest old
    · cases expansion with
      | nil => exact absurd fromSource (nonempty source)
      | cons head later =>
          obtain ⟨rfl, _⟩ := List.cons.inj joined
          exact goesOn source first (begins source tail leads) ⟨later, fromSource⟩

namespace Progress

section Confined

variable {origin : Grammar} {progress next : Progress} {name : String}

/-- What holds of a state when the run started from a grammar without left
recursion: the same names, and no ways but those that there were. -/
structure Confined (origin : Grammar) (progress : Progress) : Prop where
  nonempty : ∀ name, [] ∉ progress.grammar.alternatives name
  names : progress.grammar.rules.keys = origin.rules.keys
  generated : progress.grammar.generated = origin.generated
  leads : ∀ name target, progress.grammar.Leads name target →
    Relation.TransGen origin.Leads name target

theorem start_confined (grammar : Grammar) (nonempty : ∀ name, [] ∉ grammar.alternatives name) :
    Confined grammar (start grammar) where
  nonempty := nonempty
  names := rfl
  generated := rfl
  leads _ _ step := .single step

theorem Confined.acyclic (confined : Confined origin progress)
    (acyclic : ∀ name, ¬ Relation.TransGen origin.Leads name name) (name : String) :
    ¬ Relation.TransGen progress.grammar.Leads name name :=
  fun cycle => acyclic name (Relation.TransGen.closed confined.leads _ _ cycle)

theorem Confined.begins_unfolded (confined : Confined origin progress) (name : String) :
    ∀ target rest, .nonterminal target :: rest ∈ progress.unfolded name →
      Relation.TransGen progress.grammar.Leads name target := by
  apply begins_unfold progress.grammar confined.nonempty
  · exact fun _ _ path step => path.tail step
  · exact fun _ rest member => .single ⟨rest, member⟩

theorem Confined.not_recursive (confined : Confined origin progress)
    (acyclic : ∀ name, ¬ Relation.TransGen origin.Leads name name) (name : String) :
    isLeftRecursive name (progress.unfolded name) = false := by
  rw [Bool.eq_false_iff]
  intro recursive
  obtain ⟨rest, member⟩ := (isLeftRecursive_iff _ _).mp recursive
  exact confined.acyclic acyclic name (confined.begins_unfolded name name rest member)

theorem Confined.others_eq (confined : Confined origin progress)
    (acyclic : ∀ name, ¬ Relation.TransGen origin.Leads name name) (name : String) :
    (progress.split name).others = progress.unfolded name :=
  Split.others_of_free name _ (confined.not_recursive acyclic name)

theorem Confined.kept (confined : Confined origin progress)
    (acyclic : ∀ name, ¬ Relation.TransGen origin.Leads name name)
    (defined : progress.grammar.defines name = true) : Confined origin (progress.kept name) where
  nonempty :=
    have noTails : (progress.split name).tails = [] :=
      Split.tails_of_free name _ (confined.not_recursive acyclic name)
    (Step.kept defined noTails).nonempty confined.nonempty
  names := by
    rw [← confined.names]
    apply (NameMap.keys_ascending _).eq_of_mem_iff (NameMap.keys_ascending _)
    intro other
    rw [NameMap.mem_keys_iff, NameMap.mem_keys_iff]
    refine (defines_kept_iff progress name other).trans ⟨?_, Or.inr⟩
    rintro (rfl | known)
    · exact defined
    · exact known
  generated := confined.generated
  leads other target := by
    rintro ⟨rest, member⟩
    rw [alternatives_kept] at member
    split at member
    · next same =>
        subst same
        rw [confined.others_eq acyclic] at member
        exact Relation.TransGen.closed confined.leads _ _
          (confined.begins_unfolded other target rest member)
    · exact confined.leads other target ⟨rest, member⟩

theorem Confined.step (confined : Confined origin progress)
    (acyclic : ∀ name, ¬ Relation.TransGen origin.Leads name name)
    (step : Step progress name next) : Confined origin next := by
  cases step with
  | kept defined => exact confined.kept acyclic defined
  | moved _ _ tails =>
      exact absurd (Split.tails_of_free name _ (confined.not_recursive acyclic name)) tails

theorem Reached.confined {ordering remaining : List String}
    (reached : Reached (.start origin) ordering progress remaining)
    (nonempty : ∀ name, [] ∉ origin.alternatives name)
    (acyclic : ∀ name, ¬ Relation.TransGen origin.Leads name name) :
    Confined origin progress :=
  reached.invariant (fun progress _ => Confined origin progress) (start_confined origin nonempty)
    fun _ _ _ _ _ confined step => confined.step acyclic step

end Confined

end Progress

namespace Grammar

section Acyclic

theorem ok_of_acyclic (grammar : Grammar) (ordering : List String)
    (nonempty : ∀ name, [] ∉ grammar.alternatives name) (closed : grammar.Closed)
    (acyclic : ∀ name, ¬ Relation.TransGen grammar.Leads name name)
    (listed : ∀ name ∈ ordering, grammar.defines name = true) :
    ∃ last, (grammar.removeInOrder ordering).result = .ok last.grammar ∧
      Progress.Reached (.start grammar) ordering last [] ∧ Progress.Confined grammar last := by
  have proceeds : ∀ progress name rest,
      Progress.Reached (.start grammar) ordering progress (name :: rest) →
        ∃ next, (progress.step name).result = .ok next := by
    intro progress name rest reached
    have confined := reached.confined nonempty acyclic
    have inOrdering := reached.remaining_suffix.subset List.mem_cons_self
    have defined := reached.defines name (listed name inOrdering)
    have noTails : (progress.split name).tails = [] :=
      Split.tails_of_free name _ (confined.not_recursive acyclic name)
    refine ⟨progress.kept name, ?_⟩
    rw [Progress.result_step_of_defined _ _ defined, if_pos noTails]
  obtain ⟨last, ran⟩ := Progress.Reached.start.completes proceeds
  have reached := Progress.Reached.start.finish ran
  refine ⟨last, ?_, reached, reached.confined nonempty acyclic⟩
  rw [result_removeInOrder, (verify_ok_iff grammar).mpr closed, ran]
  rfl

/-- Over any ordering of names with rules, a run of a grammar without left
recursion ends well, finds none on the way, makes up no name and brings none in. -/
theorem no_names_without_left_recursion (grammar : Grammar) (ordering : List String)
    (nonempty : ∀ name, [] ∉ grammar.alternatives name) (closed : grammar.Closed)
    (acyclic : ∀ name, ¬ Relation.TransGen grammar.Leads name name)
    (listed : ∀ name ∈ ordering, grammar.defines name = true) :
    (∃ result, (grammar.removeInOrder ordering).result = .ok result ∧
      result.rules.keys = grammar.rules.keys ∧ result.generated = grammar.generated ∧
      ∀ name, ¬ Relation.TransGen result.Leads name name) ∧
    ∀ progress name rest, Progress.Reached (.start grammar) ordering progress (name :: rest) →
      eliminate progress.supply name (progress.unfolded name) = .done (none, progress.supply) := by
  constructor
  · obtain ⟨last, done, _, confined⟩ :=
      grammar.ok_of_acyclic ordering nonempty closed acyclic listed
    exact ⟨last.grammar, done, confined.names, confined.generated, confined.acyclic acyclic⟩
  · intro progress name rest reached
    have confined := reached.confined nonempty acyclic
    exact eliminate_of_not_recursive _ _ _ (confined.not_recursive acyclic name)

def chained : Grammar :=
  (((empty "S").insert "S" [[.nonterminal "A", .terminal "a"], [.terminal "b"]]).insert "A"
    [[.nonterminal "B", .terminal "c"]]).insertGenerated "B" [[.terminal "d"]]

def unchained : Grammar :=
  (chained.insert "S" [[.terminal "d", .terminal "c", .terminal "a"], [.terminal "b"]]).insert "A"
    [[.terminal "d", .terminal "c"]]

theorem chained_leads (name target : String) (leads : chained.Leads name target) :
    (name = "S" ∧ target = "A") ∨ (name = "A" ∧ target = "B") := by
  obtain ⟨rest, member⟩ := leads
  have each : ∀ origin ∈ chained.rules.keys, ∀ production ∈ chained.alternatives origin,
      ∀ symbol ∈ production.head?, symbol.isNonterminal = true →
        (origin = "S" ∧ symbol = .nonterminal "A") ∨
          (origin = "A" ∧ symbol = .nonterminal "B") := by
    decide
  simpa using each name (chained.mem_keys_of_mem name _ member) _ member (.nonterminal target) rfl
    rfl

theorem no_names_without_left_recursion_chained :
    (chained.removeInOrder ["B", "A", "S", "A"]).result = .ok unchained ∧
      unchained.rules.keys = chained.rules.keys ∧ unchained.generated = chained.generated ∧
      ¬ Relation.TransGen unchained.Leads "S" "S" := by
  have nonempty : ∀ name, [] ∉ chained.alternatives name := fun name member =>
    chained.forall_of_keys (fun _ production => production ≠ []) (by decide) name [] member rfl
  have closed : chained.Closed := by
    rw [← undefinedNames_eq_nil_iff]
    decide
  have acyclic : ∀ name, ¬ Relation.TransGen chained.Leads name name := by
    apply acyclic_of_eachBefore chained.Leads ["S", "A", "B"]
    · intro name target leads
      rcases chained_leads name target leads with ⟨rfl, _⟩ | ⟨rfl, _⟩ <;> decide
    · refine ⟨?_, ?_, ?_, trivial⟩ <;> intro target leads <;>
        rcases chained_leads _ target leads with ⟨same, rfl⟩ | ⟨same, rfl⟩ <;>
        revert same <;> decide
  have listed : ∀ name ∈ ["B", "A", "S", "A"], chained.defines name = true := by decide
  obtain ⟨⟨result, ran, names, generated, free⟩, _⟩ :=
    no_names_without_left_recursion chained ["B", "A", "S", "A"] nonempty closed acyclic listed
  have done : (chained.removeInOrder ["B", "A", "S", "A"]).result = .ok unchained := by decide
  obtain rfl : result = unchained := Except.ok.inj (ran.symm.trans done)
  exact ⟨done, names, generated, free "S"⟩

end Acyclic

end Grammar

end LeftRecursion
