import LeftRecursion.Proofs.Given
import LeftRecursion.Proofs.Preservation

/-!
The order that a run establishes. Of a grammar as it is read, and over an
ordering of all its names, the processed nonterminals lead only to later ones of
the ordering, and an auxiliary is made of symbols that are older than it. Nothing
changes an auxiliary or a processed nonterminal afterwards, so in the end no name
leads back to itself.
-/

namespace LeftRecursion

section Carrying

/-- The shape of the alternatives of an auxiliary: the empty string, or a tail of
known names and terminals with the auxiliary itself after it. -/
def Carries (name : String) (known : List String) (production : Production) : Prop :=
  production = epsilon ∨
    ∃ tail, tail ≠ [] ∧ production = tail ++ [.nonterminal name] ∧
      ∀ reference, .nonterminal reference ∈ tail → reference ∈ known

theorem Carries.beginsAmong {name : String} {known : List String} {production : Production}
    (carries : Carries name known production) : BeginsAmong known production := by
  rcases carries with rfl | ⟨tail, nonempty, rfl, names⟩
  · trivial
  · match tail, nonempty with
    | .terminal _ :: _, _ => trivial
    | .nonterminal first :: _, _ => exact names first List.mem_cons_self

end Carrying

namespace Progress

/-- What holds of a state with `remaining` still to be processed, when the names
that were made up so far are `made`, the newest first. -/
structure Ordered (ordering : List String) (progress : Progress) (remaining made : List String) :
    Prop where
  tidy : progress.Tidy
  nodup : ordering.Nodup
  processed : ordering = progress.processed ++ remaining
  known : ∀ name, progress.grammar.defines name = true ↔ name ∈ made ++ ordering
  generated : ∀ name, progress.grammar.isGenerated name = true → name ∈ made
  disjoint : ∀ name ∈ made, name ∉ ordering
  waiting : ∀ name ∈ remaining, ∀ production ∈ progress.grammar.alternatives name,
    BeginsAmong ordering production
  triangular : EachBefore (fun name later => ∀ production ∈ progress.grammar.alternatives name,
    BeginsAmong (later ++ remaining) production) progress.processed
  layered : EachBefore (fun name older => ∀ production ∈ progress.grammar.alternatives name,
    Carries name (older ++ ordering) production) made

section Invariant

variable {progress next : Progress} {name : String} {ordering rest made : List String}

theorem start_ordered (grammar : Grammar) (given : grammar.IsGiven) (closed : grammar.Closed)
    (lists : grammar.ListsOnce ordering) : Ordered ordering (start grammar) ordering [] where
  tidy := start_tidy grammar closed
  nodup := lists.nodup
  processed := rfl
  known other := (lists.listed other).symm
  generated other made := by
    have none := given.noGenerated other
    rw [show grammar.isGenerated other = true from made] at none
    cases none
  disjoint _ member := absurd member List.not_mem_nil
  waiting other _ := grammar.beginsAmong_of_closed given closed ordering lists other
  triangular := trivial
  layered := trivial

theorem Ordered.defined (ordered : Ordered ordering progress (name :: rest) made) :
    progress.grammar.defines name = true := by
  rw [ordered.known, ordered.processed]
  simp

theorem Ordered.beginsAmong_others (ordered : Ordered ordering progress (name :: rest) made) :
    ∀ production ∈ (progress.split name).others, BeginsAmong rest production := by
  intro production member
  obtain ⟨inUnfolded, other⟩ := (Split.mem_others_iff _ _ _).mp member
  have unfolded : BeginsAmong (name :: rest) production := by
    apply beginsAmong_unfold progress.grammar progress.processed (name :: rest) _ _
      ordered.triangular production inUnfolded
    rw [← ordered.processed]
    exact ordered.waiting name List.mem_cons_self
  exact beginsAmong_of_not_beginsWith name rest production unfolded other

theorem Ordered.beginsAmong_bases (ordered : Ordered ordering progress (name :: rest) made) :
    ∀ production ∈ (progress.split name).bases, BeginsAmong rest production := by
  intro production member
  rcases Split.mem_others_or_eq_epsilon _ _ member with inOthers | rfl
  · exact ordered.beginsAmong_others production inOthers
  · trivial

theorem Ordered.carries_auxiliaryRewrite (ordered : Ordered ordering progress (name :: rest) made)
    (auxiliary : String) :
    ∀ production ∈ (progress.split name).auxiliaryRewrite auxiliary,
      Carries auxiliary (made ++ ordering) production := by
  intro production member
  rcases (Split.mem_auxiliaryRewrite_iff _ _ _).mp member with ⟨tail, inTails, rfl⟩ | rfl
  · refine Or.inr ⟨tail, ((Split.mem_tails_iff _ _ _).mp inTails).2, rfl, ?_⟩
    intro reference occurs
    have old := progress.occurs_of_mem_tails name tail inTails _ occurs
    exact (ordered.known reference).mp (ordered.tidy.defines_of_occurs reference old)
  · exact Or.inl rfl

theorem Ordered.same_alternatives (ordered : Ordered ordering progress (name :: rest) made)
    (step : Step progress name next) (other : String) (different : other ≠ name)
    (member : other ∈ made ++ ordering) :
    next.grammar.alternatives other = progress.grammar.alternatives other :=
  step.alternatives_ne ordered.tidy other different ((ordered.known other).mpr member)

theorem Ordered.ne_of_mem_processed (ordered : Ordered ordering progress (name :: rest) made)
    (other : String) (member : other ∈ progress.processed) : other ≠ name := by
  rintro rfl
  have nodup := ordered.nodup
  rw [ordered.processed, List.nodup_append] at nodup
  exact nodup.2.2 other member other List.mem_cons_self rfl

theorem Ordered.ne_of_mem_rest (ordered : Ordered ordering progress (name :: rest) made)
    (other : String) (member : other ∈ rest) : other ≠ name := by
  rintro rfl
  have nodup := ordered.nodup
  rw [ordered.processed, List.nodup_append] at nodup
  exact (List.nodup_cons.mp nodup.2.1).1 member

theorem Ordered.mem_ordering (ordered : Ordered ordering progress (name :: rest) made) :
    name ∈ ordering := by
  rw [ordered.processed]
  simp

theorem Ordered.ne_of_mem_made (ordered : Ordered ordering progress (name :: rest) made)
    (other : String) (member : other ∈ made) : other ≠ name := by
  rintro rfl
  exact ordered.disjoint other member ordered.mem_ordering

theorem Ordered.beginsAmong_step (ordered : Ordered ordering progress (name :: rest) made)
    (step : Step progress name next) :
    ∀ production ∈ next.grammar.alternatives name, BeginsAmong rest production := by
  intro production member
  cases step with
  | kept =>
      rw [alternatives_kept, if_pos rfl] at member
      exact ordered.beginsAmong_others production member
  | moved auxiliary defined _ unused =>
      rw [alternatives_moved, if_neg (ordered.tidy.fresh_ne auxiliary unused name defined),
        if_pos rfl] at member
      obtain ⟨base, inBases, rfl⟩ := (Split.mem_baseRewrite_iff _ _ _).mp member
      exact beginsAmong_append rest base _ (ordered.beginsAmong_bases base inBases)

theorem Ordered.waiting_step (ordered : Ordered ordering progress (name :: rest) made)
    (step : Step progress name next) :
    ∀ other ∈ rest, ∀ production ∈ next.grammar.alternatives other,
      BeginsAmong ordering production := by
  intro other member production
  have inOrdering : other ∈ ordering := by
    rw [ordered.processed]
    simp [member]
  rw [ordered.same_alternatives step other (ordered.ne_of_mem_rest other member)
    (List.mem_append_right made inOrdering)]
  exact ordered.waiting other (List.mem_cons_of_mem name member) production

-- What stood before the name still leads only past itself, now also past the name.
theorem Ordered.triangular_step (ordered : Ordered ordering progress (name :: rest) made)
    (step : Step progress name next) :
    EachBefore (fun other later => ∀ production ∈ next.grammar.alternatives other,
      BeginsAmong (later ++ rest) production) next.processed := by
  rw [step.processed, eachBefore_append_iff]
  constructor
  · apply ordered.triangular.imp
    intro other member later before production
    have inOrdering : other ∈ ordering := by
      rw [ordered.processed]
      exact List.mem_append_left _ member
    rw [ordered.same_alternatives step other (ordered.ne_of_mem_processed other member)
      (List.mem_append_right made inOrdering), List.append_assoc]
    exact before production
  · exact ⟨ordered.beginsAmong_step step, trivial⟩

theorem Ordered.layered_step (ordered : Ordered ordering progress (name :: rest) made)
    (step : Step progress name next) :
    EachBefore (fun other older => ∀ production ∈ next.grammar.alternatives other,
      Carries other (older ++ ordering) production) made := by
  apply ordered.layered.imp
  intro other member older before production
  rw [ordered.same_alternatives step other (ordered.ne_of_mem_made other member)
    (List.mem_append_left ordering member)]
  exact before production

theorem Ordered.processed_step (ordered : Ordered ordering progress (name :: rest) made)
    (step : Step progress name next) : ordering = next.processed ++ rest := by
  rw [step.processed, ordered.processed]
  simp

theorem Ordered.kept (ordered : Ordered ordering progress (name :: rest) made)
    (step : Step progress name (progress.kept name)) :
    Ordered ordering (progress.kept name) rest made where
  tidy := step.tidy ordered.tidy
  nodup := ordered.nodup
  processed := ordered.processed_step step
  known other := by
    rw [defines_kept_iff, ← ordered.known]
    constructor
    · rintro (rfl | known)
      · exact ordered.defined
      · exact known
    · exact Or.inr
  generated := ordered.generated
  disjoint := ordered.disjoint
  waiting := ordered.waiting_step step
  triangular := ordered.triangular_step step
  layered := ordered.layered_step step

theorem Ordered.moved (ordered : Ordered ordering progress (name :: rest) made)
    (auxiliary : String) (step : Step progress name (progress.moved name auxiliary))
    (unused : progress.supply.next? = some auxiliary) :
    Ordered ordering (progress.moved name auxiliary) rest (auxiliary :: made) where
  tidy := step.tidy ordered.tidy
  nodup := ordered.nodup
  processed := ordered.processed_step step
  known other := by
    rw [defines_moved_iff, List.cons_append, List.mem_cons, ← ordered.known]
    constructor
    · rintro (new | rfl | known)
      · exact Or.inl new
      · exact Or.inr ordered.defined
      · exact Or.inr known
    · rintro (new | known)
      · exact Or.inl new
      · exact Or.inr (Or.inr known)
  generated other marked := by
    rw [isGenerated_moved, Bool.or_eq_true, beq_iff_eq] at marked
    rcases marked with rfl | before
    · exact List.mem_cons_self
    · exact List.mem_cons_of_mem auxiliary (ordered.generated other before)
  disjoint other member := by
    rcases List.mem_cons.mp member with rfl | before
    · intro inOrdering
      have defined := (ordered.known other).mpr (List.mem_append_right made inOrdering)
      exact ordered.tidy.fresh_ne other unused other defined rfl
    · exact ordered.disjoint other before
  waiting := ordered.waiting_step step
  triangular := ordered.triangular_step step
  layered := by
    refine ⟨?_, ordered.layered_step step⟩
    intro production member
    rw [alternatives_moved, if_pos rfl] at member
    exact ordered.carries_auxiliaryRewrite auxiliary production member

theorem Ordered.step (ordered : Ordered ordering progress (name :: rest) made)
    (step : Step progress name next) : ∃ made, Ordered ordering next rest made := by
  cases step with
  | kept defined noTails => exact ⟨made, ordered.kept (.kept defined noTails)⟩
  | moved auxiliary defined tails unused =>
      have step := Step.moved auxiliary defined tails unused
      exact ⟨auxiliary :: made, ordered.moved auxiliary step unused⟩

theorem Reached.ordered {first : Progress} {remaining : List String}
    (reached : Reached first ordering progress remaining)
    (initial : Ordered ordering first ordering []) :
    ∃ made, Ordered ordering progress remaining made := by
  apply reached.invariant fun progress remaining => ∃ made, Ordered ordering progress remaining made
  · exact ⟨[], initial⟩
  · rintro progress name rest next - ⟨made, ordered⟩ step
    exact ordered.step step

end Invariant

end Progress

namespace Grammar

section Freedom

variable {last : Progress} {ordering made : List String}

theorem eachBefore_beginsAmong (ordered : Progress.Ordered ordering last [] made) :
    EachBefore (fun name later => ∀ production ∈ last.grammar.alternatives name,
      BeginsAmong later production) ordering := by
  have processed := ordered.processed
  rw [List.append_nil] at processed
  have triangular := ordered.triangular
  rw [← processed] at triangular
  simpa only [List.append_nil] using triangular

theorem eachBefore_leads (ordered : Progress.Ordered ordering last [] made) :
    EachBefore (fun name later => ∀ target, last.grammar.Leads name target → target ∈ later)
      (made ++ ordering) := by
  rw [eachBefore_append_iff]
  constructor
  · apply ordered.layered.imp
    rintro name - older carries target ⟨rest, member⟩
    exact (carries _ member).beginsAmong
  · apply (eachBefore_beginsAmong ordered).imp
    rintro name - later begins target ⟨rest, member⟩
    exact begins _ member

theorem mem_of_leads (ordered : Progress.Ordered ordering last [] made) (name target : String)
    (leads : last.grammar.Leads name target) : name ∈ made ++ ordering := by
  obtain ⟨rest, member⟩ := leads
  exact (ordered.known name).mp (last.grammar.defines_of_mem name _ member)

theorem acyclic_of_ok (grammar result : Grammar) (ordering : List String)
    (given : grammar.IsGiven) (lists : grammar.ListsOnce ordering)
    (done : (grammar.removeInOrder ordering).result = .ok result) (name : String) :
    ¬ Relation.TransGen result.Leads name name := by
  obtain ⟨closed, last, reached, rfl⟩ := grammar.reached_of_ok result ordering done
  obtain ⟨made, ordered⟩ := reached.ordered (Progress.start_ordered grammar given closed lists)
  exact acyclic_of_eachBefore _ _ (mem_of_leads ordered) (eachBefore_leads ordered) name

theorem beginsAmong_drop (ordered : Progress.Ordered ordering last [] made) (index : Nat)
    (inside : index < ordering.length) :
    ∀ production ∈ last.grammar.alternatives ordering[index],
      BeginsAmong (ordering.drop (index + 1)) production :=
  (eachBefore_beginsAmong ordered).get index inside

theorem beginsWith_of_beginsAmong (names : List String) (production : Production)
    (begins : BeginsAmong names production) :
    (∃ text rest, production = .terminal text :: rest) ∨
      ∃ name ∈ names, beginsWith name production = true := by
  match production, begins with
  | .terminal text :: rest, _ => exact Or.inl ⟨text, rest, rfl⟩
  | .nonterminal name :: rest, member =>
      exact Or.inr ⟨name, member, (beginsWith_iff _ _).mpr ⟨rest, rfl⟩⟩

theorem mem_of_beginsAmong (names : List String) (production : Production)
    (begins : BeginsAmong names production) (name : String)
    (leads : beginsWith name production = true) : name ∈ names := by
  obtain ⟨rest, rfl⟩ := (beginsWith_iff name production).mp leads
  exact begins

/-- A run over all nonterminals of a grammar as it is read leaves no left
recursion, direct or through others: the nonterminals lead to later ones of the
ordering only, and not even the auxiliaries lead back to themselves. -/
theorem no_left_recursion (grammar result : Grammar) (ordering : List String)
    (given : grammar.IsGiven) (lists : grammar.ListsOnce ordering)
    (done : (grammar.removeInOrder ordering).result = .ok result) :
    (∀ name, ¬ Relation.TransGen result.Leads name name) ∧
    ∀ index (inside : index < ordering.length),
      ∀ production ∈ result.alternatives ordering[index],
        ((∃ text rest, production = .terminal text :: rest) ∨
          ∃ later, ∃ (bound : later < ordering.length),
            index < later ∧ beginsWith ordering[later] production = true) ∧
        (∀ earlier (bound : earlier < ordering.length), earlier ≤ index →
          beginsWith ordering[earlier] production = false) ∧
        ∀ name, result.isGenerated name = true → beginsWith name production = false := by
  obtain ⟨closed, last, reached, rfl⟩ := grammar.reached_of_ok result ordering done
  obtain ⟨made, ordered⟩ := reached.ordered (Progress.start_ordered grammar given closed lists)
  constructor
  · exact acyclic_of_eachBefore _ _ (mem_of_leads ordered) (eachBefore_leads ordered)
  · intro index inside production member
    have begins := beginsAmong_drop ordered index inside production member
    refine ⟨?_, ?_, ?_⟩
    · rcases beginsWith_of_beginsAmong _ _ begins with terminal | ⟨name, dropped, leads⟩
      · exact Or.inl terminal
      · obtain ⟨offset, bound, rfl⟩ := List.mem_iff_getElem.mp dropped
        rw [List.length_drop] at bound
        rw [List.getElem_drop] at leads
        exact Or.inr ⟨index + 1 + offset, by omega, by omega, leads⟩
    · intro earlier bound notLater
      rw [Bool.eq_false_iff]
      intro leads
      have dropped := mem_of_beginsAmong _ _ begins _ leads
      obtain ⟨offset, inDrop, same⟩ := List.mem_iff_getElem.mp dropped
      rw [List.length_drop] at inDrop
      rw [List.getElem_drop] at same
      have equal := (lists.nodup.getElem_inj_iff).mp same
      omega
    · intro name generated
      rw [Bool.eq_false_iff]
      intro leads
      have dropped := mem_of_beginsAmong _ _ begins _ leads
      exact ordered.disjoint name (ordered.generated name generated) (List.mem_of_mem_drop dropped)

theorem no_left_recursion_entangled :
    entangled.IsGiven ∧ entangled.ListsOnce ["S", "A"] ∧
      (entangled.removeInOrder ["S", "A"]).result = .ok disentangled ∧
      ¬ Relation.TransGen disentangled.Leads "Z" "Z" ∧
      ∀ production ∈ disentangled.alternatives "A", beginsWith "S" production = false := by
  have read : (Reading.ofLines "S" ["S -> Aa b", "A -> Ac Sd f"]).grammar = entangled := by decide
  have given : entangled.IsGiven := by
    rw [← read]
    exact Reading.isGiven_ofNumbered "S" {} _
  have ordering : entangled.ordering = ["S", "A"] := by decide
  have lists : entangled.ListsOnce ["S", "A"] := by
    rw [← ordering]
    exact entangled.ordering_listsOnce given
  have done : (entangled.removeInOrder ["S", "A"]).result = .ok disentangled := by decide
  have free := no_left_recursion entangled disentangled ["S", "A"] given lists done
  exact ⟨given, lists, done, free.1 "Z", fun production member =>
    (free.2 1 (by decide) production member).2.1 0 (by decide) (by decide)⟩

end Freedom

end Grammar

end LeftRecursion
