import LeftRecursion.Proofs.Steps

/-!
What alternatives begin with. In a grammar that is read, whose alternatives all
have symbols, a run over all nonterminals leaves each of them with alternatives
that begin with a terminal or with a nonterminal that is processed later. An
auxiliary may begin with any of them and with the auxiliaries before it. So with
the newest auxiliary first, and the nonterminals in their order after all
auxiliaries, each name leads only to names that stand after it.
-/

namespace LeftRecursion

section Ranking

variable {α : Type}

/-- Whether each member of a list is good with regard to those after it. -/
def EachBefore (good : α → List α → Prop) : List α → Prop
  | [] => True
  | first :: later => good first later ∧ EachBefore good later

theorem EachBefore.imp {good better : α → List α → Prop} {list : List α}
    (each : EachBefore good list)
    (improves : ∀ member ∈ list, ∀ later, good member later → better member later) :
    EachBefore better list := by
  induction list with
  | nil => trivial
  | cons first rest ih =>
      refine ⟨improves first List.mem_cons_self rest each.1, ih each.2 ?_⟩
      intro member inRest
      exact improves member (List.mem_cons_of_mem first inRest)

theorem eachBefore_append_iff (good : α → List α → Prop) (front back : List α) :
    EachBefore good (front ++ back) ↔
      EachBefore (fun member later => good member (later ++ back)) front ∧
        EachBefore good back := by
  induction front with
  | nil => exact ⟨fun each => ⟨trivial, each⟩, fun each => each.2⟩
  | cons first rest ih =>
      rw [List.cons_append]
      simp only [EachBefore, ih, and_assoc]

theorem EachBefore.get {good : α → List α → Prop} {list : List α}
    (each : EachBefore good list) (index : Nat) (inside : index < list.length) :
    good list[index] (list.drop (index + 1)) := by
  induction list generalizing index with
  | nil => simp at inside
  | cons first rest ih =>
      cases index with
      | zero => exact each.1
      | succ index => exact ih each.2 index (by simpa using inside)

-- The last member has nowhere to go, so by induction from the end every path ends.
theorem acc_of_eachBefore (related : α → α → Prop) (list : List α)
    (each : EachBefore (fun member later => ∀ target, related member target → target ∈ later)
      list) :
    ∀ member ∈ list, Acc (fun target source => related source target) member := by
  induction list with
  | nil => exact fun _ member => absurd member List.not_mem_nil
  | cons first rest ih =>
      have later := ih each.2
      intro member inList
      rcases List.mem_cons.mp inList with rfl | inRest
      · exact .intro _ fun target step => later target (each.1 target step)
      · exact later member inRest

theorem acyclic_of_eachBefore (related : α → α → Prop) (list : List α)
    (listed : ∀ source target, related source target → source ∈ list)
    (each : EachBefore (fun member later => ∀ target, related member target → target ∈ later) list)
    (member : α) : ¬ Relation.TransGen related member member := by
  have wellFounded : WellFounded fun target source => related source target := by
    refine ⟨fun start => .intro _ fun target step => ?_⟩
    have ended := acc_of_eachBefore related list each start (listed start target step)
    exact ended.inv step
  intro cycle
  have backwards : Relation.TransGen (fun target source => related source target) member member :=
    Relation.transGen_swap.mpr cycle
  exact wellFounded.transGen.asymmetric member member backwards backwards

end Ranking

section Beginnings

def BeginsAmong (names : List String) : Production → Prop
  | [] => False
  | .terminal _ :: _ => True
  | .nonterminal name :: _ => name ∈ names

theorem beginsAmong_append (names : List String) (front back : Production)
    (begins : BeginsAmong names front) : BeginsAmong names (front ++ back) := by
  cases front with
  | nil => exact False.elim begins
  | cons symbol rest => cases symbol <;> exact begins

theorem BeginsAmong.mono {names wider : List String} {production : Production}
    (begins : BeginsAmong names production) (included : ∀ name ∈ names, name ∈ wider) :
    BeginsAmong wider production := by
  match production, begins with
  | .terminal _ :: _, _ => trivial
  | .nonterminal name :: _, member => exact included name member

theorem beginsAmong_of_not_beginsWith (first : String) (names : List String)
    (production : Production) (begins : BeginsAmong (first :: names) production)
    (other : beginsWith first production = false) : BeginsAmong names production := by
  match production, begins with
  | .terminal _ :: _, _ => trivial
  | .nonterminal name :: rest, member =>
      rcases List.mem_cons.mp member with rfl | later
      · have leads := (beginsWith_iff name (.nonterminal name :: rest)).mpr ⟨rest, rfl⟩
        rw [leads] at other
        cases other
      · exact later

theorem beginsAmong_substitute (source : String) (expansions target : Rewrite)
    (names : List String) (given : ∀ production ∈ target, BeginsAmong (source :: names) production)
    (expanded : ∀ expansion ∈ expansions, BeginsAmong names expansion) :
    ∀ production ∈ substitute source expansions target, BeginsAmong names production := by
  intro production member
  rcases (mem_substitute_iff _ _ _ _).mp member with
    ⟨old, other⟩ | ⟨expansion, fromSource, rest, _, rfl⟩
  · exact beginsAmong_of_not_beginsWith source names production (given production old) other
  · exact beginsAmong_append names expansion rest (expanded expansion fromSource)

/-- Sources that are ranked unfold to what comes after all of them: what a source
puts in front is dealt with by the sources after it. -/
theorem beginsAmong_unfold (grammar : Grammar) (sources names : List String) (rewrite : Rewrite)
    (given : ∀ production ∈ rewrite, BeginsAmong (sources ++ names) production)
    (ranked : EachBefore (fun source later => ∀ production ∈ grammar.alternatives source,
      BeginsAmong (later ++ names) production) sources) :
    ∀ production ∈ (unfold grammar sources rewrite).rewrite, BeginsAmong names production := by
  rw [unfold_rewrite]
  induction sources generalizing rewrite with
  | nil => exact given
  | cons source later ih =>
      apply ih
      · exact beginsAmong_substitute source _ rewrite (later ++ names) given ranked.1
      · exact ranked.2

end Beginnings

namespace Grammar

section Leading

/-- One nonterminal leads to another if an alternative of it begins with that one. -/
def Leads (grammar : Grammar) (name target : String) : Prop :=
  ∃ rest, .nonterminal target :: rest ∈ grammar.alternatives name

/-- Whether nothing is made up and every alternative has symbols, as in every
grammar that is read from lines. -/
structure IsGiven (grammar : Grammar) : Prop where
  noGenerated : ∀ name, grammar.isGenerated name = false
  nonempty : ∀ name, [] ∉ grammar.alternatives name

theorem IsGiven.marked {grammar : Grammar} (given : grammar.IsGiven) (name : String)
    (made : grammar.isGenerated name = true) : grammar.defines name = true := by
  rw [given.noGenerated name] at made
  cases made

/-- Whether an ordering lists every name with a rule, and no other, exactly once. -/
structure ListsOnce (grammar : Grammar) (ordering : List String) : Prop where
  nodup : ordering.Nodup
  listed : ∀ name, name ∈ ordering ↔ grammar.defines name = true

theorem ordering_listsOnce (grammar : Grammar) (given : grammar.IsGiven) :
    grammar.ListsOnce grammar.ordering := by
  refine ⟨grammar.ordering_nodup, fun name => ?_⟩
  rw [mem_ordering_iff]
  exact ⟨fun both => both.1, fun defined => ⟨defined, given.noGenerated name⟩⟩

theorem beginsAmong_of_closed (grammar : Grammar) (given : grammar.IsGiven)
    (closed : grammar.Closed) (ordering : List String) (lists : grammar.ListsOnce ordering)
    (name : String) (production : Production) (member : production ∈ grammar.alternatives name) :
    BeginsAmong ordering production := by
  match production, member with
  | [], member => exact absurd member (given.nonempty name)
  | .terminal _ :: _, _ => trivial
  | .nonterminal target :: rest, member =>
      apply (lists.listed target).mpr
      exact closed name _ member target ((mem_namesIn_iff _ _).mpr List.mem_cons_self)

end Leading

end Grammar

end LeftRecursion
