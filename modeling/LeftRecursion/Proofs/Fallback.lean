import LeftRecursion.Proofs.Noted

/-!
The fallback of a run: a nonterminal of which every unfolded alternative begins
with itself, and one of them goes on after that, is given the empty string as the
alternative that it lacks. A run warns of exactly the names for which it does so,
whether it ends well or not.
-/

namespace LeftRecursion

namespace Progress

theorem emptyStringAssumed_mem_step_iff (progress : Progress) (name other : String) :
    .emptyStringAssumed other ∈ (progress.step name).events ↔
      other = name ∧ (progress.split name).assumesEmptyString = true := by
  simp [mem_events_step_iff, and_comm]

section Events

variable {first progress : Progress} {ordering remaining : List String}

theorem mem_events_run_cons (progress : Progress) (name : String) (rest : List String)
    (event : Event) :
    event ∈ (progress.run (name :: rest)).events ↔
      event ∈ (progress.step name).events ∨
        ∃ next, (progress.step name).result = .ok next ∧ event ∈ (next.run rest).events :=
  Logged.mem_events_andThen _ _ _

theorem Reached.mem_events_of_run (reached : Reached first ordering progress remaining)
    (event : Event) (noted : event ∈ (progress.run remaining).events) :
    event ∈ (first.run ordering).events := by
  induction reached with
  | start => exact noted
  | step _ done ih =>
      exact ih ((mem_events_run_cons _ _ _ _).mpr (Or.inr ⟨_, done, noted⟩))

theorem Reached.exists_step (reached : Reached first ordering progress remaining)
    (event : Event) (noted : event ∈ (progress.run remaining).events) :
    ∃ state name rest, Reached first ordering state (name :: rest) ∧
      event ∈ (state.step name).events := by
  induction remaining generalizing progress with
  | nil => cases noted
  | cons name rest ih =>
      rcases (mem_events_run_cons _ _ _ _).mp noted with here | ⟨next, done, later⟩
      · exact ⟨progress, name, rest, reached, here⟩
      · exact ih (.step reached done) later

theorem mem_events_run_iff (first : Progress) (ordering : List String) (event : Event) :
    event ∈ (first.run ordering).events ↔
      ∃ progress name rest, Reached first ordering progress (name :: rest) ∧
        event ∈ (progress.step name).events := by
  constructor
  · intro noted
    exact Reached.start.exists_step event noted
  · rintro ⟨progress, name, rest, reached, noted⟩
    exact reached.mem_events_of_run event ((mem_events_run_cons _ _ _ _).mpr (Or.inl noted))

end Events

end Progress

namespace Grammar

section Fallback

/-- Whether a run over `ordering` comes to `name` in the state `progress` and has
to assume the empty string there. -/
def FallsBack (grammar : Grammar) (ordering : List String) (progress : Progress)
    (name : String) : Prop :=
  grammar.verify.result = .ok () ∧
    ∃ rest, Progress.Reached (.start grammar) ordering progress (name :: rest) ∧
      (progress.split name).assumesEmptyString = true

theorem emptyStringAssumed_not_mem_verify (grammar : Grammar) (name : String) :
    .emptyStringAssumed name ∉ grammar.verify.events := by
  unfold verify
  split <;> simp

theorem mem_events_removeInOrder_iff (grammar : Grammar) (ordering : List String)
    (event : Event) :
    event ∈ (grammar.removeInOrder ordering).events ↔
      event ∈ grammar.verify.events ∨ grammar.verify.result = .ok () ∧
        ∃ progress name rest, Progress.Reached (.start grammar) ordering progress (name :: rest) ∧
          event ∈ (progress.step name).events := by
  simp only [removeInOrder, Logged.mem_events_andThen, Progress.mem_events_run_iff,
    Logged.events_done, List.not_mem_nil, and_false, exists_false, or_false]
  refine or_congr_right ⟨?_, fun noted => ⟨(), noted⟩⟩
  rintro ⟨_, noted⟩
  exact noted

theorem emptyStringAssumed_mem_events_iff (grammar : Grammar) (ordering : List String)
    (name : String) :
    .emptyStringAssumed name ∈ (grammar.removeInOrder ordering).events ↔
      ∃ progress, grammar.FallsBack ordering progress name := by
  simp only [mem_events_removeInOrder_iff, emptyStringAssumed_not_mem_verify, false_or,
    Progress.emptyStringAssumed_mem_step_iff]
  constructor
  · rintro ⟨verified, progress, _, rest, reached, rfl, assumes⟩
    exact ⟨progress, verified, rest, reached, assumes⟩
  · rintro ⟨progress, verified, rest, reached, assumes⟩
    exact ⟨verified, progress, name, rest, reached, rfl, assumes⟩

end Fallback

end Grammar

end LeftRecursion
