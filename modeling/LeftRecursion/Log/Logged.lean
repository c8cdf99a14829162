import LeftRecursion.Comparison
import LeftRecursion.Log.Event

/-!
Work that is logged. It ends with a value or a failure, and what was noted
before a failure is kept.
-/

namespace LeftRecursion

structure Logged (ε α : Type) where
  events : List Event
  result : Except ε α
  deriving DecidableEq

namespace Logged

variable {ε α β : Type}

def done (value : α) : Logged ε α :=
  ⟨[], .ok value⟩

def fail (failure : ε) : Logged ε α :=
  ⟨[], .error failure⟩

def noting (events : List Event) (work : Logged ε α) : Logged ε α :=
  ⟨events ++ work.events, work.result⟩

/-- The rest of the work, unless the first part failed. -/
def andThen (first : Logged ε α) (rest : α → Logged ε β) : Logged ε β :=
  match first.result with
  | .ok value => (rest value).noting first.events
  | .error failure => ⟨first.events, .error failure⟩

section Projections

@[simp] theorem result_done (value : α) : (done value : Logged ε α).result = .ok value := rfl

@[simp] theorem events_done (value : α) : (done value : Logged ε α).events = [] := rfl

@[simp] theorem result_fail (failure : ε) :
    (fail failure : Logged ε α).result = .error failure := rfl

@[simp] theorem events_fail (failure : ε) : (fail failure : Logged ε α).events = [] := rfl

@[simp] theorem result_noting (events : List Event) (work : Logged ε α) :
    (work.noting events).result = work.result := rfl

@[simp] theorem events_noting (events : List Event) (work : Logged ε α) :
    (work.noting events).events = events ++ work.events := rfl

-- What was noted never decides how the work goes on.
theorem result_andThen (first : Logged ε α) (rest : α → Logged ε β) :
    (first.andThen rest).result = first.result.bind fun value => (rest value).result := by
  cases first with
  | mk events result => cases result <;> rfl

theorem andThen_of_ok (first : Logged ε α) (rest : α → Logged ε β) (value : α)
    (ok : first.result = .ok value) :
    first.andThen rest = (rest value).noting first.events := by
  simp [andThen, ok]

theorem andThen_of_error (first : Logged ε α) (rest : α → Logged ε β) (failure : ε)
    (failed : first.result = .error failure) :
    first.andThen rest = ⟨first.events, .error failure⟩ := by
  simp [andThen, failed]

theorem mem_events_andThen (first : Logged ε α) (rest : α → Logged ε β) (event : Event) :
    event ∈ (first.andThen rest).events ↔
      event ∈ first.events ∨ ∃ value, first.result = .ok value ∧ event ∈ (rest value).events := by
  cases first with
  | mk events result => cases result <;> simp [andThen]

end Projections

end Logged

end LeftRecursion
