import LeftRecursion.Batch.Console
import LeftRecursion.Batch.LineStream

/-!
Dialogues: what is asked for, in which order, and what is said before. Input is
taken and prompts are shown only by carrying a dialogue out, so a dialogue can be
looked at without either.
-/

namespace LeftRecursion.Batch

inductive Dialogue (α : Type) where
  /-- Ends with a result. -/
  | finish (result : α)
  /-- Shows a prompt. -/
  | say (prompt : String) (next : Dialogue α)
  /-- Takes lines up to a count. -/
  | count (counted : Counted) (next : Nat → Dialogue α)
  /-- Takes the line of a rule of a case that has so many, of which some are found. -/
  | rule (caseNumber expected found : Nat) (next : Nat × String → Dialogue α)
  /-- Takes all lines that are left. -/
  | rest (next : List (Nat × String) → Dialogue α)
  /-- Sets memory aside for so many lines. -/
  | reserve (lines : Nat) (next : Dialogue α)

/-- How many lines can be set memory aside for. A line and its number take 32 bytes, and one
piece of memory has fewer than 2 ^ 63. Less is always granted here: that memory runs out is
left to the system. -/
def mostLines : Nat := 288230376151711743

structure Session where
  input : Input
  console : Console
  deriving DecidableEq

namespace Dialogue

variable {α : Type}

/-- Carries a dialogue out. Faults of the console are reported for the input as a
whole, which `location` names, and faults of the input at their line. -/
def run (location : Location) : Dialogue α → Session → Except Halt α × Session
  | finish result, session => (.ok result, session)
  | say prompt next, session =>
      match session.console.write prompt with
      | (console, none) => next.run location { session with console }
      | (console, some fault) =>
          (.error (.fault ⟨location, .device fault⟩), { session with console })
  | count counted next, session =>
      match Input.takeCount location counted session.input.taken session.input.remaining with
      | (.ok number, input) => (next number).run location { session with input }
      | (.error fault, input) => (.error (.fault fault), { session with input })
  | rule caseNumber expected found next, session =>
      match session.input.takeLine location caseNumber (.unexpectedEnd expected found) with
      | (.ok line, input) => (next line).run location { session with input }
      | (.error fault, input) => (.error (.fault fault), { session with input })
  | rest next, session =>
      match Input.takeRest location session.input.taken session.input.remaining with
      | (.ok lines, input) => (next lines).run location { session with input }
      | (.error fault, input) => (.error (.fault fault), { session with input })
  | reserve lines next, session =>
      if lines ≤ mostLines then next.run location session else (.error .overflow, session)

end Dialogue

end LeftRecursion.Batch
