import LeftRecursion.Batch.Fault
import LeftRecursion.Comparison
import LeftRecursion.Text.Blank
import LeftRecursion.Text.Count
import LeftRecursion.Text.Lines

/-!
Input as a stream of lines, in the order in which they come. A line that cannot
be read is a fault in its place. Lines are counted as they are taken, faulty ones
included, and their text is trimmed.
-/

namespace LeftRecursion.Batch

abbrev LineStream := List (Except DeviceFault String)

namespace LineStream

section Sources

/-- How an input ends: after its last byte, or with a failure to read on. -/
abbrev Ending := Option DeviceFault

/-- What the end of the input adds to the lines that were ended by a newline. A
failure to read on takes the place of a line that is not ended. -/
def lastLine (leftOver : Option (Except DeviceFault String)) : Ending → LineStream
  | some fault => [.error fault]
  | none => leftOver.toList

def ofText (text : String) (ending : Ending) : LineStream :=
  let split := Text.splitLines '\n' [] text.toList
  let leftOver := if split.2.isEmpty then none else some (.ok (String.ofList split.2))
  split.1.map (fun line => .ok (String.ofList line)) ++ lastLine leftOver ending

def decodeLine (bytes : List UInt8) : Except DeviceFault String :=
  match String.fromUTF8? ⟨bytes.toArray⟩ with
  | some text => .ok text
  | none => .error .invalidText

def ofBytes (bytes : List UInt8) (ending : Ending) : LineStream :=
  let split := Text.splitLines 10 [] bytes
  let leftOver := if split.2.isEmpty then none else some (decodeLine split.2)
  split.1.map decodeLine ++ lastLine leftOver ending

end Sources

end LineStream

structure Input where
  taken : Nat
  remaining : LineStream
  deriving DecidableEq

namespace Input

def start (stream : LineStream) : Input :=
  ⟨0, stream⟩

section Taking

def takeCount (location : Location) (counted : Counted) (taken : Nat) :
    LineStream → Except (Located Fault) Nat × Input
  | [] => (.error ⟨location.atLine taken, .missingCount counted⟩, ⟨taken, []⟩)
  | .error fault :: rest =>
      (.error ⟨location.atLine (taken + 1), .device fault⟩, ⟨taken + 1, rest⟩)
  | .ok line :: rest =>
      let text := Text.trim line
      if text = "" then takeCount location counted (taken + 1) rest
      else
        match Text.readCount text with
        | some count => (.ok count, ⟨taken + 1, rest⟩)
        | none => (.error ⟨location.atLine (taken + 1), .invalidCount text⟩, ⟨taken + 1, rest⟩)

/-- The next line with its number, blank or not. At the end of the input the
given fault arises, at the last line of its case. -/
def takeLine (location : Location) (caseNumber : Nat) (atEnd : Fault) (input : Input) :
    Except (Located Fault) (Nat × String) × Input :=
  match input.remaining with
  | [] => (.error ⟨(location.forCase caseNumber).atLine input.taken, atEnd⟩, input)
  | .error fault :: rest =>
      (.error ⟨location.atLine (input.taken + 1), .device fault⟩, ⟨input.taken + 1, rest⟩)
  | .ok line :: rest => (.ok (input.taken + 1, Text.trim line), ⟨input.taken + 1, rest⟩)

def takeRest (location : Location) (taken : Nat) :
    LineStream → Except (Located Fault) (List (Nat × String)) × Input
  | [] => (.ok [], ⟨taken, []⟩)
  | .error fault :: rest =>
      (.error ⟨location.atLine (taken + 1), .device fault⟩, ⟨taken + 1, rest⟩)
  | .ok line :: rest =>
      let later := takeRest location (taken + 1) rest
      (later.1.map fun lines => (taken + 1, Text.trim line) :: lines, later.2)

end Taking

end Input

end LeftRecursion.Batch
