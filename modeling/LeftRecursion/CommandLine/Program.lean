import LeftRecursion.Batch.Report
import LeftRecursion.CommandLine.Arguments

/-!
The program as a whole: from the arguments and the input to what is written and
the status with which it ends. Transformed grammars are written to the standard
output, and all else to the standard error. The status is zero if all went well,
one if a case could not be transformed, two if the arguments or the input are
at fault, and 101 if the program is broken off.
-/

namespace LeftRecursion.CommandLine

structure Response where
  status : Nat
  output : String
  errors : String
  deriving DecidableEq

section Manual

def versionText : String := "derecurse 0.1.0\n"

def helpText : String :=
  "Removes left recursion from context-free grammars\n\n" ++
  "Usage: derecurse [OPTIONS] [FILE]\n\n" ++
  "Arguments:\n" ++
  "  [FILE]  File containing the test cases (default: stdin)\n\n" ++
  "Options:\n" ++
  "  -s, --start <SYMBOL>  Start symbol, always processed first (default: S)\n" ++
  "      --single          Read one grammar without case or rule counts\n" ++
  "  -i, --interactive     Print prompts even when stdin is not a terminal\n" ++
  "  -p, --parallel        Transform independent cases in parallel\n" ++
  "  -v, --verbose...      More log output, repeat for more detail\n" ++
  "  -h, --help            Print help\n" ++
  "  -V, --version         Print version\n"

/-- What is answered when there is nothing to work on. Sequences only pause where
white space shows in a message, since it may go to a terminal. -/
def Stop.response : Stop → Response
  | help => ⟨0, helpText, ""⟩
  | version => ⟨0, versionText, ""⟩
  | usage error => ⟨2, "", error.message .pauses ++ "\n"⟩

end Manual

section Work

def Settings.location (settings : Settings) : Location :=
  match settings.file with
  | some file => { file }
  | none => .standardInput

def endLine (text : String) : String :=
  text ++ "\n"

def logText (verbosity : Nat) (events : List Event) : String :=
  String.join ((events.filter (Event.isShown verbosity)).map fun event => endLine event.line)

def faultText (fault : Located Batch.Fault) : String :=
  endLine (fault.report Batch.Fault.message)

/-- What is said when the program is broken off, without the place in the program. -/
def overflowText : String :=
  endLine "capacity overflow"

def failuresText (failures : List (Located Failure)) : String :=
  String.join (failures.map fun failure => endLine (failure.report Failure.message))

def respond (verbosity : Nat) (outcome : Batch.Outcome) : Response :=
  let before := outcome.asked ++ logText verbosity outcome.events ++ outcome.announced
  match outcome.result with
  | .error (.fault fault) => ⟨2, "", before ++ faultText fault⟩
  | .error .overflow => ⟨101, "", before ++ overflowText⟩
  | .ok report =>
      { status := if report.failures.isEmpty then 0 else 1
        output := if report.text = "" then "" else endLine report.text
        errors := before ++ failuresText report.failures }

def Settings.work (settings : Settings) (input : Except Batch.DeviceFault Batch.LineStream) :
    Response :=
  match input with
  | .error fault => ⟨2, "", faultText ⟨settings.location, .device fault⟩⟩
  | .ok stream =>
      respond settings.verbosity
        (Batch.run settings.options settings.location none stream)

end Work

end LeftRecursion.CommandLine
