import LeftRecursion.Batch.Cases
import LeftRecursion.Elimination.Run
import LeftRecursion.Grammar.Render
import LeftRecursion.Reading

/-!
Working on the cases of a batch. Each case is read as a grammar and transformed
on its own, so none depends on another. The report of a batch is the transformed
grammars in the order of their cases, with an empty line between two of them, and
the failures of the cases that could not be transformed.
-/

namespace LeftRecursion.Batch

section Cases

/-- Transforms one case. Lines that are not rules are skipped with a warning, and
a failure concerns the case as a whole. -/
def Case.transform (start : String) (location : Location) (work : Case) :
    Logged (Located Failure) String :=
  let place := location.forCase work.number
  let reading := Reading.ofNumbered start place work.lines
  let run := reading.grammar.removeLeftRecursion
  let noted := reading.warnings ++ reading.skipWarnings ++ run.events
  match run.result with
  | .error failure => ⟨noted, .error ⟨place, failure⟩⟩
  | .ok grammar =>
      ⟨noted ++ [.transformed work.number grammar.size grammar.generated.size],
        .ok grammar.render⟩

/-- Transforms every case. Working side by side changes nothing but the time that
it takes. -/
def transformCases (options : Options) (location : Location) (cases : List Case) :
    List (Logged (Located Failure) String) :=
  if options.parallel then
    (cases.map fun work => Task.spawn fun _ => work.transform options.start location).map Task.get
  else cases.map (Case.transform options.start location)

theorem transformCases_eq_map (options : Options) (location : Location) (cases : List Case) :
    transformCases options location cases =
      cases.map (Case.transform options.start location) := by
  unfold transformCases
  split
  · simp [List.map_map, Function.comp_def, Task.spawn]
  · rfl

end Cases

structure Report where
  text : String
  failures : List (Located Failure)
  deriving DecidableEq

namespace Report

def outputs : List (Logged (Located Failure) String) → List String
  | [] => []
  | ⟨_, .ok text⟩ :: rest => text :: outputs rest
  | ⟨_, .error _⟩ :: rest => outputs rest

def failuresOf : List (Logged (Located Failure) String) → List (Located Failure)
  | [] => []
  | ⟨_, .ok _⟩ :: rest => failuresOf rest
  | ⟨_, .error failure⟩ :: rest => failure :: failuresOf rest

def ofResults (results : List (Logged (Located Failure) String)) : Report :=
  { text := "\n\n".intercalate (outputs results)
    failures := failuresOf results }

end Report

/-- All that a batch leads to, in the order in which it comes about: the prompts
while the cases are read, what is noted about them, the prompts after that, and
the report. -/
structure Outcome where
  asked : String
  events : List Event
  announced : String
  result : Except Halt Report
  deriving DecidableEq

def Outcome.prompts (outcome : Outcome) : String :=
  outcome.asked ++ outcome.announced

def resultsHeading : String :=
  let rule := String.ofList (List.replicate 50 '=')
  "\n" ++ rule ++ "\nRESULTS\n" ++ rule ++ "\n\n"

def run (options : Options) (location : Location) (room : Option Room) (stream : LineStream) :
    Outcome :=
  match readCases options location ⟨.start stream, .start options.interactive room⟩ with
  | (.error halt, session) => ⟨session.console.shown, [], "", .error halt⟩
  | (.ok cases, session) =>
      let results := transformCases options location cases
      let events := results.flatMap Logged.events
      let asked := session.console.shown
      match ({ session.console with shown := "" } : Console).write resultsHeading with
      | (console, none) => ⟨asked, events, console.shown, .ok (.ofResults results)⟩
      | (console, some fault) =>
          ⟨asked, events, console.shown, .error (.fault ⟨location, .device fault⟩)⟩

end LeftRecursion.Batch
