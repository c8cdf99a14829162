import LeftRecursion.Grammar.Basic
import LeftRecursion.Log.Event
import LeftRecursion.Rule.Alternative

/-!
Grammars from lines. Blank lines are passed over, and a line that is not a rule
is skipped and reported at its place. The alternatives are split into symbols
only after all lines are read, since every name that a rule defines counts as a
symbol in every alternative. The last rule of a name wins.
-/

namespace LeftRecursion

/-- A grammar, the lines that had to be skipped to build it, and the rules that
replaced an earlier rule of the same name. -/
structure Reading where
  grammar : Grammar
  skipped : List (Located LineFault)
  redefined : List (Located String)
  deriving DecidableEq

namespace Reading

section Lines

def readLines (location : Location) (lines : List (Nat × String)) :
    List (Located (Except LineFault Rule)) :=
  (lines.filter fun line => !Text.isBlankLine line.2).map fun line =>
    ⟨location.atLine line.1, Rule.ofLine line.2⟩

def rulesOf : List (Located (Except LineFault Rule)) → List (Located Rule)
  | [] => []
  | ⟨location, .ok rule⟩ :: rest => ⟨location, rule⟩ :: rulesOf rest
  | ⟨_, .error _⟩ :: rest => rulesOf rest

def faultsOf : List (Located (Except LineFault Rule)) → List (Located LineFault)
  | [] => []
  | ⟨_, .ok _⟩ :: rest => faultsOf rest
  | ⟨location, .error fault⟩ :: rest => ⟨location, fault⟩ :: faultsOf rest

end Lines

section Rules

/-- The names that rules define, each once, the longest first. -/
def namesOf (rules : List (Located Rule)) : List String :=
  longestFirst (rules.map fun rule => rule.value.name).eraseDups

def define (names : List String) (grammar : Grammar) (rule : Located Rule) : Grammar :=
  grammar.insert rule.value.name (rule.value.words.map (readAlternative names))

def grammarOf (start : String) (rules : List (Located Rule)) : Grammar :=
  rules.foldl (define (namesOf rules)) (.empty start)

/-- The rules whose name is among the seen ones or has an earlier rule. -/
def repeatsOf (seen : List String) : List (Located Rule) → List (Located String)
  | [] => []
  | rule :: rest =>
      let name := rule.value.name
      if name ∈ seen then ⟨rule.location, name⟩ :: repeatsOf seen rest
      else repeatsOf (name :: seen) rest

end Rules

def ofNumbered (start : String) (location : Location) (lines : List (Nat × String)) : Reading :=
  let read := readLines location lines
  let rules := rulesOf read
  { grammar := grammarOf start rules
    skipped := faultsOf read
    redefined := repeatsOf [] rules }

def numberFrom : Nat → List String → List (Nat × String)
  | _, [] => []
  | first, line :: rest => (first, line) :: numberFrom (first + 1) rest

/-- Reads lines that come from no file, numbered from one. -/
def ofLines (start : String) (lines : List String) : Reading :=
  ofNumbered start {} (numberFrom 1 lines)

def warnings (reading : Reading) : List Event :=
  reading.redefined.map fun found => .redefined found.location found.value

def skipWarnings (reading : Reading) : List Event :=
  reading.skipped.map .lineSkipped

end Reading

end LeftRecursion
