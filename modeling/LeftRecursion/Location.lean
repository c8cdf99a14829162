/-!
Places in the input, and things found there. Cases and lines are counted from
one; a zero stands for no case or no line in particular.
-/

namespace LeftRecursion

structure Location where
  file : String := ""
  caseNumber : Nat := 0
  lineNumber : Nat := 0
  deriving DecidableEq

namespace Location

def standardInput : Location :=
  { file := "<stdin>" }

/-- A case as a whole, so no line in particular. -/
def forCase (location : Location) (number : Nat) : Location :=
  { location with caseNumber := number, lineNumber := 0 }

def atLine (location : Location) (number : Nat) : Location :=
  { location with lineNumber := number }

def text (location : Location) : String :=
  let line := if location.lineNumber = 0 then "" else ":" ++ toString location.lineNumber
  let ofCase := if location.caseNumber = 0 then "" else " case " ++ toString location.caseNumber
  location.file ++ line ++ ofCase

section SamePlace

def splitAtSlash : List Char → List (List Char)
  | [] => [[]]
  | '/' :: rest => [] :: splitAtSlash rest
  | c :: rest =>
      match splitAtSlash rest with
      | [] => [[c]]
      | part :: parts => (c :: part) :: parts

/-- The steps of a path. Empty parts are no steps, nor is a dot other than the
first part; a slash at the start is a step of its own. -/
def pathSteps (path : String) : List String :=
  let significant := fun (part : List Char) => part != [] && part != ['.']
  match splitAtSlash path.toList with
  | [] => []
  | first :: rest =>
      let later := (rest.filter significant).map String.ofList
      if first = [] then (if path = "" then [] else "/" :: later)
      else String.ofList first :: later

-- Two spellings of one path name the same file.
def SamePlace (first second : Location) : Prop :=
  pathSteps first.file = pathSteps second.file ∧
    first.caseNumber = second.caseNumber ∧ first.lineNumber = second.lineNumber

instance (first second : Location) : Decidable (SamePlace first second) :=
  inferInstanceAs (Decidable (_ ∧ _ ∧ _))

theorem SamePlace.refl (location : Location) : SamePlace location location :=
  ⟨rfl, rfl, rfl⟩

end SamePlace

end Location

structure Located (α : Type) where
  location : Location
  value : α
  deriving DecidableEq

namespace Located

variable {α : Type}

/-- A report in colour: the place in brackets, then what is wrong there. -/
def report (message : α → String) (found : Located α) : String :=
  "\x1b[31;49;1m[" ++ found.location.text ++ "]\x1b[39;49;1m  " ++
    message found.value ++ "\x1b[0m"

end Located

end LeftRecursion
