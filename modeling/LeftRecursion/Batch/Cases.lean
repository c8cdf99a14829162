import LeftRecursion.Batch.Dialogue
import LeftRecursion.Grammar.Basic

/-!
The cases of a batch. A batch is the number of its cases, and then for each case
the number of its rules and one line for each of them. Blank lines may stand
before a number, but count as lines among the rules. A single grammar comes
without any numbers and takes all lines.
-/

namespace LeftRecursion.Batch

/-- The lines of one grammar, with their numbers in the input. -/
structure Case where
  number : Nat
  lines : List (Nat × String)
  deriving DecidableEq

structure Options where
  start : String := defaultStart
  /-- The input is one grammar without any numbers. -/
  single : Bool := false
  /-- Prompts are wanted. -/
  interactive : Bool := false
  /-- Cases are worked on side by side. -/
  parallel : Bool := false
  deriving DecidableEq

namespace Dialogue

variable {α : Type}

/-- Asks for the rules that are left of a case; those it has are held last first. -/
def askRules (caseNumber expected : Nat) (next : List (Nat × String) → Dialogue α) :
    Nat → List (Nat × String) → Dialogue α
  | 0, held => next held.reverse
  | left + 1, held =>
      say ("  Production " ++ toString (expected - left) ++ ": ")
        (rule caseNumber expected (expected - (left + 1)) fun line =>
          askRules caseNumber expected next left (line :: held))

def askCase (number : Nat) (next : Case → Dialogue α) : Dialogue α :=
  say ("\n--- Case " ++ toString number ++ " ---\n")
    (say "Enter the number of nonterminals:\n"
      (count .rules fun expected =>
        say ("Enter " ++ toString expected ++
            " production rule(s) in format: <NONTERMINAL> -> <production1> <production2> ...\n")
          (say "Example: S -> Sa b\n"
            (reserve expected
              (askRules number expected (fun lines => next ⟨number, lines⟩) expected [])))))

def askCases (total : Nat) : Nat → List Case → Dialogue (List Case)
  | 0, held => finish held.reverse
  | left + 1, held =>
      askCase (total - left) fun found => askCases total left (found :: held)

def askSingle : Dialogue (List Case) :=
  say "Enter production rules, one per line, and end the input when done:\n"
    (rest fun lines => finish [⟨1, lines⟩])

def askBatch : Dialogue (List Case) :=
  say "Enter the number of test cases:\n"
    (count .cases fun total => askCases total total [])

def ofInput (single : Bool) : Dialogue (List Case) :=
  say "=== Left Recursion Elimination ===\n"
    (say "Based on Aho et al. 2006, Section 4.3.3\n\n"
      (if single then askSingle else askBatch))

end Dialogue

def readCases (options : Options) (location : Location) (session : Session) :
    Except Halt (List Case) × Session :=
  (Dialogue.ofInput options.single).run location session

end LeftRecursion.Batch
