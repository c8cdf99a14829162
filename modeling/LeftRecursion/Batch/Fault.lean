import LeftRecursion.Location

/-!
What can go wrong while a batch is read. Faults of a device come from outside;
they count as the same when they are of one kind, whatever they say. Apart from
these, a program that asks for more memory than there can be is broken off.
-/

namespace LeftRecursion.Batch

inductive DeviceFaultKind where
  | invalidText
  | notFound
  | isDirectory
  | other
  deriving DecidableEq

structure DeviceFault where
  kind : DeviceFaultKind
  text : String
  deriving DecidableEq

namespace DeviceFault

def invalidText : DeviceFault :=
  ⟨.invalidText, "stream did not contain valid UTF-8"⟩

/-- A fault that the system reports, with the number that it has there. -/
def ofSystem (kind : DeviceFaultKind) (text : String) (number : Nat) : DeviceFault :=
  ⟨kind, text ++ " (os error " ++ toString number ++ ")"⟩

def notFound : DeviceFault :=
  ofSystem .notFound "No such file or directory" 2

def permissionDenied : DeviceFault :=
  ofSystem .other "Permission denied" 13

/-- A path that goes on behind a file. -/
def notDirectory : DeviceFault :=
  ofSystem .other "Not a directory" 20

/-- A directory that is read. -/
def isDirectory : DeviceFault :=
  ofSystem .isDirectory "Is a directory" 21

def longName : DeviceFault :=
  ofSystem .other "File name too long" 36

end DeviceFault

inductive Counted where
  | cases
  | rules
  deriving DecidableEq

def Counted.text : Counted → String
  | cases => "test cases"
  | rules => "nonterminals"

inductive Fault where
  /-- The input ended where a count was expected. -/
  | missingCount (counted : Counted)
  /-- A line that should be a count is none. -/
  | invalidCount (text : String)
  /-- The input ended after `found` of the `expected` rules of a case. -/
  | unexpectedEnd (expected found : Nat)
  | device (fault : DeviceFault)
  deriving DecidableEq

namespace Fault

def message : Fault → String
  | missingCount counted => "Expected the number of " ++ counted.text
  | invalidCount text => "Expected a count, found `" ++ text ++ "`"
  | unexpectedEnd expected found =>
      "Expected " ++ toString expected ++ " production rule(s), input ended after " ++
        toString found
  | device fault => "File error: " ++ fault.text

def Alike : Fault → Fault → Prop
  | device first, device second => first.kind = second.kind
  | first, second => first = second

instance (first second : Fault) : Decidable (Alike first second) := by
  unfold Alike
  split <;> infer_instance

theorem Alike.refl (fault : Fault) : Alike fault fault := by
  cases fault <;> rfl

end Fault

/-- Why a batch is not read or not answered to its end. -/
inductive Halt where
  | fault (found : Located Fault)
  /-- The program is broken off, and nothing is reported as a fault. -/
  | overflow
  deriving DecidableEq

end LeftRecursion.Batch
