/-!
Counts in input lines: decimal digits, which a single plus sign may precede, of
a number below 2 ^ 64. Anything else is no count.
-/

namespace LeftRecursion.Text

/-- The counts that a line may hold lie below this bound, which is 2 ^ 64. -/
def countBound : Nat := 18446744073709551616

def digitsOfCount : List Char → List Char
  | '+' :: digits => digits
  | digits => digits

def decimalValue (digits : List Char) : Nat :=
  Nat.ofDigitChars 10 digits 0

def readCount (text : String) : Option Nat :=
  let digits := digitsOfCount text.toList
  if digits.isEmpty || digits.any (fun c => !c.isDigit) then none
  else if decimalValue digits < countBound then some (decimalValue digits)
  else none

theorem digitsOfCount_of_digits (digits : List Char)
    (decimal : ∀ c ∈ digits, c.isDigit = true) : digitsOfCount digits = digits := by
  unfold digitsOfCount
  split
  · next rest =>
      have impossible := decimal '+' List.mem_cons_self
      simp at impossible
  · rfl

theorem isDigit_of_mem_toString (count : Nat) (c : Char) (member : c ∈ (toString count).toList) :
    c.isDigit = true := by
  rw [Nat.toString_eq_ofList_toDigits, String.toList_ofList] at member
  exact Nat.isDigit_of_mem_toDigits (by decide) (by decide) member

-- A number that is small enough reads back from its decimal text.
theorem readCount_toString (count : Nat) (small : count < countBound) :
    readCount (toString count) = some count := by
  have decimal : ∀ c ∈ Nat.toDigits 10 count, c.isDigit = true := fun c member =>
    Nat.isDigit_of_mem_toDigits (by decide) (by decide) member
  have value : decimalValue (Nat.toDigits 10 count) = count :=
    Nat.ofDigitChars_toDigits (by decide) (by decide)
  have nonempty : Nat.toDigits 10 count ≠ [] := Nat.toDigits_ne_nil
  simp only [readCount, Nat.toString_eq_ofList_toDigits, String.toList_ofList,
    digitsOfCount_of_digits _ decimal, value, small, if_true]
  simpa [nonempty] using decimal

end LeftRecursion.Text
