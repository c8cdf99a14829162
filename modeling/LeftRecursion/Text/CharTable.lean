/-!
Character properties as tables. A property of characters is a list of
stretches of code points, and a character has the property when one of the
stretches holds its code point. Letters that come in pairs, as most letters
with two cases do, make stretches that take every second point.
-/

namespace LeftRecursion.Text

/-- Every `step`-th code point from `first` to `last`. -/
structure Stretch where
  first : Nat
  last : Nat
  step : Nat
  deriving DecidableEq

def Stretch.holds (stretch : Stretch) (point : Nat) : Bool :=
  stretch.first ≤ point && point ≤ stretch.last &&
    (point - stretch.first) % stretch.step == 0

abbrev CharTable := List Stretch

def CharTable.holds (table : CharTable) (c : Char) : Bool :=
  table.any fun stretch => stretch.holds c.toNat

end LeftRecursion.Text
