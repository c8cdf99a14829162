/-!
Blank characters: the Unicode property White_Space. Lines are trimmed and words
are separated by it.
-/

namespace LeftRecursion.Text

def isBlank (c : Char) : Bool :=
  let point := c.toNat
  (9 ≤ point && point ≤ 13) || point == 0x20 || point == 0x85 || point == 0xa0 ||
    point == 0x1680 || (0x2000 ≤ point && point ≤ 0x200a) || point == 0x2028 ||
    point == 0x2029 || point == 0x202f || point == 0x205f || point == 0x3000

def isBlankLine (line : String) : Bool :=
  line.toList.all isBlank

def trimStart (text : List Char) : List Char :=
  text.dropWhile isBlank

def trimEnd (text : List Char) : List Char :=
  (trimStart text.reverse).reverse

def trim (text : String) : String :=
  String.ofList (trimEnd (trimStart text.toList))

end LeftRecursion.Text
