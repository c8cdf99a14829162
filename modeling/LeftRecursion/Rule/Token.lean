import LeftRecursion.Text.Blank

/-!
The tokens of a line. An arrow is a token wherever its two characters stand,
also inside other text; what blank characters and arrows leave over are the
words.
-/

namespace LeftRecursion

inductive Token where
  | arrow
  | word (text : String)
  deriving DecidableEq

def arrowText : String := "->"

namespace Token

/-- Puts a word in front of the tokens after it. Its characters are held last
first, and without characters there is no word. -/
def finishWord : List Char → List Token → List Token
  | [], tokens => tokens
  | held, tokens => word (String.ofList held.reverse) :: tokens

/-- The tokens of a text, of which the word being read has the held characters. -/
def scan (held : List Char) : List Char → List Token
  | [] => finishWord held []
  | '-' :: '>' :: rest => finishWord held (arrow :: scan [] rest)
  | c :: rest =>
      if Text.isBlank c then finishWord held (scan [] rest)
      else scan (c :: held) rest

def ofLine (line : String) : List Token :=
  scan [] line.toList

end Token

end LeftRecursion
