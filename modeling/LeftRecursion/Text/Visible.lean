/-!
Text without terminal controls. Controls other than white space do not show, and
neither do control sequences: an escape character begins one, and it reaches up
to the character that ends a sequence of its kind. White space shows in the
shorter kinds, where it either ends the sequence or makes it pause.

A sequence is read from one character to the next. A device string begins with
parameters and marks; behind them it is a string like those that are meant for
the system, and it ends like them at the terminator 0x9c of the longer character
sets, which may be any byte of a character in UTF-8.
-/

namespace LeftRecursion.Text

section Characters

/-- Controls that show as white space. -/
def isSpacing (c : Char) : Bool :=
  c = '\t' || c = '\n' || c = '\x0c' || c = '\r'

def isCancel (c : Char) : Bool :=
  c = '\x18' || c = '\x1a'

def isBetween (first last c : Char) : Bool :=
  first ≤ c && c ≤ last

def isBasic (c : Char) : Bool :=
  c.toNat < 128

def holdsTerminator (c : Char) : Bool :=
  (String.utf8EncodeChar c).contains 0x9c

end Characters

section Sequences

inductive Sequence where
  | outside
  /-- Behind the escape character that begins a sequence. -/
  | escape
  /-- Behind an escape character and marks, which one more character ends. -/
  | marked
  /-- Among the parameters of a control, which a letter ends. -/
  | control
  /-- In a command, which a bell ends. -/
  | command
  | device
  | deviceParameters
  | deviceMarks
  /-- In a string, which a terminator ends. -/
  | string
  deriving DecidableEq

namespace Sequence

/-- The kind of sequence that the character behind an escape character begins. -/
def ofLead (c : Char) : Sequence :=
  if c = '[' then control
  else if c = ']' then command
  else if c = 'P' then device
  else if c = 'X' || c = '^' || c = '_' then string
  else if isBetween ' ' '/' c then marked
  else if isBetween '0' '~' c then outside
  else escape

def nextInDevice (sequence : Sequence) (c : Char) : Sequence :=
  if isBetween ' ' '/' c then deviceMarks
  else if isBetween '0' (if sequence = device then '?' else ';') c then deviceParameters
  else if isBetween '0' '~' c then string
  else sequence

def next (sequence : Sequence) (c : Char) : Sequence :=
  if isCancel c then outside
  else if c = '\x1b' then escape
  else
    match sequence with
    | outside => outside
    | escape => ofLead c
    | marked => if isBetween '0' '~' c then outside else marked
    | control => if isBetween '@' '~' c then outside else control
    | command => if c = '\x07' then outside else command
    | device => nextInDevice device c
    | deviceParameters => nextInDevice deviceParameters c
    | deviceMarks =>
        if isBetween '0' '~' c then string else deviceMarks
    | string => if holdsTerminator c then outside else string

def shows (sequence : Sequence) (c : Char) : Bool :=
  match sequence with
  | outside => isSpacing c || (' ' ≤ c && c != '\x7f')
  | escape | marked | control => isSpacing c
  | command | device | deviceParameters | deviceMarks | string => false

end Sequence

end Sequences

section Positions

/-- What becomes of a sequence in which white space shows. -/
inductive Interruption where
  | ends
  /-- It goes on where basic text and white space cease to show. -/
  | pauses
  deriving DecidableEq

/-- Where a text stands: in which sequence, and whether that pauses. -/
structure Position where
  sequence : Sequence := .outside
  paused : Bool := false
  deriving DecidableEq

namespace Position

def current (position : Position) : Sequence :=
  if position.paused then .outside else position.sequence

def shows (position : Position) (c : Char) : Bool :=
  position.current.shows c

def next (interruption : Interruption) (position : Position) (c : Char) : Position :=
  if position.shows c then
    if interruption = .pauses && isBasic c then ⟨position.sequence, true⟩ else {}
  else ⟨position.sequence.next c, false⟩

def shown (interruption : Interruption) (position : Position) : List Char → List Char
  | [] => []
  | c :: rest =>
      let later := (position.next interruption c).shown interruption rest
      if position.shows c then c :: later else later

end Position

def visible (interruption : Interruption) (text : String) : String :=
  String.ofList (Position.shown interruption {} text.toList)

end Positions

end LeftRecursion.Text
