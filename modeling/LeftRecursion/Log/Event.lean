import LeftRecursion.Location
import LeftRecursion.Rule.Line
import LeftRecursion.Text.Quoted

/-!
What the program notes while it works. An event has a level, a message, and
fields that say what it is about. A log line is the level, the part of the
program that noted the event, the message, and the fields.
-/

namespace LeftRecursion

inductive Level where
  | warn
  | info
  | debug
  deriving DecidableEq

namespace Level

def label : Level → String
  | warn => "WARN"
  | info => "INFO"
  | debug => "DEBUG"

/-- How often more output has to be asked for before the level is shown. -/
def verbosity : Level → Nat
  | warn => 0
  | info => 1
  | debug => 2

end Level

inductive Event where
  /-- A rule for a name that has one already. -/
  | redefined (location : Location) (name : String)
  /-- A line that is not a rule. -/
  | lineSkipped (line : Located LineFault)
  /-- More than one name that has no rule is referred to. -/
  | severalUndefined (names : List String)
  /-- Alternatives of `name` that begin with `source` are unfolded. -/
  | substituting (name source : String)
  /-- `count` alternatives are the name and nothing else. -/
  | cyclesDropped (name : String) (count : Nat)
  /-- No alternative begins with anything but the name. -/
  | emptyStringAssumed (name : String)
  /-- The recursion of `name` is carried by `auxiliary` from here on. -/
  | eliminated (name auxiliary : String)
  /-- A case is done, with so many rules and so many made-up names. -/
  | transformed (caseNumber rules generated : Nat)
  deriving DecidableEq

inductive FieldValue where
  | plain (text : String)
  | quoted (text : String)
  | number (value : Nat)
  | names (names : List String)

namespace FieldValue

def text : FieldValue → String
  | plain text => text
  | quoted text => text
  | number value => toString value
  | names list => Text.quoteList list

/-- The value as it stands in a log line. -/
def inLine : FieldValue → String
  | quoted text => Text.quote text
  | value => value.text

end FieldValue

namespace Event

def level : Event → Level
  | redefined .. | lineSkipped .. | cyclesDropped .. | emptyStringAssumed .. => .warn
  | transformed .. => .info
  | severalUndefined .. | substituting .. | eliminated .. => .debug

def message : Event → String
  | redefined .. => "nonterminal defined twice, keeping the last definition"
  | lineSkipped line => line.value.message
  | severalUndefined .. => "grammar has several undefined nonterminals"
  | substituting .. => "substituting"
  | cyclesDropped .. => "dropping alternatives that only derive the nonterminal itself"
  | emptyStringAssumed .. =>
      "every alternative is left recursive, substituting the empty string"
  | eliminated .. => "eliminated immediate left recursion"
  | transformed .. => "transformed grammar"

def fields : Event → List (String × FieldValue)
  | redefined location name =>
      [("location", .plain location.text), ("nonterminal", .plain name)]
  | lineSkipped line => [("location", .plain line.location.text)]
  | severalUndefined names => [("undefined", .names names)]
  | substituting name source => [("nonterminal", .plain name), ("source", .plain source)]
  | cyclesDropped name count => [("nonterminal", .quoted name), ("cycles", .number count)]
  | emptyStringAssumed name => [("nonterminal", .quoted name)]
  | eliminated name auxiliary =>
      [("nonterminal", .plain name), ("auxiliary", .plain auxiliary)]
  | transformed caseNumber rules generated =>
      [("case", .number caseNumber), ("nonterminals", .number rules),
        ("generated", .number generated)]

def noter : Event → String
  | redefined .. => "derecurse::parser"
  | lineSkipped .. | transformed .. => "derecurse::driver"
  | severalUndefined .. => "derecurse::transform::verifier"
  | substituting .. | eliminated .. => "derecurse::transform"
  | cyclesDropped .. | emptyStringAssumed .. => "derecurse::transform::immediate"

def line (event : Event) : String :=
  let shown := event.fields.map fun field => " " ++ field.1 ++ "=" ++ field.2.inLine
  event.level.label ++ " " ++ event.noter ++ ": " ++ event.message ++ String.join shown

def isShown (verbosity : Nat) (event : Event) : Bool :=
  event.level.verbosity ≤ verbosity

end Event

end LeftRecursion
