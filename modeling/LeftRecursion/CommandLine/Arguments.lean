import LeftRecursion.Batch.Cases
import LeftRecursion.Comparison
import LeftRecursion.Text.Visible

/-!
Arguments on the command line. An argument that begins with two dashes names a
parameter, one that begins with a single dash gives the letters of parameters,
and every other argument is an operand, as is a dash alone. After two dashes
alone there are only operands. The one operand is the file to read.

A value that was given last, for the file or the start symbol, is only looked at
when the next parameter or operand comes, or at the end. An argument that cannot
be one of the program's is reported before that.
-/

namespace LeftRecursion.CommandLine

section Parameters

/-- Parameters without a value. -/
inductive Switch where
  | single
  | interactive
  | parallel
  | verbose
  | help
  | version
  deriving DecidableEq

namespace Switch

def ofName? : String → Option Switch
  | "single" => some single
  | "interactive" => some interactive
  | "parallel" => some parallel
  | "verbose" => some verbose
  | "help" => some help
  | "version" => some version
  | _ => none

def ofLetter? : Char → Option Switch
  | 'i' => some interactive
  | 'p' => some parallel
  | 'v' => some verbose
  | 'h' => some help
  | 'V' => some version
  | _ => none

def text : Switch → String
  | single => "--single"
  | interactive => "--interactive"
  | parallel => "--parallel"
  | verbose => "--verbose..."
  | help => "--help"
  | version => "--version"

end Switch

inductive Parameter where
  | file
  | start
  | switch (mark : Switch)
  deriving DecidableEq

def Parameter.text : Parameter → String
  | file => "[FILE]"
  | start => "--start <SYMBOL>"
  | switch mark => mark.text

end Parameters

section Results

structure Settings where
  file : Option String := none
  start : Option String := none
  single : Bool := false
  interactive : Bool := false
  parallel : Bool := false
  verbosity : Nat := 0
  deriving DecidableEq

def Settings.options (settings : Settings) : Batch.Options :=
  { start := settings.start.getD defaultStart
    single := settings.single
    interactive := settings.interactive
    parallel := settings.parallel }

inductive UsageError where
  /-- An argument that means nothing to the program. -/
  | unexpectedArgument (argument : String)
  /-- A parameter without the value that it needs. -/
  | missingValue (parameter : Parameter)
  /-- A parameter that may be given only once. -/
  | repeated (parameter : Parameter)
  /-- A value for a parameter that takes none. -/
  | unexpectedValue (value : String) (parameter : Parameter)
  deriving DecidableEq

/-- What is said about a usage error. What was given is shown without the controls
in it. -/
def UsageError.message (interruption : Text.Interruption) (error : UsageError) : String :=
  let shown := Text.visible interruption
  "error: " ++
    match error with
    | unexpectedArgument argument => "unexpected argument '" ++ shown argument ++ "' found"
    | missingValue parameter =>
        "a value is required for '" ++ parameter.text ++ "' but none was supplied"
    | repeated parameter =>
        "the argument '" ++ parameter.text ++ "' cannot be used multiple times"
    | unexpectedValue value parameter =>
        "unexpected value '" ++ shown value ++ "' for '" ++ parameter.text ++
          "' found; no more were expected"

inductive Stop where
  | help
  | version
  | usage (error : UsageError)
  deriving DecidableEq

end Results

section Forms

inductive Form where
  | separator
  | name (name : String) (value : Option String)
  | letters (cluster : List Char)
  | plain
  deriving DecidableEq

/-- The name and the value that an equals sign parts. -/
def splitValue (text : List Char) : Form :=
  let name := text.takeWhile fun c => c != '='
  let value := (text.drop name.length).tail?
  .name (String.ofList name) (value.map String.ofList)

def Form.ofArgument (argument : String) : Form :=
  match argument.toList with
  | ['-', '-'] => .separator
  | '-' :: '-' :: text => splitValue text
  | ['-'] => .plain
  | '-' :: cluster => .letters cluster
  | _ => .plain

end Forms

section Reading

/-- A value that is not looked at yet. The start symbol may still lack its own. -/
inductive Pending where
  | file (name : String)
  | start (value : Option String)
  deriving DecidableEq

structure Draft where
  settings : Settings
  pending : Option Pending
  deriving DecidableEq

namespace Draft

def setStart (settings : Settings) (value : String) : Except Stop Draft :=
  if settings.start.isSome then .error (.usage (.repeated .start))
  else .ok ⟨{ settings with start := some value }, none⟩

def settle (draft : Draft) : Except Stop Draft :=
  match draft.pending with
  | none => .ok draft
  | some (.file name) =>
      if name = "" then .error (.usage (.missingValue .file))
      else .ok ⟨{ draft.settings with file := some name }, none⟩
  | some (.start none) => .error (.usage (.missingValue .start))
  | some (.start (some value)) => setStart draft.settings value

def markOnce (switch : Switch) (marked : Bool) (settings : Settings) : Except Stop Draft :=
  if marked then .error (.usage (.repeated (.switch switch))) else .ok ⟨settings, none⟩

def turnOn (draft : Draft) (switch : Switch) : Except Stop Draft :=
  draft.settle.bind fun settled =>
    let settings := settled.settings
    match switch with
    | .single => markOnce switch settings.single { settings with single := true }
    | .interactive => markOnce switch settings.interactive { settings with interactive := true }
    | .parallel => markOnce switch settings.parallel { settings with parallel := true }
    | .verbose =>
        .ok ⟨{ settings with verbosity := min (settings.verbosity + 1) 255 }, none⟩
    | .help => .error .help
    | .version => .error .version

/-- Gives the start symbol, or leaves its value to the next argument. -/
def giveStart (draft : Draft) (value : Option String) : Except Stop Draft :=
  draft.settle.bind fun settled =>
    match value with
    | some value => setStart settled.settings value
    | none => .ok { settled with pending := some (.start none) }

def takeName (draft : Draft) (name : String) (value : Option String) : Except Stop Draft :=
  if name = "start" then draft.giveStart value
  else
    match Switch.ofName? name, value with
    | some switch, none => draft.turnOn switch
    | some switch, some value => .error (.usage (.unexpectedValue value (.switch switch)))
    | none, _ => .error (.usage (.unexpectedArgument ("--" ++ name)))

/-- The value that stands behind the letter of the start symbol. -/
def attachedValue : List Char → Option String
  | [] => none
  | '=' :: value => some (String.ofList value)
  | value => some (String.ofList value)

def takeLetters (draft : Draft) : List Char → Except Stop Draft
  | [] => .ok draft
  | letter :: rest =>
      if letter = 's' then draft.giveStart (attachedValue rest)
      else
        match Switch.ofLetter? letter with
        | some switch => (draft.turnOn switch).bind fun next => next.takeLetters rest
        | none =>
            .error (.usage (.unexpectedArgument (String.ofList ['-', letter])))

def hasFile (draft : Draft) : Bool :=
  draft.settings.file.isSome ||
    match draft.pending with
    | some (.file _) => true
    | _ => false

def takeOperand (draft : Draft) (operand : String) : Except Stop Draft :=
  if draft.hasFile then .error (.usage (.unexpectedArgument operand))
  else draft.settle.bind fun settled => .ok { settled with pending := some (.file operand) }

def takePlain (draft : Draft) (argument : String) : Except Stop Draft :=
  match draft.pending with
  | some (.start none) => .ok { draft with pending := some (.start (some argument)) }
  | _ => draft.takeOperand argument

def takeOperands (draft : Draft) : List String → Except Stop Draft
  | [] => .ok draft
  | operand :: rest => (draft.takeOperand operand).bind fun next => next.takeOperands rest

def takeAll (draft : Draft) : List String → Except Stop Draft
  | [] => .ok draft
  | argument :: rest =>
      match Form.ofArgument argument with
      | .separator => draft.takeOperands rest
      | .name name value => (draft.takeName name value).bind fun next => next.takeAll rest
      | .letters cluster => (draft.takeLetters cluster).bind fun next => next.takeAll rest
      | .plain => (draft.takePlain argument).bind fun next => next.takeAll rest

end Draft

def readArguments (arguments : List String) : Except Stop Settings :=
  ((Draft.takeAll ⟨{}, none⟩ arguments).bind Draft.settle).map Draft.settings

end Reading

end LeftRecursion.CommandLine
