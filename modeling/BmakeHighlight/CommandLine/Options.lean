/-
What the command line can ask for, and how a wrong command line is answered.
-/
import BmakeHighlight.Path
import BmakeHighlight.WindowRange
import BmakeHighlight.Attributes
import BmakeHighlight.Text.Unstyled

namespace BmakeHighlight

/-- What is printed: the list of spans, or the text in colour. -/
inductive OutputMode where
  | spans
  | highlight
deriving DecidableEq, Repr

/-- The mode with a given name. -/
def OutputMode.ofName? (name : Text) : Option OutputMode :=
  if name = "spans".toList then some .spans
  else if name = "highlight".toList then some .highlight
  else none

/-- A command line that asks for a file to be classified. -/
structure Options where
  file : Path
  mode : OutputMode
  workers : Nat
  window? : Option (Nat × Nat)
deriving DecidableEq, Repr

/-- A value that the command line can give. -/
inductive Parameter where
  | file
  | mode
  | workers
  | window
deriving DecidableEq, Repr

/-- The option, with its two dashes left out, that gives a value. -/
def Parameter.ofOption? (name : Text) : Option Parameter :=
  if name = "mode".toList then some .mode
  else if name = "workers".toList then some .workers
  else if name = "window".toList then some .window
  else none

/-- How a parameter is written in messages. -/
def Parameter.label : Parameter → Text
  | .file => "<FILE>".toList
  | .mode => "--mode <MODE>".toList
  | .workers => "--workers <WORKERS>".toList
  | .window => "--window <START..END>".toList

/-- What is wrong with a command line. -/
inductive UsageError where
  | unexpectedArgument (arg : Text)
  | unexpectedValue (value flag : Text)
  | missingValue (parameter : Parameter)
  | repeated (parameter : Parameter)
  | invalidValue (value : Text) (parameter : Parameter) (reason? : Option Text)
  | missingFile
deriving DecidableEq, Repr

/-- What the user typed, set off in a message. -/
def Text.typed (t : Text) : Text :=
  t.withAttributes [['3', '3']]

/-- The wording of a usage error, for a terminal. -/
def UsageError.message : UsageError → Text
  | .unexpectedArgument arg => "unexpected argument '".toList ++ arg.typed ++ "' found".toList
  | .unexpectedValue value flag =>
      "unexpected value '".toList ++ value.typed ++ "' for '".toList ++ flag ++
        "' found; no more were expected".toList
  | .missingValue parameter =>
      "a value is required for '".toList ++ parameter.label ++ "' but none was supplied".toList
  | .repeated parameter =>
      "the argument '".toList ++ parameter.label ++ "' cannot be used multiple times".toList
  | .invalidValue value parameter reason? =>
      "invalid value '".toList ++ value.typed ++ "' for '".toList ++ parameter.label ++ ['\''] ++
        match reason? with
        | some reason => ": ".toList ++ reason
        | none => []
  | .missingFile => "the following required arguments were not provided:".toList

/-- The advice below every usage error, for a terminal. -/
def usageAdvice : Text :=
  "\n\nFor more information, try '".toList ++ Text.typed "--help".toList ++ "'.\n".toList

/-- The first line of the answer to a wrong command line, for plain output.  A control
string that the user typed and did not end takes the line breaks behind it along. -/
def UsageError.headline (e : UsageError) : Text :=
  (Text.unstyled ("error: ".toList ++ e.message ++ usageAdvice)).takeWhile (· != '\n')

/-- The values given so far. -/
structure Settings where
  file? : Option Path
  mode? : Option OutputMode
  workers? : Option Nat
  window? : Option (Nat × Nat)
deriving DecidableEq, Repr

/-- Nothing given yet. -/
def Settings.none : Settings :=
  ⟨.none, .none, .none, .none⟩

/-- Has a value been given for this parameter? -/
def Settings.has (s : Settings) : Parameter → Bool
  | .file => s.file?.isSome
  | .mode => s.mode?.isSome
  | .workers => s.workers?.isSome
  | .window => s.window?.isSome

/-- Takes in the value of a parameter.  A second value is refused before it is looked
at. -/
def Settings.put (s : Settings) (parameter : Parameter) (value : Text) :
    Except UsageError Settings :=
  if s.has parameter then .error (.repeated parameter)
  else
    match parameter with
    | .file =>
        if value.isEmpty then .error (.missingValue .file)
        else .ok { s with file? := some (.ofText value) }
    | .mode =>
        match OutputMode.ofName? value with
        | some mode => .ok { s with mode? := some mode }
        | .none =>
            if value.isEmpty then .error (.missingValue .mode)
            else .error (.invalidValue value .mode .none)
    | .workers =>
        match readNumeral value with
        | .ok workers => .ok { s with workers? := some workers }
        | .error e => .error (.invalidValue value .workers (some e.message))
    | .window =>
        match readWindowRange value with
        | .ok window => .ok { s with window? := some window }
        | .error e => .error (.invalidValue value .window (some e.message))

/-- The options that the values make up.  All but the file have defaults. -/
def Settings.options? (s : Settings) : Option Options :=
  s.file?.map fun file =>
    { file, mode := s.mode?.getD .spans, workers := s.workers?.getD 1, window? := s.window? }

end BmakeHighlight
