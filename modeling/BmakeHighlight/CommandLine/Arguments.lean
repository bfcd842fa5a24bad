/-
Reading the arguments of a command line from left to right.  A value that stands
alone is held back until the next option, flag or file name begins or the
arguments end, and only then looked at; so an argument that fits nowhere is
reported before a bad value in front of it.
-/
import BmakeHighlight.CommandLine.Options

namespace BmakeHighlight

/-- What a command line comes to. -/
inductive Request where
  | classify (options : Options)
  | version
  | help
  | refuse (error : UsageError)
deriving DecidableEq, Repr

/-- The arguments read so far: the values taken in, a parameter whose value is held back or
yet to come, whether a file name has been seen, and whether only file names can
follow. -/
structure Arguments where
  settings : Settings
  held? : Option (Parameter × Option Text)
  fileSeen : Bool
  onlyFiles : Bool
deriving DecidableEq, Repr

/-- No argument read yet. -/
def Arguments.start : Arguments :=
  ⟨.none, none, false, false⟩

/-- Takes in the value that is held back. -/
def Arguments.settle (a : Arguments) : Except UsageError Arguments :=
  match a.held? with
  | none => .ok a
  | some (parameter, none) => .error (.missingValue parameter)
  | some (parameter, some value) =>
      (a.settings.put parameter value).map fun settings => { a with settings, held? := none }

/-- Reading either goes on or is over. -/
abbrev Arguments.Step := Except Request Arguments

/-- Settles and goes on. -/
def Arguments.settled (a : Arguments) (next : Arguments → Arguments.Step) : Arguments.Step :=
  match a.settle with
  | .ok a => next a
  | .error e => .error (.refuse e)

/-- An argument that stands for a file. -/
def Arguments.file (a : Arguments) (arg : Text) : Arguments.Step :=
  if a.fileSeen then .error (.refuse (.unexpectedArgument arg))
  else a.settled fun a => .ok { a with held? := some (.file, some arg), fileSeen := true }

/-- An argument with two dashes: the name behind them, and what stands behind an equals
sign. -/
def Arguments.long (a : Arguments) (name : Text) (value? : Option Text) : Arguments.Step :=
  match Parameter.ofOption? name, value? with
  | some parameter, none => a.settled fun a => .ok { a with held? := some (parameter, none) }
  | some parameter, some value =>
      a.settled fun a =>
        match a.settings.put parameter value with
        | .ok settings => .ok { a with settings }
        | .error e => .error (.refuse e)
  | none, _ =>
      let flag := '-' :: '-' :: name
      let request? : Option Request :=
        if name = "version".toList then some .version
        else if name = "help".toList then some .help
        else none
      match request?, value? with
      | some request, none => a.settled fun _ => .error request
      | some _, some value => .error (.refuse (.unexpectedValue value flag))
      | none, _ => .error (.refuse (.unexpectedArgument flag))

/-- An argument with one dash and this letter behind it. -/
def Arguments.short (a : Arguments) (letter : Char) : Arguments.Step :=
  if letter = 'V' then a.settled fun _ => .error .version
  else if letter = 'h' then a.settled fun _ => .error .help
  else .error (.refuse (.unexpectedArgument ['-', letter]))

/-- An argument without dashes: the value that an option waits for, or else a file. -/
def Arguments.bare (a : Arguments) (arg : Text) : Arguments.Step :=
  match a.held? with
  | some (parameter, none) => .ok { a with held? := some (parameter, some arg) }
  | _ => a.file arg

/-- The name of a long option and its value, around the first equals sign. -/
def splitOption (arg : Text) : Text × Option Text :=
  match arg.dropWhile (· != '=') with
  | [] => (arg, none)
  | _ :: value => (arg.takeWhile (· != '='), some value)

/-- Reads one argument.  Behind two lone dashes everything is a file; one lone dash is
never an option. -/
def Arguments.read (a : Arguments) (arg : Text) : Arguments.Step :=
  if a.onlyFiles then a.file arg
  else
    match arg with
    | ['-', '-'] => .ok { a with onlyFiles := true }
    | '-' :: '-' :: rest =>
        let (name, value?) := splitOption rest
        a.long name value?
    | '-' :: letter :: _ => a.short letter
    | _ => a.bare arg

/-- What the arguments come to once all of them are read. -/
def Arguments.finish (a : Arguments) : Request :=
  match a.settle with
  | .error e => .refuse e
  | .ok a =>
      match a.settings.options? with
      | some options => .classify options
      | none => .refuse .missingFile

/-- What a command line comes to. -/
def Request.ofArguments (args : List Text) : Request :=
  match args.foldlM Arguments.read Arguments.start with
  | .ok a => a.finish
  | .error request => request

end BmakeHighlight
