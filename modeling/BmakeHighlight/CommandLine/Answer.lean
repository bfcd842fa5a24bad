/-
The answer to a command line: exit code, output and error output.
-/
import BmakeHighlight.CommandLine.Arguments
import BmakeHighlight.Loading
import BmakeHighlight.Rendering
import BmakeHighlight.Listing
import BmakeHighlight.Diagnostic

namespace BmakeHighlight

/-- What the program leaves behind. -/
structure Answer where
  exitCode : Nat
  output : Text
  errors : Text
deriving DecidableEq, Repr

/-- A run that went well. -/
def Answer.success (output : Text) : Answer :=
  ⟨0, output, []⟩

/-- A run that failed on a file.  It crashes when the report breaks off; what the runtime adds to
the report then is left out. -/
def Answer.failure (e : Error) (file : Text) (source? : Option Text) : Answer :=
  ⟨if e.breaksOff source? then 101 else 1, [], e.report file source?⟩

/-- The spans that the options ask for.  A window is classified whole, whatever the number
of workers. -/
def Options.spans (o : Options) (d : Document) : Except Error (List Span) :=
  match o.window? with
  | some (start, stop) => d.classifyWindow start stop
  | none => d.classifyParallel o.workers

/-- The output for the spans of a text. -/
def OutputMode.show (mode : OutputMode) (t : Text) (spans : List Span) : Text :=
  match mode with
  | .spans => t.listing spans
  | .highlight => t.render spans .standard

/-- Classifies a file as the options ask. -/
def Options.answer (o : Options) (read : FileReader) : Answer :=
  match Document.load read o.file with
  | .error e => .failure e o.file.display none
  | .ok d =>
      match o.spans d with
      | .error e => .failure e o.file.display (some d.text)
      | .ok spans => .success (o.mode.show d.text spans)

/-- The program's name and version. -/
def versionText : Text :=
  "bmake-classify 0.1.0\n".toList

/-- A short account of the command line. -/
def helpText : Text :=
  ("Classifies a bmake (`.mke` / `.mki`) file for syntax highlighting\n\n" ++
    "Usage: bmake-classify [OPTIONS] <FILE>\n\n" ++
    "Arguments:\n" ++
    "  <FILE>  The file to classify\n\n" ++
    "Options:\n" ++
    "      --mode <MODE>          What to print: spans (the default) or highlight\n" ++
    "      --workers <WORKERS>    Number of threads used to classify lines\n" ++
    "      --window <START..END>  Classify only this byte window, as a single fragment\n" ++
    "  -h, --help                 Print help\n" ++
    "  -V, --version              Print version\n").toList

/-- The answer to what a command line came to. -/
def Request.answer (r : Request) (read : FileReader) : Answer :=
  match r with
  | .classify options => options.answer read
  | .version => .success versionText
  | .help => .success helpText
  | .refuse e => ⟨2, [], e.headline⟩

end BmakeHighlight
