/-
Error reports: what went wrong, in which file and, when the place is known, the
line it is about with a caret under it.
-/
import BmakeHighlight.Error
import BmakeHighlight.Line
import BmakeHighlight.Text.Trim

namespace BmakeHighlight

/-- A blank that can indent a line. -/
def isIndent (c : Char) : Bool :=
  c == ' ' || c == '\t'

/-- The first line of a report: the error's name, and its tip or else its message. -/
def Error.headline (e : Error) : Text :=
  "Error: ".toList ++ e.cause.name ++ " (".toList ++ e.cause.tip?.getD e.cause.message ++
    [')', '\n']

/-- The line of a place without indentation and without white space at its end. -/
def Place.shownLine (p : Place) : Text :=
  Text.trimEnd (p.line.dropWhile isIndent)

/-- How far to the right of the first shown character the caret stands.  A place in the
indentation has its caret at the first one. -/
def Place.caretColumn (p : Place) : Nat :=
  p.column - (p.line.takeWhile isIndent).length

/-- The widest field that text can be padded to.  Asked for a wider one, the formatter crashes. -/
def widestField : Nat := 65535

/-- Is the field that ends in the caret narrow enough? -/
def Place.hasCaret (p : Place) : Bool :=
  p.caretColumn + 1 ≤ widestField

/-- The excerpt for a place: an empty row, the line with its number, and the caret.  The
bars stand in one column.  A caret that is too far to the right has no row. -/
def Place.excerpt (p : Place) : Text :=
  let number := decimal p.number
  let bar := Text.padLeft ' ' (number.length + 2) ['|']
  bar ++ '\n' :: number ++ [' ', '|', ' '] ++ p.shownLine ++ '\n' ::
    if p.hasCaret then bar ++ ' ' :: Text.padLeft '-' (p.caretColumn + 1) ['^'] ++ ['\n']
    else []

/-- The place in the source that a report shows.  It needs the file's text and an error that
points into it. -/
def Error.place? (e : Error) (source? : Option Text) : Option Place := do
  let source ← source?
  let offset ← e.offset?
  source.placeAt? offset

/-- The report of an error in a file, with an excerpt for the place that it shows. -/
def Error.report (e : Error) (file : Text) (source? : Option Text) : Text :=
  e.headline ++ "-> ".toList ++ file ++ '\n' ::
    match e.place? source? with
    | some place => place.excerpt
    | none => []

/-- Does the report break off in front of the caret? -/
def Error.breaksOff (e : Error) (source? : Option Text) : Bool :=
  (e.place? source?).any (!·.hasCaret)

end BmakeHighlight
