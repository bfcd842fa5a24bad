/-
Drawing a classified text on a terminal, with escape sequences for the styles.
-/
import BmakeHighlight.Layer
import BmakeHighlight.Style
import BmakeHighlight.Attributes

namespace BmakeHighlight

/-- The parameters that choose a colour, after the one that says what for. -/
def Color.codes (purpose : Text) (c : Color) : Text :=
  List.intercalate [';']
    [purpose, ['2'], decimal c.red.toNat, decimal c.green.toNat, decimal c.blue.toNat]

/-- The display attributes of a style. -/
def Style.codes (s : Style) : List Text :=
  (if s.bold then [['1']] else []) ++
    (if s.underline then [['4']] else []) ++
    (s.foreground?.map (Color.codes ['3', '8'])).toList ++
    (s.background?.map (Color.codes ['4', '8'])).toList

/-- A piece of one line in a style, with the attributes set before it and reset behind
it.  Nothing is written for an empty piece. -/
def Style.drawLine (s : Style) (line : Text) : Text :=
  if line.isEmpty then [] else line.withAttributes s.codes

/-- A text in a style.  Every line is drawn on its own, and the line feeds between them
are not styled. -/
def Style.draw (s : Style) (t : Text) : Text :=
  if s.isPlain then t
  else List.intercalate ['\n'] ((fieldsOf '\n' t).map s.drawLine)

/-- One run of a text.  Nothing is drawn when the run splits a character. -/
def Run.draw (t : Text) (styles : StyleTable) (r : Run) : Text :=
  match t.slice? r.start r.stop, r.category? with
  | none, _ => []
  | some part, none => part
  | some part, some k => (styles.get k).draw part

/-- A text with its spans drawn in the styles of their categories. -/
def Text.render (t : Text) (spans : List Span) (styles : StyleTable) : Text :=
  (layer t.byteSize spans).flatMap (Run.draw t styles)

end BmakeHighlight
