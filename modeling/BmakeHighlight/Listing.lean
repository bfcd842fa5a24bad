/-
Spans as a table in plain text, one row for each.
-/
import BmakeHighlight.Line
import BmakeHighlight.Span
import BmakeHighlight.Text.Quoted

namespace BmakeHighlight

/-- The row of a span: line and column, counted from one, category, length and quoted
text.  A span past the end of the text has no row. -/
def Span.row (t : Text) (s : Span) : Text :=
  match t.placeAt? s.start with
  | none => []
  | some place =>
      decimal place.number ++ ':' :: decimal (place.column + 1) ++ '\t' :: s.category.name ++
        '\t' :: decimal s.len ++ '\t' :: ((s.text? t).getD []).quoted ++ ['\n']

/-- The rows of all spans. -/
def Text.listing (t : Text) (spans : List Span) : Text :=
  spans.flatMap (Span.row t)

end BmakeHighlight
