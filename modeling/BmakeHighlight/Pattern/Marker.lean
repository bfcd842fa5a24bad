/-
The preprocessor marker: the at sign that keeps a command quiet.
-/
import BmakeHighlight.Scan

namespace BmakeHighlight

/-- A preprocessor marker that begins here. -/
def markerHere : Matcher := fun _ t =>
  match t with
  | '@' :: _ => some [⟨.preprocessorMarker, ['@']⟩]
  | _ => none

end BmakeHighlight
