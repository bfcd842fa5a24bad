/-
Operators in conditions and assignments.
-/
import BmakeHighlight.Scan

namespace BmakeHighlight

/-- The operators.  Where several begin at one place, the first of them counts. -/
def operatorSpellings : List Text :=
  [['|', '|'], ['&', '&'], ['!', '='], ['='], ['+']]

/-- An operator that begins here. -/
def operatorHere : Matcher := fun _ t =>
  (operatorSpellings.find? fun w => (Text.after? w t).isSome).map fun w => [⟨.operator, w⟩]

end BmakeHighlight
