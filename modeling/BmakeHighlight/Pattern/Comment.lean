/-
Comments: a number sign with something after it, up to the end of the line, and
the white space before it.
-/
import BmakeHighlight.Scan
import BmakeHighlight.CharClass.WhiteSpace

namespace BmakeHighlight

/-- A comment that begins here.  Only a line feed ends it; a number sign that is the last
character of its line begins none. -/
def commentHere : Matcher := fun _ t =>
  match t.dropWhile isLineBlank with
  | '#' :: rest =>
      match rest.takeWhile (· != '\n') with
      | [] => none
      | body => some [⟨.comment, t.takeWhile isLineBlank ++ '#' :: body⟩]
  | _ => none

end BmakeHighlight
