/-
String literals in double quotes.  There are no escapes, and no literal goes
past the end of its line.
-/
import BmakeHighlight.Scan

namespace BmakeHighlight

/-- A character that can stand between the quotes. -/
def isStringChar (c : Char) : Bool :=
  c != '"' && c != '\n' && c != '\r'

/-- A string literal that begins here, quotes included. -/
def stringLiteralHere : Matcher := fun _ t =>
  match t with
  | '"' :: rest =>
      match rest.dropWhile isStringChar with
      | '"' :: _ => some [⟨.stringLiteral, '"' :: (rest.takeWhile isStringChar ++ ['"'])⟩]
      | _ => none
  | _ => none

end BmakeHighlight
