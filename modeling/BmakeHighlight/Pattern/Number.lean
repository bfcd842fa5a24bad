/-
Numbers: words made of decimal digits only, with at most one fraction.
-/
import BmakeHighlight.Scan
import BmakeHighlight.CharClass.Word

namespace BmakeHighlight

/-- The digits that a text begins with, when they are a whole word. -/
def digitWord? (t : Text) : Option Text :=
  match t.takeWhile isDecimalDigit with
  | [] => none
  | digits => if startsWithWordChar (t.dropWhile isDecimalDigit) then none else some digits

/-- A number that begins here.  The character before it is no part of a word.  A point
belongs to the number only with a whole word of digits behind it. -/
def numberHere : Matcher := fun before t =>
  if before.any isWordChar then none
  else
    (digitWord? t).map fun digits =>
      match t.dropWhile isDecimalDigit with
      | '.' :: rest =>
          match digitWord? rest with
          | some fraction => [⟨.number, digits ++ '.' :: fraction⟩]
          | none => [⟨.number, digits⟩]
      | _ => [⟨.number, digits⟩]

end BmakeHighlight
