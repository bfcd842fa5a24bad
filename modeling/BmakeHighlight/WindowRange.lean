/-
Reading byte windows such as `10..20`.
-/
import BmakeHighlight.Numeral
import BmakeHighlight.Text.Trim

namespace BmakeHighlight

/-- Why a text is no window. -/
inductive WindowRangeError where
  | noDots (text : Text)
  | badStart (error : NumeralError)
  | badEnd (error : NumeralError)
deriving DecidableEq, Repr

/-- The wording of a window error. -/
def WindowRangeError.message : WindowRangeError → Text
  | .noDots text => "expected START..END, got `".toList ++ text ++ ['`']
  | .badStart error => "bad window start: ".toList ++ error.message
  | .badEnd error => "bad window end: ".toList ++ error.message

/-- The parts of a text before and after its first two dots in a row. -/
def Text.splitAtDots? : Text → Option (Text × Text)
  | [] => none
  | '.' :: '.' :: rest => some ([], rest)
  | c :: t => (Text.splitAtDots? t).map fun (front, back) => (c :: front, back)

/-- Reads the two ends of a window, with white space allowed around each.  The start may be
greater than the end. -/
def readWindowRange (t : Text) : Except WindowRangeError (Nat × Nat) :=
  match t.splitAtDots? with
  | none => .error (.noDots t)
  | some (first, second) =>
      match readNumeral first.trim with
      | .error e => .error (.badStart e)
      | .ok start =>
          match readNumeral second.trim with
          | .error e => .error (.badEnd e)
          | .ok stop => .ok (start, stop)

end BmakeHighlight
