/-
Paths as byte strings with `/` between their parts, and the extension of the
file they name.
-/
import BmakeHighlight.Utf8

namespace BmakeHighlight

/-- A path.  Its bytes need not be valid UTF-8. -/
structure Path where
  bytes : List UInt8
deriving DecidableEq, Repr

/-- One part of a path. -/
abbrev PathPart := List UInt8

/-- The part that stays where it is. -/
def PathPart.here : PathPart := [0x2E]

/-- The part that goes up. -/
def PathPart.up : PathPart := [0x2E, 0x2E]

/-- Does the part name nothing of its own? -/
def PathPart.isIdle (part : PathPart) : Bool :=
  part == [] || part == PathPart.here

/-- The path written as this text. -/
def Path.ofText (t : Text) : Path :=
  ⟨encodeUtf8 t⟩

/-- The path for display. -/
def Path.display (p : Path) : Text :=
  decodeUtf8Lossy p.bytes

/-- The parts between the slashes. -/
def Path.parts (p : Path) : List PathPart :=
  fieldsOf 0x2F p.bytes

/-- The last part that is not idle, unless it goes up. -/
def Path.fileName? (p : Path) : Option PathPart :=
  match p.parts.reverse.dropWhile PathPart.isIdle with
  | [] => none
  | name :: _ => if name = PathPart.up then none else some name

/-- What follows the last dot of a name.  A name without a dot, or with its only dot in
front, has no extension. -/
def PathPart.extension? (name : PathPart) : Option PathPart :=
  match name.reverse.dropWhile (· != 0x2E) with
  | [] => none
  | [_] => none
  | _ => some (name.reverse.takeWhile (· != 0x2E)).reverse

/-- The extension of the file that the path names. -/
def Path.extension? (p : Path) : Option PathPart :=
  p.fileName?.bind PathPart.extension?

end BmakeHighlight
