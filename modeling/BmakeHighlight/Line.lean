/-
The lines of a text as fragments, and the line that a byte offset falls into.
-/
import BmakeHighlight.Fragment

namespace BmakeHighlight

/-- A line without the line feed that ends it, and without a carriage return that then
stands at its end. -/
def Text.stripTerminator (line : Text) : Text :=
  Text.stripLast '\r' (Text.stripLast '\n' line)

/-- Lines laid end to end from an offset on, each as a fragment without its terminator. -/
def fragmentsOf : Nat → List Text → List Fragment
  | _, [] => []
  | offset, line :: rest =>
      ⟨Text.stripTerminator line, offset⟩ :: fragmentsOf (offset + Text.byteSize line) rest

/-- One fragment per line of a text. -/
def Text.lineFragments (t : Text) : List Fragment :=
  fragmentsOf 0 t.rawLines

/-- A place in a text: the number of its line, counted from one, the line with its line
feed, and the byte column, counted from zero. -/
structure Place where
  number : Nat
  line : Text
  column : Nat
deriving DecidableEq, Repr

/-- Finds the line that an offset falls into among lines counted from `number` on. -/
def placeAmong? : Nat → List Text → Nat → Option Place
  | _, [], _ => none
  | number, line :: rest, offset =>
      if offset < Text.byteSize line then some ⟨number, line, offset⟩
      else placeAmong? (number + 1) rest (offset - Text.byteSize line)

/-- The place of a byte offset; none past the end of the text. -/
def Text.placeAt? (t : Text) (offset : Nat) : Option Place :=
  placeAmong? 1 t.rawLines offset

end BmakeHighlight
