/-
Scanning a text for a pattern.  A matcher decides whether the pattern begins at
the current position and which labelled pieces it is made of; the scan tries
every position from left to right and goes on behind each match.
-/
import BmakeHighlight.Span

namespace BmakeHighlight

/-- A part of a match and the category it gets. -/
structure Piece where
  category : Category
  text : Text
deriving DecidableEq, Repr

/-- A pattern.  From the character before the current position and the text after it,
the pieces of the match that begins here, laid end to end. -/
abbrev Matcher := Option Char → Text → Option (List Piece)

/-- The text that a match uses up. -/
def matchedText (pieces : List Piece) : Text :=
  pieces.flatMap Piece.text

/-- The spans of pieces laid end to end from an offset on. -/
def spansOf : Nat → List Piece → List Span
  | _, [] => []
  | offset, p :: rest =>
      ⟨p.category, offset, p.text.byteSize⟩ :: spansOf (offset + p.text.byteSize) rest

/-- The spans of all matches, leftmost first and without overlap.  `skip` characters of
the text still belong to the match before it. -/
def Matcher.scan (m : Matcher) (offset : Nat) (before : Option Char) (skip : Nat) :
    Text → List Span
  | [] => []
  | c :: t =>
      match skip with
      | skip + 1 => Matcher.scan m (offset + c.utf8Size) (some c) skip t
      | 0 =>
          match m before (c :: t) with
          | none => Matcher.scan m (offset + c.utf8Size) (some c) 0 t
          | some pieces =>
              spansOf offset pieces ++
                Matcher.scan m (offset + c.utf8Size) (some c)
                  ((matchedText pieces).length - 1) t

end BmakeHighlight
