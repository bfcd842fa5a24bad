/-
White space, in the sense of the Unicode property White_Space.
-/
import BmakeHighlight.CharClass.Ranges

namespace BmakeHighlight

/-- The code points with the property White_Space. -/
def whiteSpaceRanges : CodeRanges :=
  [(0x9, 0xD), (0x20, 0x20), (0x85, 0x85), (0xA0, 0xA0), (0x1680, 0x1680), (0x2000, 0x200A),
   (0x2028, 0x2029), (0x202F, 0x202F), (0x205F, 0x205F), (0x3000, 0x3000)]

/-- White space, line ends included. -/
def isWhiteSpace (c : Char) : Bool :=
  whiteSpaceRanges.holds c.toNat

/-- White space that does not end a line.  A carriage return counts. -/
def isLineBlank (c : Char) : Bool :=
  isWhiteSpace c && c != '\n'

end BmakeHighlight
