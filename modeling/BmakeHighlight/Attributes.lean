/-
Display attributes of a terminal, and texts set off by them.
-/
import BmakeHighlight.Text

namespace BmakeHighlight

/-- The character that begins an escape sequence. -/
def escape : Char := '\x1b'

/-- The sequence that sets these display attributes. -/
def attributeSequence (codes : List Text) : Text :=
  escape :: '[' :: (List.intercalate [';'] codes ++ ['m'])

/-- The sequence that takes all display attributes back. -/
def resetSequence : Text :=
  attributeSequence [['0']]

/-- The text with attributes set before it and taken back behind it. -/
def Text.withAttributes (codes : List Text) (t : Text) : Text :=
  attributeSequence codes ++ t ++ resetSequence

end BmakeHighlight
