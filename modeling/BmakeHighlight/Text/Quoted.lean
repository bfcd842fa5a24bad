/-
Texts in double quotes on one line, with every character that would not show as
itself written as an escape.
-/
import BmakeHighlight.Text
import BmakeHighlight.CharClass.Unprintable
import BmakeHighlight.CharClass.GraphemeExtend

namespace BmakeHighlight

/-- A character inside quotes.  Those with a short escape get it; other unprintable or
combining ones are written as their code point in hexadecimal. -/
def escapeChar (c : Char) : Text :=
  if c = '\x00' then ['\\', '0']
  else if c = '\t' then ['\\', 't']
  else if c = '\n' then ['\\', 'n']
  else if c = '\r' then ['\\', 'r']
  else if c = '"' ∨ c = '\\' then ['\\', c]
  else if isGraphemeExtend c || isUnprintable c then
    ['\\', 'u', '{'] ++ Nat.toDigits 16 c.toNat ++ ['}']
  else [c]

/-- A text in quotes. -/
def Text.quoted (t : Text) : Text :=
  '"' :: (t.flatMap escapeChar ++ ['"'])

end BmakeHighlight
