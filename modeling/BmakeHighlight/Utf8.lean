/-
UTF-8.  The decoder reads one byte at a time and reports each character, or one
gap for each stretch of bytes that begins like a character and cannot become one.
-/
import BmakeHighlight.Text

namespace BmakeHighlight

/-- The UTF-8 form of a text. -/
def encodeUtf8 (t : Text) : List UInt8 :=
  t.flatMap String.utf8EncodeChar

/-- A character whose first bytes have been read: their bits, the number of bytes still
to come, and the bounds on the next one. -/
structure OpenChar where
  bits : Nat
  owed : Nat
  least : UInt8
  most : UInt8
deriving DecidableEq, Repr

/-- What the decoder reports: a character, or a gap where no character could be read. -/
abbrev Decoded := List (Option Char)

/-- Reads a byte that begins a character.  The bounds on the second byte leave out
overlong forms, surrogates and everything above the last code point. -/
def beginChar (b : UInt8) : Decoded × Option OpenChar :=
  if b < 0x80 then ([some (Char.ofNat b.toNat)], none)
  else if b < 0xC2 then ([none], none)
  else if b < 0xE0 then ([], some ⟨b.toNat - 0xC0, 1, 0x80, 0xBF⟩)
  else if b < 0xF0 then
    ([], some ⟨b.toNat - 0xE0, 2, if b = 0xE0 then 0xA0 else 0x80,
      if b = 0xED then 0x9F else 0xBF⟩)
  else if b < 0xF5 then
    ([], some ⟨b.toNat - 0xF0, 3, if b = 0xF0 then 0x90 else 0x80,
      if b = 0xF4 then 0x8F else 0xBF⟩)
  else ([none], none)

/-- Reads one byte.  A byte that does not continue the open character leaves a gap for it
and begins a new one. -/
def decodeByte : Option OpenChar → UInt8 → Decoded × Option OpenChar
  | none, b => beginChar b
  | some o, b =>
      if o.least ≤ b ∧ b ≤ o.most then
        let bits := o.bits * 64 + (b.toNat - 0x80)
        if o.owed = 1 then ([some (Char.ofNat bits)], none)
        else ([], some ⟨bits, o.owed - 1, 0x80, 0xBF⟩)
      else
        let (found, next) := beginChar b
        (none :: found, next)

/-- Reads the bytes that follow an open character, or none. -/
def decodeFrom (o : Option OpenChar) : List UInt8 → Decoded
  | [] => if o.isSome then [none] else []
  | b :: bytes =>
      let (found, next) := decodeByte o b
      found ++ decodeFrom next bytes

/-- The text with this UTF-8 form, if there is one. -/
def decodeUtf8? (bytes : List UInt8) : Option Text :=
  (decodeFrom none bytes).mapM id

/-- The text for display, with a replacement character for every gap. -/
def decodeUtf8Lossy (bytes : List UInt8) : Text :=
  (decodeFrom none bytes).map (·.getD '\uFFFD')

end BmakeHighlight
