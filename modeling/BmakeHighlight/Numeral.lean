/-
Reading counts and offsets: decimal numerals that fit into 64 bits.
-/
import BmakeHighlight.Text

namespace BmakeHighlight

/-- Why a text is no numeral. -/
inductive NumeralError where
  | empty
  | invalidDigit
  | tooLarge
deriving DecidableEq, Repr

/-- The wording of a numeral error. -/
def NumeralError.message : NumeralError → Text
  | .empty => "cannot parse integer from empty string".toList
  | .invalidDigit => "invalid digit found in string".toList
  | .tooLarge => "number too large to fit in target type".toList

/-- One more than the largest number read: the 64th power of two. -/
def numeralLimit : Nat := 18446744073709551616

/-- Reads the digits behind those of `value`.  The first character that is no digit, or
that takes the number over the limit, decides the error. -/
def readDigits (value : Nat) : Text → Except NumeralError Nat
  | [] => .ok value
  | c :: t =>
      if c.isDigit then
        let value := value * 10 + (c.toNat - '0'.toNat)
        if value < numeralLimit then readDigits value t else .error .tooLarge
      else .error .invalidDigit

/-- Reads a number: digits with at most one plus sign before them. -/
def readNumeral : Text → Except NumeralError Nat
  | [] => .error .empty
  | '+' :: c :: t => readDigits 0 (c :: t)
  | t => readDigits 0 t

end BmakeHighlight
