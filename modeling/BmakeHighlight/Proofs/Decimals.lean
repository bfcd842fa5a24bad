/-
Numbers in decimal digits, read back.
-/
import BmakeHighlight.Text

namespace BmakeHighlight

/-- The number that decimal digits stand for. -/
def Text.number? (t : Text) : Option Nat :=
  if !t.isEmpty && t.all Char.isDigit then some (Nat.ofDigitChars 10 t 0) else none

theorem Text.number?_eq_some_iff {t : Text} {n : Nat} :
    t.number? = some n ↔
      t ≠ [] ∧ (∀ c ∈ t, c.isDigit = true) ∧ Nat.ofDigitChars 10 t 0 = n := by
  rw [number?, Option.ite_none_right_eq_some, Bool.and_eq_true, Bool.not_eq_true',
    List.isEmpty_eq_false_iff, List.all_eq_true, Option.some.injEq, and_assoc]

theorem isDigit_of_mem_decimal {c : Char} {n : Nat} (hc : c ∈ decimal n) : c.isDigit = true :=
  Nat.isDigit_of_mem_toDigits (by decide) (by decide) hc

theorem not_mem_decimal {c : Char} (hc : c.isDigit = false) (n : Nat) : c ∉ decimal n := by
  intro hmem
  rw [isDigit_of_mem_decimal hmem] at hc
  cases hc

theorem Text.number?_decimal (n : Nat) : Text.number? (decimal n) = some n :=
  number?_eq_some_iff.2
    ⟨Nat.toDigits_ne_nil, fun _ hc => isDigit_of_mem_decimal hc, Nat.ofDigitChars_ten_toDigits⟩

end BmakeHighlight
