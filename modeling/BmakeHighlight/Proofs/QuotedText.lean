/-
Quoted texts read back.  Between the quotes every character stands for itself, or a
backslash begins an escape: a letter for one of the short ones, or a code point in
hexadecimal.  Reading undoes quoting, and a quoted text has neither line feeds nor
tabs in it.
-/
import BmakeHighlight.Text.Quoted

namespace BmakeHighlight

/-- The character that a short escape stands for, by what follows the backslash. -/
def shortEscape? : Char → Option Char
  | '0' => some '\x00'
  | 't' => some '\t'
  | 'n' => some '\n'
  | 'r' => some '\r'
  | '"' => some '"'
  | '\\' => some '\\'
  | _ => none

/-- The value of a hexadecimal digit in lower case. -/
def hexDigit? (c : Char) : Option Nat :=
  (List.range 16).find? fun d => d.digitChar == c

/-- What a reader of escapes is in the middle of: characters that stand for themselves, an
escape that has only begun, one that will be a code point, or the digits of a code point. -/
inductive EscapeReader where
  | plain
  | backslash
  | letter
  | digits (value : Nat)
deriving DecidableEq, Repr

namespace EscapeReader

/-- Reads a character: the one that is complete now, if any, and the reader afterwards.  There
is no result when the character cannot stand here; a quote has to be escaped. -/
def read (reader : EscapeReader) (c : Char) : Option (Option Char × EscapeReader) :=
  match reader with
  | .plain =>
      if c = '\\' then some (none, .backslash)
      else if c = '"' then none
      else some (some c, .plain)
  | .backslash =>
      if c = 'u' then some (none, .letter)
      else (shortEscape? c).map fun found => (some found, .plain)
  | .letter => if c = '{' then some (none, .digits 0) else none
  | .digits value =>
      if c = '}' then some (some (Char.ofNat value), .plain)
      else (hexDigit? c).map fun digit => (none, .digits (16 * value + digit))

/-- Reads a text that does not end within an escape. -/
def readAll : EscapeReader → Text → Option Text
  | .plain, [] => some []
  | _, [] => none
  | reader, c :: t =>
      match reader.read c with
      | some (found?, next) => (next.readAll t).map (found?.toList ++ ·)
      | none => none

section ReadAll

variable {reader next : EscapeReader} {c found : Char}

/-- A character that completes none. -/
theorem readAll_of_none (h : reader.read c = some (none, next)) (t : Text) :
    reader.readAll (c :: t) = next.readAll t := by
  simp [readAll, h]

/-- A character that completes one. -/
theorem readAll_of_some (h : reader.read c = some (some found, next)) (t : Text) :
    reader.readAll (c :: t) = (next.readAll t).map (found :: ·) := by
  rw [readAll, h]
  rfl

end ReadAll

end EscapeReader

/-- The text that a quoted text stands for. -/
def Text.unquoted? : Text → Option Text
  | '"' :: t => if t.getLast? = some '"' then EscapeReader.plain.readAll t.dropLast else none
  | _ => none

section Digits

variable {base n : Nat} {c : Char}

theorem exists_digitChar_of_mem_toDigits (hbase : 1 < base) (hc : c ∈ Nat.toDigits base n) :
    ∃ d < base, c = d.digitChar := by
  induction n using Nat.strongRecOn with
  | ind n ih =>
      rw [Nat.toDigits_eq_if hbase] at hc
      split at hc
      · rename_i hlt
        exact ⟨n, hlt, List.mem_singleton.1 hc⟩
      · rename_i hge
        rcases List.mem_append.1 hc with hc | hc
        · exact ih (n / base) (Nat.div_lt_self (by omega) hbase) hc
        · exact ⟨n % base, Nat.mod_lt n (by omega), List.mem_singleton.1 hc⟩

theorem not_mem_toDigits (hbase : 1 < base) (hc : ∀ d : Nat, d.digitChar ≠ c) (n : Nat) :
    c ∉ Nat.toDigits base n := by
  intro hmem
  obtain ⟨d, -, hd⟩ := exists_digitChar_of_mem_toDigits hbase hmem
  exact hc d hd.symm

end Digits

/-- A character is written in one of three ways: as a short escape, as its code point, or, when
it is none of those that have a meaning in quotes or a listing, as itself. -/
theorem escapeChar_cases (c : Char) :
    (∃ letter, letter ≠ 'u' ∧ shortEscape? letter = some c ∧ escapeChar c = ['\\', letter]) ∨
      escapeChar c = '\\' :: 'u' :: '{' :: (Nat.toDigits 16 c.toNat ++ ['}']) ∨
      (c ≠ '\\' ∧ c ≠ '"' ∧ c ≠ '\t' ∧ c ≠ '\n') ∧ escapeChar c = [c] := by
  by_cases hshort : c = '\x00' ∨ c = '\t' ∨ c = '\n' ∨ c = '\r' ∨ c = '"' ∨ c = '\\'
  · left
    rcases hshort with rfl | rfl | rfl | rfl | rfl | rfl
    · exact ⟨'0', by decide, rfl, rfl⟩
    · exact ⟨'t', by decide, rfl, rfl⟩
    · exact ⟨'n', by decide, rfl, rfl⟩
    · exact ⟨'r', by decide, rfl, rfl⟩
    · exact ⟨'"', by decide, rfl, rfl⟩
    · exact ⟨'\\', by decide, rfl, rfl⟩
  · simp only [not_or] at hshort
    obtain ⟨hnul, htab, hlf, hcr, hquote, hbackslash⟩ := hshort
    right
    simp only [escapeChar, hnul, htab, hlf, hcr, hquote, hbackslash, or_self, if_false]
    split
    · exact .inl rfl
    · exact .inr ⟨⟨hbackslash, hquote, htab, hlf⟩, rfl⟩

namespace EscapeReader

theorem readAll_digitChar {d : Nat} (hd : d < 16) (value : Nat) (t : Text) :
    (digits value).readAll (d.digitChar :: t) = (digits (16 * value + d)).readAll t := by
  have hdigit : ∀ d < 16, hexDigit? d.digitChar = some d := by decide
  have hclose : d.digitChar ≠ '}' := Nat.digitChar_ne '}' (by decide)
  apply readAll_of_none
  rw [read, if_neg hclose, hdigit d hd]
  rfl

/-- The hexadecimal digits of a number are read as that number. -/
theorem readAll_toDigits (n : Nat) (t : Text) :
    (digits 0).readAll (Nat.toDigits 16 n ++ t) = (digits n).readAll t := by
  induction n using Nat.strongRecOn generalizing t with
  | ind n ih =>
      by_cases hn : n < 16
      · rw [Nat.toDigits_of_lt_base hn, List.singleton_append, readAll_digitChar hn,
          Nat.mul_zero, Nat.zero_add]
      · rw [Nat.toDigits_of_base_le (by decide) (by omega), List.append_assoc,
          ih (n / 16) (by omega), List.singleton_append,
          readAll_digitChar (Nat.mod_lt n (by decide)), Nat.div_add_mod]

/-- An escaped character is read as that character. -/
theorem readAll_escapeChar (c : Char) (t : Text) :
    plain.readAll (escapeChar c ++ t) = (plain.readAll t).map (c :: ·) := by
  have hbackslash : plain.read '\\' = some (none, backslash) := rfl
  rcases escapeChar_cases c with ⟨code, hcode, hshort, heq⟩ | heq | ⟨hplain, heq⟩
  · have hread : backslash.read code = some (some c, plain) := by
      rw [read, if_neg hcode, hshort]
      rfl
    rw [heq, List.cons_append, readAll_of_none hbackslash, List.singleton_append,
      readAll_of_some hread]
  · have hletter : backslash.read 'u' = some (none, letter) := rfl
    have hopen : letter.read '{' = some (none, digits 0) := rfl
    have hclose : (digits c.toNat).read '}' = some (some c, plain) := by
      rw [read, if_pos rfl, Char.ofNat_toNat]
    rw [heq, List.cons_append, readAll_of_none hbackslash, List.cons_append,
      readAll_of_none hletter, List.cons_append, readAll_of_none hopen, List.append_assoc,
      readAll_toDigits, List.singleton_append, readAll_of_some hclose]
  · have hread : plain.read c = some (some c, plain) := by
      rw [read, if_neg hplain.1, if_neg hplain.2.1]
    rw [heq, List.singleton_append, readAll_of_some hread]

theorem readAll_escape (t : Text) : plain.readAll (t.flatMap escapeChar) = some t := by
  induction t with
  | nil => rfl
  | cons c t ih => rw [List.flatMap_cons, readAll_escapeChar, ih, Option.map_some]

end EscapeReader

/-- Neither tabs nor line feeds are left in an escaped character. -/
theorem not_mem_escapeChar {b : Char} (hb : b = '\t' ∨ b = '\n') (c : Char) :
    b ∉ escapeChar c := by
  have hdigit : ∀ d : Nat, d.digitChar ≠ b := by
    rcases hb with rfl | rfl
    · exact fun d => Nat.digitChar_ne '\t' (by decide)
    · exact fun d => Nat.digitChar_ne '\n' (by decide)
  have hdigits : b ∉ Nat.toDigits 16 c.toNat := not_mem_toDigits (by decide) hdigit c.toNat
  rcases escapeChar_cases c with ⟨letter, -, hshort, heq⟩ | heq | ⟨⟨-, -, htab, hlf⟩, heq⟩
  · have hletter : letter ≠ b := by
      rintro rfl
      rcases hb with rfl | rfl <;> exact absurd hshort (by simp [shortEscape?])
    rcases hb with rfl | rfl <;> simp [heq, hletter.symm]
  · rcases hb with rfl | rfl <;> simp [heq, hdigits]
  · rcases hb with rfl | rfl
    · simp [heq, htab.symm]
    · simp [heq, hlf.symm]

namespace Text

/-- Reading a quoted text gives the text. -/
theorem unquoted?_quoted (t : Text) : t.quoted.unquoted? = some t := by
  rw [quoted, unquoted?, List.getLast?_concat, if_pos rfl, List.dropLast_concat,
    EscapeReader.readAll_escape]

theorem not_mem_quoted {b : Char} (hb : b = '\t' ∨ b = '\n') (t : Text) : b ∉ t.quoted := by
  have hescaped : b ∉ t.flatMap escapeChar := by
    rw [List.mem_flatMap]
    rintro ⟨c, -, hc⟩
    exact not_mem_escapeChar hb c hc
  rcases hb with rfl | rfl <;> simp [quoted, hescaped]

end Text

end BmakeHighlight
