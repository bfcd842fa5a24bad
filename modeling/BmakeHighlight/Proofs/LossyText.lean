/-
The text shown for bytes.  A byte of ASCII shows as its own character, and any other
byte leaves a character beyond ASCII in the text, be it one that is encoded there or
the replacement character.  So the text is in ASCII exactly when the bytes are.
-/
import Mathlib.Algebra.Group.Nat.Defs
import BmakeHighlight.Utf8

namespace BmakeHighlight

/-- The character of a byte of ASCII. -/
def byteChar (b : UInt8) : Char :=
  Char.ofNat b.toNat

namespace OpenChar

/-- The bits of an open character and of a byte that continues it. -/
def bitsWith (o : OpenChar) (b : UInt8) : Nat :=
  o.bits * 64 + (b.toNat - 0x80)

/-- The least code point that an open character can still become. -/
def floor (o : OpenChar) : Nat :=
  o.bitsWith o.least * 64 ^ (o.owed - 1)

/-- The first code point above all that an open character can still become. -/
def ceiling (o : OpenChar) : Nat :=
  (o.bitsWith o.most + 1) * 64 ^ (o.owed - 1)

/-- An open character that can only become a character beyond ASCII. -/
structure Proper (o : OpenChar) : Prop where
  owed_pos : 0 < o.owed
  beyond : 0x80 ≤ o.floor
  valid : o.ceiling ≤ 0xD800 ∨ 0xE000 ≤ o.floor ∧ o.ceiling ≤ 0x110000

theorem bitsWith_eq (o : OpenChar) (b : UInt8) :
    o.bitsWith b = o.bits * 64 + (b.toNat - 0x80) := rfl

instance (o : OpenChar) : Decidable o.Proper :=
  decidable_of_iff
    (0 < o.owed ∧ 0x80 ≤ o.floor ∧
      (o.ceiling ≤ 0xD800 ∨ 0xE000 ≤ o.floor ∧ o.ceiling ≤ 0x110000))
    ⟨fun ⟨howed, hbeyond, hvalid⟩ => ⟨howed, hbeyond, hvalid⟩,
      fun ⟨howed, hbeyond, hvalid⟩ => ⟨howed, hbeyond, hvalid⟩⟩

/-- Most open characters can become every character with their bits in front. -/
theorem proper_mk {bits owed : Nat} (howed : 0 < owed)
    (hbeyond : 0x80 ≤ bits * 64 * 64 ^ (owed - 1))
    (hvalid : (bits + 1) * 64 * 64 ^ (owed - 1) ≤ 0xD800 ∨
      0xE000 ≤ bits * 64 * 64 ^ (owed - 1) ∧ (bits + 1) * 64 * 64 ^ (owed - 1) ≤ 0x110000) :
    Proper ⟨bits, owed, 0x80, 0xBF⟩ := by
  have hfloor : floor ⟨bits, owed, 0x80, 0xBF⟩ = bits * 64 * 64 ^ (owed - 1) := by
    simp only [floor, bitsWith_eq, UInt8.reduceToNat, Nat.sub_self, Nat.add_zero]
  have hceiling : ceiling ⟨bits, owed, 0x80, 0xBF⟩ = (bits + 1) * 64 * 64 ^ (owed - 1) := by
    simp only [ceiling, bitsWith_eq, UInt8.reduceToNat, Nat.add_mul bits]
  exact ⟨howed, by rwa [hfloor], by rwa [hfloor, hceiling]⟩

end OpenChar

section Characters

variable {b : UInt8} {n : Nat}

theorem toNat_ofNat_of_isValidChar (hn : n.isValidChar) : (Char.ofNat n).toNat = n := by
  rw [Char.ofNat, dif_pos hn]
  rfl

theorem toNat_byteChar (b : UInt8) : (byteChar b).toNat = b.toNat := by
  have hlt := b.toNat_lt
  exact toNat_ofNat_of_isValidChar (.inl (by omega))

theorem byteChar_injective : Function.Injective byteChar := by
  intro b b' h
  rw [← UInt8.toNat_inj, ← toNat_byteChar, h, toNat_byteChar]

theorem beginChar_of_lt (hb : b < 0x80) : beginChar b = ([some (byteChar b)], none) :=
  if_pos hb

theorem toNat_ne {b' : UInt8} (h : b ≠ b') : b.toNat ≠ b'.toNat :=
  mt UInt8.toNat_inj.1 h

/-- The first of three bytes.  Two of them have bounds of their own on the next byte, against
overlong forms and surrogates. -/
theorem proper_three (hleast : ¬ b < 0xE0) (hmost : b < 0xF0) :
    OpenChar.Proper ⟨b.toNat - 0xE0, 2, if b = 0xE0 then 0xA0 else 0x80,
      if b = 0xED then 0x9F else 0xBF⟩ := by
  by_cases hoverlong : b = 0xE0
  · rw [hoverlong]
    decide
  by_cases hsurrogate : b = 0xED
  · rw [hsurrogate]
    decide
  have hoverlong' := toNat_ne hoverlong
  have hsurrogate' := toNat_ne hsurrogate
  rw [if_neg hoverlong, if_neg hsurrogate]
  simp only [UInt8.lt_iff_toNat_lt, UInt8.reduceToNat] at hleast hmost hoverlong' hsurrogate'
  exact OpenChar.proper_mk (by decide) (by omega) (by omega)

/-- The first of four bytes, with bounds against overlong forms and what is behind the last code
point. -/
theorem proper_four (hleast : ¬ b < 0xF0) (hmost : b < 0xF5) :
    OpenChar.Proper ⟨b.toNat - 0xF0, 3, if b = 0xF0 then 0x90 else 0x80,
      if b = 0xF4 then 0x8F else 0xBF⟩ := by
  by_cases hoverlong : b = 0xF0
  · rw [hoverlong]
    decide
  by_cases hlast : b = 0xF4
  · rw [hlast]
    decide
  have hoverlong' := toNat_ne hoverlong
  have hlast' := toNat_ne hlast
  rw [if_neg hoverlong, if_neg hlast]
  simp only [UInt8.lt_iff_toNat_lt, UInt8.reduceToNat] at hleast hmost hoverlong' hlast'
  exact OpenChar.proper_mk (by decide) (by omega) (.inr (by omega))

/-- A byte beyond ASCII begins a character beyond ASCII, or none. -/
theorem beginChar_of_le (hb : 0x80 ≤ b) :
    beginChar b = ([none], none) ∨ ∃ o, beginChar b = ([], some o) ∧ o.Proper := by
  rw [beginChar, if_neg (UInt8.not_lt.2 hb)]
  by_cases h2 : b < 0xC2
  · exact .inl (if_pos h2)
  rw [if_neg h2]
  by_cases h3 : b < 0xE0
  · refine .inr ⟨_, if_pos h3, ?_⟩
    simp only [UInt8.lt_iff_toNat_lt, UInt8.reduceToNat] at h2 h3
    exact OpenChar.proper_mk (by decide) (by omega) (.inl (by omega))
  rw [if_neg h3]
  by_cases h4 : b < 0xF0
  · exact .inr ⟨_, if_pos h4, proper_three h3 h4⟩
  rw [if_neg h4]
  by_cases h5 : b < 0xF5
  · exact .inr ⟨_, if_pos h5, proper_four h4 h5⟩
  · exact .inl (if_neg h5)

end Characters

namespace OpenChar

variable {b : UInt8} {o : OpenChar}

/-- A byte between the bounds narrows down what an open character can become. -/
theorem bounds_bitsWith (hb : o.least ≤ b ∧ b ≤ o.most) :
    o.floor ≤ o.bitsWith b * 64 ^ (o.owed - 1) ∧
      (o.bitsWith b + 1) * 64 ^ (o.owed - 1) ≤ o.ceiling := by
  obtain ⟨hleast, hmost⟩ := hb
  rw [UInt8.le_iff_toNat_le] at hleast hmost
  have hfloor : o.bitsWith o.least ≤ o.bitsWith b := by
    rw [bitsWith_eq, bitsWith_eq]
    omega
  have hceiling : o.bitsWith b + 1 ≤ o.bitsWith o.most + 1 := by
    rw [bitsWith_eq, bitsWith_eq]
    omega
  exact ⟨Nat.mul_le_mul_right _ hfloor, Nat.mul_le_mul_right _ hceiling⟩

theorem decodeByte_of_mem (hb : o.least ≤ b ∧ b ≤ o.most) :
    decodeByte (some o) b =
      if o.owed = 1 then ([some (Char.ofNat (o.bitsWith b))], none)
      else ([], some ⟨o.bitsWith b, o.owed - 1, 0x80, 0xBF⟩) :=
  if_pos hb

/-- The byte that completes an open character makes it a character beyond ASCII. -/
theorem Proper.le_toNat (h : o.Proper) (hb : o.least ≤ b ∧ b ≤ o.most) (howed : o.owed = 1) :
    0x80 ≤ (Char.ofNat (o.bitsWith b)).toNat := by
  obtain ⟨hfloor, hceiling⟩ := bounds_bitsWith hb
  rw [howed, Nat.sub_self, Nat.pow_zero, Nat.mul_one] at hfloor hceiling
  have hbeyond := h.beyond
  have hvalid : (o.bitsWith b).isValidChar := by
    rcases h.valid with hlow | ⟨hlow, hhigh⟩
    · exact .inl (by omega)
    · exact .inr (by omega)
  rw [toNat_ofNat_of_isValidChar hvalid]
  omega

/-- A byte that does not complete it leaves an open character of the same kind. -/
theorem Proper.next (h : o.Proper) (hb : o.least ≤ b ∧ b ≤ o.most) (howed : o.owed ≠ 1) :
    Proper ⟨o.bitsWith b, o.owed - 1, 0x80, 0xBF⟩ := by
  have howed' : 1 < o.owed := by
    have := h.owed_pos
    omega
  obtain ⟨hfloor, hceiling⟩ := bounds_bitsWith hb
  have hpow : 64 ^ (o.owed - 1) = 64 * 64 ^ (o.owed - 1 - 1) := by
    rw [← Nat.pow_succ']
    congr 1
    omega
  rw [hpow, ← Nat.mul_assoc] at hfloor hceiling
  refine proper_mk (Nat.sub_pos_of_lt howed') (Nat.le_trans h.beyond hfloor) ?_
  exact h.valid.imp (Nat.le_trans hceiling) fun hv =>
    ⟨Nat.le_trans hv.1 hfloor, Nat.le_trans hceiling hv.2⟩

/-- Whatever follows it, an open character leaves a gap or a character beyond ASCII. -/
theorem Proper.exists_mem_decodeFrom (h : o.Proper) (bytes : List UInt8) :
    ∃ d ∈ decodeFrom (some o) bytes, 0x80 ≤ (d.getD '\uFFFD').toNat := by
  have hgap : 0x80 ≤ ((none : Option Char).getD '\uFFFD').toNat := by decide
  induction bytes generalizing o with
  | nil => exact ⟨none, by simp [decodeFrom], hgap⟩
  | cons b bytes ih =>
      rw [decodeFrom]
      by_cases hb : o.least ≤ b ∧ b ≤ o.most
      · rw [decodeByte_of_mem hb]
        by_cases howed : o.owed = 1
        · rw [if_pos howed]
          refine ⟨_, List.mem_cons_self, ?_⟩
          rw [Option.getD_some]
          exact h.le_toNat hb howed
        · rw [if_neg howed]
          exact ih (h.next hb howed)
      · rw [decodeByte, if_neg hb]
        exact ⟨none, List.mem_cons_self, hgap⟩

end OpenChar

section Shown

variable {bytes : List UInt8} {b : UInt8}

theorem decodeFrom_cons_of_lt (hb : b < 0x80) (bytes : List UInt8) :
    decodeFrom none (b :: bytes) = some (byteChar b) :: decodeFrom none bytes := by
  rw [decodeFrom, decodeByte, beginChar_of_lt hb]
  rfl

/-- ASCII is decoded byte by byte. -/
theorem decodeFrom_of_lt (h : ∀ b ∈ bytes, b < 0x80) :
    decodeFrom none bytes = bytes.map fun b => some (byteChar b) := by
  induction bytes with
  | nil => rfl
  | cons b bytes ih =>
      rw [List.forall_mem_cons] at h
      rw [decodeFrom_cons_of_lt h.1, ih h.2, List.map_cons]

/-- A text of ASCII is shown byte by byte. -/
theorem decodeUtf8Lossy_of_lt (h : ∀ b ∈ bytes, b < 0x80) :
    decodeUtf8Lossy bytes = bytes.map byteChar := by
  rw [decodeUtf8Lossy, decodeFrom_of_lt h, List.map_map]
  rfl

theorem decodeUtf8Lossy_cons_of_lt (hb : b < 0x80) (bytes : List UInt8) :
    decodeUtf8Lossy (b :: bytes) = byteChar b :: decodeUtf8Lossy bytes := by
  rw [decodeUtf8Lossy, decodeFrom_cons_of_lt hb]
  rfl

/-- A byte beyond ASCII shows. -/
theorem exists_mem_decodeUtf8Lossy (h : ∃ b ∈ bytes, 0x80 ≤ b) :
    ∃ c ∈ decodeUtf8Lossy bytes, 0x80 ≤ c.toNat := by
  induction bytes with
  | nil => simp at h
  | cons b bytes ih =>
      by_cases hb : b < 0x80
      · obtain ⟨b', hmem, hb'⟩ := h
        have hrest : b' ∈ bytes := by
          refine (List.mem_cons.1 hmem).resolve_left ?_
          rintro rfl
          exact UInt8.not_le.2 hb hb'
        obtain ⟨c, hc, hbeyond⟩ := ih ⟨b', hrest, hb'⟩
        rw [decodeUtf8Lossy_cons_of_lt hb]
        exact ⟨c, List.mem_cons_of_mem _ hc, hbeyond⟩
      · have hsome : ∃ d ∈ decodeFrom none (b :: bytes), 0x80 ≤ (d.getD '\uFFFD').toNat := by
          rw [decodeFrom, decodeByte]
          rcases beginChar_of_le (UInt8.not_lt.1 hb) with hbegin | ⟨o, hbegin, ho⟩
          · rw [hbegin]
            exact ⟨none, List.mem_cons_self, by decide⟩
          · rw [hbegin]
            exact ho.exists_mem_decodeFrom bytes
        obtain ⟨d, hd, hbeyond⟩ := hsome
        exact ⟨_, List.mem_map_of_mem hd, hbeyond⟩

end Shown

end BmakeHighlight
