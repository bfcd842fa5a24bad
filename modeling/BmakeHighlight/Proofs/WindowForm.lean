/-
The texts that name a window: two numerals with two dots between them and white space
around each.  Where a text is of no such form, the error says whether the dots are
missing, or else which of the numerals is wrong, the first one before the second.
-/
import BmakeHighlight.WindowRange
import BmakeHighlight.Proofs.Decimals

namespace BmakeHighlight

/-- A number of 64 bits in decimal digits, with at most one plus sign in front of them. -/
def Text.IsNumeral (t : Text) (n : Nat) : Prop :=
  ∃ digits, (t = digits ∨ t = '+' :: digits) ∧ digits.number? = some n ∧ n < UInt64.size

/-- A numeral with white space around it. -/
def Text.IsPaddedNumeral (t : Text) (n : Nat) : Prop :=
  ∃ w numeral w', t = w ++ numeral ++ w' ∧ (∀ c ∈ w, isWhiteSpace c = true) ∧
    (∀ c ∈ w', isWhiteSpace c = true) ∧ Text.IsNumeral numeral n

/-- Two numerals with two dots between them. -/
def Text.IsWindowRange (t : Text) (start stop : Nat) : Prop :=
  ∃ front back, t = front ++ '.' :: '.' :: back ∧ Text.IsPaddedNumeral front start ∧
    Text.IsPaddedNumeral back stop

/-- The parts of a text around two dots, when there are no two dots in a row before them. -/
structure Text.FirstDots (t front back : Text) : Prop where
  cut : t = front ++ '.' :: '.' :: back
  first : ∀ front' back', t = front' ++ '.' :: '.' :: back' → front.length ≤ front'.length

section Numerals

variable {t : Text} {value n : Nat} {c : Char}

theorem le_ofDigitChars (t : Text) (value : Nat) : value ≤ Nat.ofDigitChars 10 t value := by
  rw [Nat.ofDigitChars_eq_ofDigitChars_zero]
  have hpow : 0 < 10 ^ t.length := Nat.pow_pos (by decide)
  exact Nat.le_add_right_of_le (Nat.le_mul_of_pos_left value hpow)

/-- Digits are read when the number they stand for, behind the digits before them, is not too
large. -/
theorem readDigits_eq_ok_iff (hvalue : value < numeralLimit) :
    readDigits value t = .ok n ↔
      (∀ c ∈ t, c.isDigit = true) ∧ Nat.ofDigitChars 10 t value = n ∧ n < numeralLimit := by
  induction t generalizing value with
  | nil =>
      rw [readDigits, Except.ok.injEq]
      constructor
      · rintro rfl
        exact ⟨by simp, rfl, hvalue⟩
      · exact fun h => h.2.1
  | cons c t ih =>
      rw [readDigits, List.forall_mem_cons, Nat.ofDigitChars_cons, Nat.mul_comm 10]
      by_cases hc : c.isDigit = true
      · rw [if_pos hc]
        dsimp only
        by_cases hlimit : value * 10 + (c.toNat - '0'.toNat) < numeralLimit
        · rw [if_pos hlimit, ih hlimit, and_iff_right hc]
        · have hle := le_ofDigitChars t (value * 10 + (c.toNat - '0'.toNat))
          rw [if_neg hlimit]
          simp only [reduceCtorEq, false_iff, not_and]
          intro _ hn
          omega
      · rw [if_neg hc]
        simp [hc]

theorem readDigits_zero_eq_ok_iff (ht : t ≠ []) :
    readDigits 0 t = .ok n ↔ t.number? = some n ∧ n < UInt64.size := by
  have hlimit : numeralLimit = UInt64.size := by decide
  rw [readDigits_eq_ok_iff (by decide), Text.number?_eq_some_iff, and_iff_right ht, and_assoc,
    hlimit]

theorem ne_plus_of_number? {digits : Text} (h : digits.number? = some n) : '+' ∉ digits := by
  intro hmem
  have hdigit := (Text.number?_eq_some_iff.1 h).2.1 '+' hmem
  exact absurd hdigit (by decide)

/-- What is read is a numeral, and its number. -/
theorem readNumeral_eq_ok_iff : readNumeral t = .ok n ↔ t.IsNumeral n := by
  fun_cases readNumeral t with
  | case1 =>
      simp only [reduceCtorEq, false_iff]
      rintro ⟨digits, rfl | hplus, hnumber, -⟩
      · cases hnumber
      · cases hplus
  | case2 c t =>
      rw [readDigits_zero_eq_ok_iff (List.cons_ne_nil c t)]
      constructor
      · exact fun h => ⟨c :: t, .inr rfl, h⟩
      · rintro ⟨digits, rfl | hplus, hnumber, hn⟩
        · exact absurd List.mem_cons_self (ne_plus_of_number? hnumber)
        · rw [(List.cons.inj hplus).2]
          exact ⟨hnumber, hn⟩
  | case3 t hne hnotPlus =>
      rw [readDigits_zero_eq_ok_iff hne]
      constructor
      · exact fun h => ⟨t, .inl rfl, h⟩
      · rintro ⟨digits, rfl | rfl, hnumber, hn⟩
        · exact ⟨hnumber, hn⟩
        · obtain ⟨c, rest, rfl⟩ :=
            List.exists_cons_of_ne_nil (Text.number?_eq_some_iff.1 hnumber).1
          exact absurd rfl (hnotPlus c rest)

theorem isWhiteSpace_eq_false_of_isDigit (hc : c.isDigit = true) : isWhiteSpace c = false := by
  have hapart : ∀ r ∈ [(0x30, 0x39)], ∀ s ∈ whiteSpaceRanges, r.2 < s.1 ∨ s.2 < r.1 := by decide
  have hdigit : CodeRanges.holds [(0x30, 0x39)] c.toNat = true := by
    obtain ⟨hlo, hhi⟩ := Char.isDigit_iff_toNat.1 hc
    exact (if_pos hhi).trans (decide_eq_true hlo)
  exact CodeRanges.holds_eq_false hapart hdigit

/-- There is neither white space nor a dot in a numeral. -/
theorem Text.IsNumeral.forall_mem (h : t.IsNumeral n) :
    ∀ c ∈ t, isWhiteSpace c = false ∧ c ≠ '.' := by
  obtain ⟨digits, ht, hnumber, -⟩ := h
  have hdigits : ∀ c ∈ digits, isWhiteSpace c = false ∧ c ≠ '.' := by
    intro c hc
    have hdigit := (Text.number?_eq_some_iff.1 hnumber).2.1 c hc
    refine ⟨isWhiteSpace_eq_false_of_isDigit hdigit, ?_⟩
    rintro rfl
    exact absurd hdigit (by decide)
  rcases ht with rfl | rfl
  · exact hdigits
  · exact List.forall_mem_cons.2 ⟨by decide, hdigits⟩

/-- Removing the white space around a numeral leaves the numeral. -/
theorem readNumeral_trim_eq_ok_iff : readNumeral t.trim = .ok n ↔ t.IsPaddedNumeral n := by
  rw [readNumeral_eq_ok_iff]
  constructor
  · intro h
    obtain ⟨w, w', ht, hw, hw'⟩ := t.exists_trim
    exact ⟨w, t.trim, w', ht, hw, hw', h⟩
  · rintro ⟨w, numeral, w', rfl, hw, hw', h⟩
    rwa [Text.trim_append hw hw' fun c hc => (h.forall_mem c hc).1]

/-- There is no dot in a numeral with white space around it. -/
theorem Text.IsPaddedNumeral.dot_not_mem (h : t.IsPaddedNumeral n) : '.' ∉ t := by
  obtain ⟨w, numeral, w', rfl, hw, hw', hnumeral⟩ := h
  intro hmem
  rw [List.mem_append, List.mem_append] at hmem
  have hdot : isWhiteSpace '.' ≠ true := by decide
  rcases hmem with (hmem | hmem) | hmem
  · exact hdot (hw _ hmem)
  · exact (hnumeral.forall_mem _ hmem).2 rfl
  · exact hdot (hw' _ hmem)

theorem Text.isPaddedNumeral_decimal (hn : n < UInt64.size) : Text.IsPaddedNumeral (decimal n) n :=
  ⟨[], decimal n, [], by simp, by simp, by simp, decimal n, .inl rfl, Text.number?_decimal n, hn⟩

end Numerals

namespace Text

variable {t front back : Text} {c : Char}

/-- Two dots behind a character that does not begin with them are two dots in what follows it. -/
theorem exists_cons_of_cut (hc : ∀ rest, c = '.' → t = '.' :: rest → False)
    (h : c :: t = front ++ '.' :: '.' :: back) :
    ∃ front', front = c :: front' ∧ t = front' ++ '.' :: '.' :: back := by
  cases front with
  | nil =>
      obtain ⟨hdot, ht⟩ := List.cons.inj h
      exact (hc back hdot ht).elim
  | cons d front =>
      obtain ⟨rfl, ht⟩ := List.cons.inj h
      exact ⟨front, rfl, ht⟩

theorem ne_of_splitAtDots?_eq_none (h : t.splitAtDots? = none) (front back : Text) :
    t ≠ front ++ '.' :: '.' :: back := by
  fun_induction splitAtDots? t generalizing front with
  | case1 => simp
  | case2 rest => cases h
  | case3 c t hc ih =>
      intro hcut
      obtain ⟨front', -, ht⟩ := exists_cons_of_cut hc hcut
      exact ih (Option.map_eq_none_iff.1 h) front' ht

theorem firstDots_of_splitAtDots? (h : t.splitAtDots? = some (front, back)) :
    t.FirstDots front back := by
  fun_induction splitAtDots? t generalizing front with
  | case1 => cases h
  | case2 rest =>
      obtain ⟨rfl, rfl⟩ := Prod.mk.inj (Option.some.inj h)
      exact ⟨rfl, fun front' _ _ => Nat.zero_le front'.length⟩
  | case3 c t hc ih =>
      obtain ⟨⟨front', back'⟩, hsplit, heq⟩ := Option.map_eq_some_iff.1 h
      obtain ⟨rfl, rfl⟩ := Prod.mk.inj heq
      have hrest := ih hsplit
      refine ⟨by rw [hrest.cut, List.cons_append], ?_⟩
      intro other behind hcut
      obtain ⟨other', rfl, ht⟩ := exists_cons_of_cut hc hcut
      exact Nat.succ_le_succ (hrest.first other' behind ht)

theorem FirstDots.splitAtDots?_eq (h : t.FirstDots front back) :
    t.splitAtDots? = some (front, back) := by
  cases hsplit : t.splitAtDots? with
  | none => exact absurd h.cut (ne_of_splitAtDots?_eq_none hsplit front back)
  | some parts =>
      obtain ⟨front', back'⟩ := parts
      have h' := firstDots_of_splitAtDots? hsplit
      have hlength := Nat.le_antisymm (h.first _ _ h'.cut) (h'.first _ _ h.cut)
      obtain ⟨rfl, hback⟩ := List.append_inj (h.cut.symm.trans h'.cut) hlength
      rw [(List.cons.inj (List.cons.inj hback).2).2]

theorem FirstDots.isInfix (h : t.FirstDots front back) : ['.', '.'] <:+: t :=
  ⟨front, back, by simp [h.cut]⟩

theorem exists_firstDots (h : ['.', '.'] <:+: t) : ∃ front back, t.FirstDots front back := by
  obtain ⟨front, back, ht⟩ := h
  cases hsplit : t.splitAtDots? with
  | none =>
      have hne := ne_of_splitAtDots?_eq_none hsplit front back
      exact absurd (by simpa using ht.symm) hne
  | some parts => exact ⟨parts.1, parts.2, firstDots_of_splitAtDots? hsplit⟩

/-- Behind a part without dots the first two dots are the first ones. -/
theorem firstDots_of_dot_not_mem (h : '.' ∉ front) (back : Text) :
    FirstDots (front ++ '.' :: '.' :: back) front back := by
  refine ⟨rfl, fun front' back' hcut => ?_⟩
  rcases List.append_eq_append_iff.1 hcut with ⟨middle, hfront, -⟩ | ⟨middle, hfront, hmiddle⟩
  · rw [hfront, List.length_append]
    exact Nat.le_add_right _ _
  · cases middle with
    | nil => simp [hfront]
    | cons c middle =>
        rw [List.cons_append, List.cons.injEq] at hmiddle
        rw [hfront, hmiddle.1] at h
        exact absurd (by simp) h

end Text

section Reading

variable {t front back : Text} {start stop : Nat} {reason : NumeralError}

/-- A text without a numeral, white space aside, has an error. -/
theorem exists_readNumeral_eq_error_iff :
    (∃ reason, readNumeral t.trim = .error reason) ↔ ¬ ∃ n, t.IsPaddedNumeral n := by
  simp only [← readNumeral_trim_eq_ok_iff]
  cases readNumeral t.trim with
  | error reason => simp
  | ok n => simp

theorem readWindowRange_of_noDots (h : ¬ ['.', '.'] <:+: t) :
    readWindowRange t = .error (.noDots t) := by
  rw [readWindowRange]
  cases hsplit : t.splitAtDots? with
  | none => rfl
  | some parts => exact absurd (Text.firstDots_of_splitAtDots? hsplit).isInfix h

theorem readWindowRange_of_badStart (hdots : t.FirstDots front back)
    (hstart : readNumeral front.trim = .error reason) :
    readWindowRange t = .error (.badStart reason) := by
  rw [readWindowRange, hdots.splitAtDots?_eq]
  simp only [hstart]

theorem readWindowRange_of_badEnd (hdots : t.FirstDots front back)
    (hstart : front.IsPaddedNumeral start) (hstop : readNumeral back.trim = .error reason) :
    readWindowRange t = .error (.badEnd reason) := by
  rw [readWindowRange, hdots.splitAtDots?_eq]
  simp only [readNumeral_trim_eq_ok_iff.2 hstart, hstop]

theorem readWindowRange_of_isPaddedNumeral (hdots : t.FirstDots front back)
    (hstart : front.IsPaddedNumeral start) (hstop : back.IsPaddedNumeral stop) :
    readWindowRange t = .ok (start, stop) := by
  rw [readWindowRange, hdots.splitAtDots?_eq]
  simp only [readNumeral_trim_eq_ok_iff.2 hstart, readNumeral_trim_eq_ok_iff.2 hstop]

/-- A numeral has no dots, so that the dots behind it are the first ones. -/
theorem readWindowRange_eq_ok_iff :
    readWindowRange t = .ok (start, stop) ↔ t.IsWindowRange start stop := by
  constructor
  · intro h
    rw [readWindowRange] at h
    cases hsplit : t.splitAtDots? with
    | none => simp [hsplit] at h
    | some parts =>
        obtain ⟨front, back⟩ := parts
        cases hstart : readNumeral front.trim with
        | error reason => simp [hsplit, hstart] at h
        | ok first =>
            cases hstop : readNumeral back.trim with
            | error reason => simp [hsplit, hstart, hstop] at h
            | ok second =>
                simp only [hsplit, hstart, hstop, Except.ok.injEq, Prod.mk.injEq] at h
                obtain ⟨rfl, rfl⟩ := h
                exact ⟨front, back, (Text.firstDots_of_splitAtDots? hsplit).cut,
                  readNumeral_trim_eq_ok_iff.1 hstart, readNumeral_trim_eq_ok_iff.1 hstop⟩
  · rintro ⟨front, back, rfl, hstart, hstop⟩
    exact readWindowRange_of_isPaddedNumeral
      (Text.firstDots_of_dot_not_mem hstart.dot_not_mem back) hstart hstop

end Reading

/-- A text is read as the range of a window exactly when it is two numerals of 64 bits with two
dots between them and white space around each.  Where there are no two dots in a row, that is the
error.  Otherwise the text is cut at the first ones, and the error is that of the start if there is
no numeral in front of them, and that of the end only when there is one.  What is written as a range
is read as it was written. -/
theorem readWindowRange_form (t : Text) :
    (∀ start stop, readWindowRange t = .ok (start, stop) ↔ t.IsWindowRange start stop) ∧
      (¬ ['.', '.'] <:+: t → readWindowRange t = .error (.noDots t)) ∧
      (['.', '.'] <:+: t → ∃ front back, t.FirstDots front back ∧
        ((¬ ∃ start, front.IsPaddedNumeral start) →
          ∃ reason, readNumeral front.trim = .error reason ∧
            readWindowRange t = .error (.badStart reason)) ∧
        ((∃ start, front.IsPaddedNumeral start) → (¬ ∃ stop, back.IsPaddedNumeral stop) →
          ∃ reason, readNumeral back.trim = .error reason ∧
            readWindowRange t = .error (.badEnd reason))) ∧
      ∀ start stop, start < UInt64.size → stop < UInt64.size →
        readWindowRange (decimal start ++ ['.', '.'] ++ decimal stop) = .ok (start, stop) := by
  refine ⟨fun start stop => readWindowRange_eq_ok_iff, readWindowRange_of_noDots, ?_, ?_⟩
  · intro hinfix
    obtain ⟨front, back, hdots⟩ := Text.exists_firstDots hinfix
    refine ⟨front, back, hdots, ?_, ?_⟩
    · intro hstart
      obtain ⟨reason, hreason⟩ := exists_readNumeral_eq_error_iff.2 hstart
      exact ⟨reason, hreason, readWindowRange_of_badStart hdots hreason⟩
    · rintro ⟨start, hstart⟩ hstop
      obtain ⟨reason, hreason⟩ := exists_readNumeral_eq_error_iff.2 hstop
      exact ⟨reason, hreason, readWindowRange_of_badEnd hdots hstart hreason⟩
  · intro start stop hstart hstop
    rw [readWindowRange_eq_ok_iff]
    exact ⟨decimal start, decimal stop, by simp, Text.isPaddedNumeral_decimal hstart,
      Text.isPaddedNumeral_decimal hstop⟩

/-- A plus sign, leading zeros, the largest number and wide white space; a single dot; two numerals
that are both wrong; and a third dot, which belongs to the end. -/
theorem readWindowRange_form_dots :
    let padded : Text := "\u3000+007 .. 18446744073709551615\n".toList
    let single : Text := "1.2".toList
    let wrong : Text := "-1..".toList
    let third : Text := "1...2".toList
    (padded.IsWindowRange 7 18446744073709551615 ∧
        readWindowRange padded = .ok (7, 18446744073709551615)) ∧
      (¬ ['.', '.'] <:+: single ∧ readWindowRange single = .error (.noDots single)) ∧
      (['.', '.'] <:+: wrong ∧ readWindowRange wrong = .error (.badStart .invalidDigit)) ∧
      ['.', '.'] <:+: third ∧ readWindowRange third = .error (.badEnd .invalidDigit) := by
  intro padded single wrong third
  have hpadded : padded.IsWindowRange 7 18446744073709551615 := by
    have hwhite : ∀ d, isWhiteSpace d = true → ∀ c ∈ [d], isWhiteSpace c = true := by simp
    refine ⟨"\u3000+007 ".toList, " 18446744073709551615\n".toList, by decide, ?_, ?_⟩
    · exact ⟨['\u3000'], "+007".toList, [' '], by decide, hwhite _ (by decide),
        hwhite _ (by decide), "007".toList, .inr rfl, by decide, by decide⟩
    · exact ⟨[' '], "18446744073709551615".toList, ['\n'], by decide, hwhite _ (by decide),
        hwhite _ (by decide), _, .inl rfl, by decide, by decide⟩
  have hsingle : ¬ ['.', '.'] <:+: single := by
    rintro ⟨front, back, h⟩
    have hsplit : single.splitAtDots? = none := by decide
    exact Text.ne_of_splitAtDots?_eq_none hsplit front back (by simpa using h.symm)
  have hwrong : ['.', '.'] <:+: wrong := ⟨['-', '1'], [], rfl⟩
  have hthird : ['.', '.'] <:+: third := ⟨['1'], ['.', '2'], rfl⟩
  obtain ⟨hok, -⟩ := readWindowRange_form padded
  obtain ⟨-, hnone, -⟩ := readWindowRange_form single
  obtain ⟨-, -, hstart, -⟩ := readWindowRange_form wrong
  obtain ⟨-, -, hend, -⟩ := readWindowRange_form third
  refine ⟨⟨hpadded, (hok _ _).2 hpadded⟩, ⟨hsingle, hnone hsingle⟩, ⟨hwrong, ?_⟩, hthird, ?_⟩
  · obtain ⟨front, back, hdots, hbad, -⟩ := hstart hwrong
    obtain ⟨rfl, rfl⟩ := Prod.mk.inj (Option.some.inj hdots.splitAtDots?_eq)
    have hread : readNumeral (Text.trim ['-', '1']) = .error .invalidDigit := rfl
    obtain ⟨reason, hreason, h⟩ := hbad (exists_readNumeral_eq_error_iff.1 ⟨_, hread⟩)
    rw [h, Except.error.inj (hreason.symm.trans hread)]
  · obtain ⟨front, back, hdots, -, hbad⟩ := hend hthird
    obtain ⟨rfl, rfl⟩ := Prod.mk.inj (Option.some.inj hdots.splitAtDots?_eq)
    have hread : readNumeral (Text.trim ['.', '2']) = .error .invalidDigit := rfl
    have hone : Text.IsPaddedNumeral ['1'] 1 := readNumeral_trim_eq_ok_iff.1 rfl
    obtain ⟨reason, hreason, h⟩ := hbad ⟨1, hone⟩ (exists_readNumeral_eq_error_iff.1 ⟨_, hread⟩)
    rw [h, Except.error.inj (hreason.symm.trans hread)]

end BmakeHighlight
