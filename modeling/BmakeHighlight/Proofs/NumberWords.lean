/-
The numbers of a fragment.  They are made of its words: a word of decimal digits is a
number, and with just a point between two of them both are one number.  From left to
right every such word is used once.  A word with anything but digits in it has no part
in a number.
-/
import BmakeHighlight.Proofs.LineLocality
import BmakeHighlight.Proofs.SpanBounds

namespace BmakeHighlight

/-- A word: characters that words are made of and the offset of the first. -/
structure Word where
  start : Nat
  text : Text
  ne_nil : text ≠ []
  all_word : ∀ c ∈ text, isWordChar c = true
deriving DecidableEq

/-- The offset just past the word. -/
def Word.stop (w : Word) : Nat :=
  w.start + w.text.byteSize

/-- Are there only decimal digits in the word? -/
def Word.isNumeric (w : Word) : Bool :=
  w.text.all isDecimalDigit

/-- Is this a whole word of the fragment?  It stands in the text at its offset, and neither the
character before it nor the one behind it could be in a word. -/
def Fragment.HasWord (f : Fragment) (w : Word) : Prop :=
  ∃ front back, f.text = front ++ (w.text ++ back) ∧ w.start = f.start + Text.byteSize front ∧
    front.getLast?.any isWordChar = false ∧ startsWithWordChar back = false

/-- The words of a text that starts at `offset`, from left to right.  None begins behind a word
character. -/
def wordsFrom : Nat → Option Char → Text → List Word
  | _, _, [] => []
  | offset, before, c :: t =>
      if h : isWordChar c = true ∧ before.any isWordChar = false then
        ⟨offset, (c :: t).takeWhile isWordChar, by simp [h.1], fun _ => List.mem_takeWhile_imp⟩ ::
          wordsFrom (offset + c.utf8Size) (some c) t
      else wordsFrom (offset + c.utf8Size) (some c) t

/-- The words of a fragment. -/
def Fragment.words (f : Fragment) : List Word :=
  wordsFrom f.start none f.text

/-- Is there just a point between two words? -/
def Fragment.pointBetween (f : Fragment) (a b : Word) : Bool :=
  f.text.slice? (a.stop - f.start) (b.start - f.start) == some ['.']

/-- The number from the start of one word up to the end of another. -/
def numberOver (a b : Word) : Span :=
  ⟨.number, a.start, b.stop - a.start⟩

/-- The numbers that words make up, from left to right.  With just a point in between, a word
is taken together with the next, which is used up by that. -/
def Fragment.numbersOf (f : Fragment) : List Word → List Span
  | [] => []
  | [a] => [numberOver a a]
  | a :: b :: rest =>
      if f.pointBetween a b then numberOver a b :: f.numbersOf rest
      else numberOver a a :: f.numbersOf (b :: rest)

section Words

variable {offset : Nat} {before : Option Char} {t rest : Text} {w : Word}

theorem Word.start_lt_stop (w : Word) : w.start < w.stop :=
  Nat.lt_add_of_pos_right (Nat.pos_of_ne_zero (w.ne_nil ∘ Text.byteSize_eq_zero_iff.1))

theorem Word.isNumeric_iff : w.isNumeric = true ↔ ∀ c ∈ w.text, isDecimalDigit c = true :=
  List.all_eq_true

@[simp] theorem stop_numberOver {a b : Word} (h : a.start ≤ b.stop) :
    (numberOver a b).stop = b.stop :=
  Nat.add_sub_cancel' h

/-- A run that is not continued behind it is found whole. -/
theorem span_append_of_head? {p : Char → Bool} {run : Text} (hrun : ∀ c ∈ run, p c = true)
    (hrest : rest.head?.any p = false) :
    (run ++ rest).takeWhile p = run ∧ (run ++ rest).dropWhile p = rest := by
  cases rest with
  | nil => simpa using hrun
  | cons c rest =>
      have hc : p c = false := hrest
      rw [takeWhile_append_cons_of_neg hc, dropWhile_append_cons_of_neg hc,
        List.takeWhile_eq_self_iff.2 hrun, List.dropWhile_eq_nil_iff.2 hrun]
      exact ⟨rfl, rfl⟩

/-- A run ends before the first character that is not in it. -/
theorem byteSize_takeWhile_lt {p : Char → Bool} {front : Text} {d : Char}
    (hlast : front.getLast? = some d) (hd : p d = false) (back : Text) :
    Text.byteSize ((front ++ back).takeWhile p) < Text.byteSize front := by
  obtain ⟨init, rfl⟩ := List.getLast?_eq_some_iff.1 hlast
  have hsplit : init.takeWhile p ++ init.dropWhile p = init := List.takeWhile_append_dropWhile
  have hpos := d.utf8Size_pos
  rw [List.append_assoc, List.singleton_append, takeWhile_append_cons_of_neg hd,
    Text.byteSize_append]
  conv_rhs => rw [← hsplit]
  rw [Text.byteSize_append, Text.byteSize_cons]
  omega

theorem startsWithWordChar_dropWhile (t : Text) :
    startsWithWordChar (t.dropWhile isWordChar) = false := by
  have hhead := List.head?_dropWhile_not isWordChar t
  rw [startsWithWordChar]
  cases h : (t.dropWhile isWordChar).head? with
  | none => rfl
  | some c =>
      rw [h] at hhead
      simpa using hhead

/-- In the middle of a word no other one begins. -/
theorem wordsFrom_append_of_mid {mid : Text} (hmid : ∀ c ∈ mid, isWordChar c = true)
    (hbefore : before.any isWordChar = true) :
    wordsFrom offset before (mid ++ rest) =
      wordsFrom (offset + Text.byteSize mid) (mid.getLast?.or before) rest := by
  induction mid generalizing offset before with
  | nil => simp
  | cons c mid ih =>
      have hc : (some c).any isWordChar = true := hmid c List.mem_cons_self
      rw [List.cons_append, wordsFrom, dif_neg (by simp [hbefore]),
        ih (fun d hd => hmid d (List.mem_cons_of_mem c hd)) hc, Text.byteSize_cons, Nat.add_assoc,
        getLast?_cons_or]

/-- The first word of a text that begins with one. -/
theorem wordsFrom_append (w : Word) (hbefore : before.any isWordChar = false)
    (hrest : startsWithWordChar rest = false) :
    wordsFrom w.start before (w.text ++ rest) =
      w :: wordsFrom w.stop (w.text.getLast?.or before) rest := by
  obtain ⟨start, text, hne, hall⟩ := w
  have hword : (text ++ rest).takeWhile isWordChar = text := (span_append_of_head? hall hrest).1
  cases text with
  | nil => exact absurd rfl hne
  | cons c text =>
      have hc : isWordChar c = true := hall c List.mem_cons_self
      have hc' : (some c).any isWordChar = true := hc
      rw [List.cons_append] at hword ⊢
      rw [wordsFrom, dif_pos ⟨hc, hbefore⟩,
        wordsFrom_append_of_mid (fun d hd => hall d (List.mem_cons_of_mem c hd)) hc']
      simp only [hword, Word.stop, Text.byteSize_cons, Nat.add_assoc, getLast?_cons_or]

/-- The words of a text are the runs of word characters that cannot be made longer. -/
theorem mem_wordsFrom_iff : w ∈ wordsFrom offset before t ↔
    ∃ front back, t = front ++ (w.text ++ back) ∧ w.start = offset + Text.byteSize front ∧
      (front.getLast?.or before).any isWordChar = false ∧ startsWithWordChar back = false := by
  induction t generalizing offset before with
  | nil => simp [wordsFrom, w.ne_nil]
  | cons c t ih =>
      constructor
      · intro hw
        have hmore : w ∈ wordsFrom (offset + c.utf8Size) (some c) t →
            ∃ front back, c :: t = front ++ (w.text ++ back) ∧
              w.start = offset + Text.byteSize front ∧
              (front.getLast?.or before).any isWordChar = false ∧
              startsWithWordChar back = false := by
          intro hw
          obtain ⟨front, back, ht, hstart, hbefore, hback⟩ := ih.1 hw
          refine ⟨c :: front, back, by rw [ht]; rfl, ?_, ?_, hback⟩
          · rw [hstart, Text.byteSize_cons, Nat.add_assoc]
          · rwa [getLast?_cons_or]
        rw [wordsFrom] at hw
        split at hw
        · rename_i hbegins
          rcases List.mem_cons.1 hw with rfl | hw
          · exact ⟨[], (c :: t).dropWhile isWordChar, List.takeWhile_append_dropWhile.symm, rfl,
              hbegins.2, startsWithWordChar_dropWhile _⟩
          · exact hmore hw
        · exact hmore hw
      · rintro ⟨front, back, ht, hstart, hbefore, hback⟩
        cases front with
        | nil =>
            have hword := wordsFrom_append w hbefore hback
            rw [hstart] at hword
            rw [ht]
            exact hword ▸ List.mem_cons_self
        | cons d front =>
            rw [List.cons_append, List.cons.injEq] at ht
            obtain ⟨rfl, ht⟩ := ht
            rw [getLast?_cons_or] at hbefore
            rw [Text.byteSize_cons, ← Nat.add_assoc] at hstart
            have hw := ih.2 ⟨front, back, ht, hstart, hbefore, hback⟩
            rw [wordsFrom]
            split
            · exact List.mem_cons_of_mem _ hw
            · exact hw

/-- Words are in the order of the text, with something between any two. -/
theorem wordsFrom_pairwise (offset : Nat) (before : Option Char) (t : Text) :
    (wordsFrom offset before t).Pairwise fun a b => a.stop < b.start := by
  induction t generalizing offset before with
  | nil => exact List.Pairwise.nil
  | cons c t ih =>
      rw [wordsFrom]
      split
      · rw [List.pairwise_cons]
        refine ⟨fun w hw => ?_, ih _ _⟩
        obtain ⟨front, back, ht, hstart, hbefore, -⟩ := mem_wordsFrom_iff.1 hw
        -- The character before `w` is in no word, so the first word ends before it.
        rw [Option.or_some, Option.any_some] at hbefore
        have hlt := byteSize_takeWhile_lt List.getLast?_cons hbefore (w.text ++ back)
        rw [List.cons_append, ← ht, Text.byteSize_cons] at hlt
        dsimp only [Word.stop]
        omega
      · exact ih _ _

end Words

section Digits

variable {before : Option Char} {t rest : Text}

/-- A whole word of digits at the front of a text is what counts as a digit word. -/
theorem digitWord?_append {w : Word} (hw : w.isNumeric = true)
    (hrest : startsWithWordChar rest = false) : digitWord? (w.text ++ rest) = some w.text := by
  have hdigit : rest.head?.any isDecimalDigit = false := by
    cases rest with
    | nil => rfl
    | cons c rest =>
        have hc : isWordChar c = false := hrest
        rw [List.head?_cons, Option.any_some, ← Bool.not_eq_true]
        exact fun h => absurd (isWordChar_of_isDecimalDigit h) (by simp [hc])
  obtain ⟨hrun, hbehind⟩ := span_append_of_head? (Word.isNumeric_iff.1 hw) hdigit
  rw [digitWord?, hrun, hbehind]
  split
  · rename_i hnil
    exact absurd hnil w.ne_nil
  · rw [hrest]
    rfl

/-- A digit word is a whole word of digits. -/
theorem exists_word_of_digitWord? {digits : Text} (h : digitWord? (digits ++ rest) = some digits)
    (offset : Nat) :
    ∃ w : Word, w.start = offset ∧ w.text = digits ∧ w.isNumeric = true ∧
      startsWithWordChar rest = false ∧
      (digits ++ rest).dropWhile isDecimalDigit = rest := by
  obtain ⟨hsplit, hne, hall, hback⟩ := digitWord?_eq_some h
  rw [← List.append_cancel_left hsplit] at hback
  exact ⟨⟨offset, digits, hne, fun c hc => isWordChar_of_isDecimalDigit (hall c hc)⟩, rfl, rfl,
    Word.isNumeric_iff.2 hall, hback, (List.append_cancel_left hsplit).symm⟩

theorem numberHere_eq_none (h : numberHere before t = none)
    (hbefore : before.any isWordChar = false) : digitWord? t = none := by
  rw [numberHere, hbefore] at h
  simpa using h

/-- A word at which no number begins is not one of digits. -/
theorem filter_wordsFrom_cons {c : Char} (h : numberHere before (c :: t) = none) (offset : Nat) :
    (wordsFrom offset before (c :: t)).filter Word.isNumeric =
      (wordsFrom (offset + c.utf8Size) (some c) t).filter Word.isNumeric := by
  rw [wordsFrom]
  split
  · rename_i hbegins
    apply List.filter_cons_of_neg
    intro hnumeric
    have hdigits := digitWord?_append hnumeric (startsWithWordChar_dropWhile (c :: t))
    rw [List.takeWhile_append_dropWhile, numberHere_eq_none h hbegins.2] at hdigits
    exact absurd hdigits (by simp)
  · rfl

end Digits

section Numbers

variable {f : Fragment} {ws : List Word} {a b w : Word} {s : Span}

/-- What is between two words. -/
theorem Fragment.pointBetween_iff {front between back : Text}
    (htext : f.text = front ++ (a.text ++ (between ++ (b.text ++ back))))
    (ha : a.start = f.start + Text.byteSize front)
    (hb : b.start = a.stop + Text.byteSize between) :
    f.pointBetween a b = true ↔ between = ['.'] := by
  have hslice : f.text.slice? (a.stop - f.start) (b.start - f.start) = some between := by
    rw [Text.slice?_eq_some_iff]
    refine ⟨front ++ a.text, b.text ++ back, by simp [htext], ?_, ?_⟩
    · rw [Text.byteSize_append, Word.stop]
      omega
    · rw [hb, Word.stop]
      omega
  rw [pointBetween, hslice, beq_iff_eq, Option.some.injEq]

theorem Fragment.start_eq_of_pointBetween (h : f.pointBetween a b = true)
    (ha : f.start ≤ a.start) : b.start = a.stop + 1 := by
  rw [pointBetween, beq_iff_eq, Text.slice?_eq_some_iff] at h
  obtain ⟨front, back, -, -, hstop⟩ := h
  have hpoint : Text.byteSize ['.'] = 1 := by decide
  have hlt := a.start_lt_stop
  omega

/-- A word with no point and word behind it is a number alone. -/
theorem Fragment.numbersOf_cons (h : ∀ b ∈ ws, f.pointBetween a b = false) :
    f.numbersOf (a :: ws) = numberOver a a :: f.numbersOf ws := by
  cases ws with
  | nil => rfl
  | cons b rest =>
      rw [numbersOf, if_neg]
      simpa using h b List.mem_cons_self

theorem spansOf_number_singleton {text : Text} (hb : b.stop = a.start + Text.byteSize text) :
    spansOf a.start [⟨.number, text⟩] = [numberOver a b] := by
  rw [numberOver, hb, Nat.add_sub_cancel_left]
  rfl

/-- The numbers of a text from a word of digits on that has no point and word of digits behind
it. -/
theorem Fragment.numbersOf_words_alone {before : Option Char} {front rest : Text}
    (htext : f.text = front ++ (w.text ++ rest)) (hstart : w.start = f.start + Text.byteSize front)
    (hbefore : before.any isWordChar = false) (hrest : startsWithWordChar rest = false)
    (hnumeric : w.isNumeric = true)
    (hpoint : ∀ behind, rest = '.' :: behind → digitWord? behind = none) :
    f.numbersOf ((wordsFrom w.start before (w.text ++ rest)).filter Word.isNumeric) =
      numberOver w w ::
        f.numbersOf ((wordsFrom w.stop (w.text.getLast?.or before) rest).filter
          Word.isNumeric) := by
  rw [wordsFrom_append w hbefore hrest, List.filter_cons_of_pos hnumeric, numbersOf_cons]
  intro b hb
  obtain ⟨hb, hnumeric'⟩ := List.mem_filter.1 hb
  obtain ⟨between, back, rfl, hstart', -, hback⟩ := mem_wordsFrom_iff.1 hb
  rw [← Bool.not_eq_true, pointBetween_iff htext hstart hstart']
  rintro rfl
  have hnone := hpoint (b.text ++ back) rfl
  rw [digitWord?_append hnumeric' hback] at hnone
  exact absurd hnone (by simp)

/-- The numbers of a text from two words of digits on with a point between them. -/
theorem Fragment.numbersOf_words_joined {before : Option Char} {front rest : Text}
    (htext : f.text = front ++ (a.text ++ '.' :: (b.text ++ rest)))
    (ha : a.start = f.start + Text.byteSize front) (hb : b.start = a.stop + 1)
    (hbefore : before.any isWordChar = false) (hrest : startsWithWordChar rest = false)
    (hnumeric : a.isNumeric = true) (hnumeric' : b.isNumeric = true) :
    f.numbersOf ((wordsFrom a.start before (a.text ++ '.' :: (b.text ++ rest))).filter
        Word.isNumeric) =
      numberOver a b ::
        f.numbersOf ((wordsFrom b.stop (b.text.getLast?.or (some '.')) rest).filter
          Word.isNumeric) := by
  have hpoint : isWordChar '.' = false := by decide
  have hsize : Char.utf8Size '.' = 1 := by decide
  have hbetween : f.pointBetween a b = true :=
    (pointBetween_iff htext ha (by rw [hb, Text.byteSize_cons, hsize, Text.byteSize_nil])).2 rfl
  have hback : startsWithWordChar ('.' :: (b.text ++ rest)) = false := hpoint
  have hbefore' : (some '.').any isWordChar = false := hpoint
  rw [wordsFrom_append a hbefore hback, wordsFrom, dif_neg (by simp [hpoint]), hsize, ← hb,
    wordsFrom_append b hbefore' hrest, List.filter_cons_of_pos hnumeric,
    List.filter_cons_of_pos hnumeric', numbersOf, if_pos hbetween]

/-- The numbers of a text, when the scan has come to an offset of the fragment. -/
theorem Fragment.scan_numberHere (f : Fragment) (offset : Nat) (before : Option Char) (t : Text) :
    ∀ front, f.text = front ++ t → offset = f.start + Text.byteSize front →
      numberHere.scan offset before 0 t =
        f.numbersOf ((wordsFrom offset before t).filter Word.isNumeric) := by
  apply Matcher.scan_induction numberHere_sound
    (motive := fun offset before t spans => ∀ front, f.text = front ++ t →
      offset = f.start + Text.byteSize front →
      spans = f.numbersOf ((wordsFrom offset before t).filter Word.isNumeric))
  · intro offset before front _ _
    rfl
  · intro offset before c t hmiss ih front htext hoffset
    rw [filter_wordsFrom_cons hmiss]
    apply ih (front ++ [c])
    · simp [htext]
    · rw [hoffset, Text.byteSize_append, Text.byteSize_cons, Text.byteSize_nil]
      omega
  · intro offset before pieces rest spans hmatch ih front htext hoffset
    have hmatched : ∀ text, matchedText [⟨.number, text⟩] = text := by simp [matchedText]
    have hrest := ih (front ++ matchedText pieces) (by simp [htext])
      (by rw [hoffset, Text.byteSize_append, Nat.add_assoc])
    obtain ⟨hbefore, digits, hdigits, hpieces⟩ := numberHere_eq_some hmatch
    rcases hpieces with ⟨rfl, hpoint⟩ | ⟨behind, fraction, hbehind, hfraction, rfl⟩
    · rw [hmatched] at hdigits hpoint htext hrest ⊢
      obtain ⟨w, rfl, rfl, hnumeric, hback, hdrop⟩ := exists_word_of_digitWord? hdigits offset
      rw [hdrop] at hpoint
      rw [numbersOf_words_alone htext hoffset hbefore hback hnumeric hpoint, hrest,
        spansOf_number_singleton rfl]
      rfl
    · rw [hmatched] at hdigits hbehind htext hrest ⊢
      rw [List.append_assoc, List.cons_append] at hdigits hbehind htext ⊢
      obtain ⟨a, rfl, rfl, hnumeric, -, hdrop⟩ := exists_word_of_digitWord? hdigits offset
      rw [hdrop, List.cons.injEq] at hbehind
      rw [← hbehind.2] at hfraction
      -- The word of the fraction starts right behind the point.
      obtain ⟨b, hb, rfl, hnumeric', hback, -⟩ := exists_word_of_digitWord? hfraction (a.stop + 1)
      have hstop : b.stop = a.start + Text.byteSize (a.text ++ '.' :: b.text) := by
        have hsize : Char.utf8Size '.' = 1 := by decide
        rw [Text.byteSize_append, Text.byteSize_cons, hsize, Word.stop, hb, Word.stop]
        omega
      rw [numbersOf_words_joined htext hoffset hb hbefore hback hnumeric hnumeric', hrest, ← hstop,
        spansOf_number_singleton hstop, List.getLast?_append, Option.or_assoc, getLast?_cons_or]
      rfl

/-- A number goes from the start of a word to the end of one, which is the same or the next
behind a point. -/
theorem Fragment.exists_words_of_mem_numbersOf (hs : s ∈ f.numbersOf ws) :
    ∃ a ∈ ws, ∃ b ∈ ws, s = numberOver a b ∧ (a = b ∨ f.pointBetween a b = true) := by
  induction ws using Fragment.numbersOf.induct f with
  | case1 => simp [numbersOf] at hs
  | case2 a =>
      rw [numbersOf, List.mem_singleton] at hs
      exact ⟨a, List.mem_cons_self, a, List.mem_cons_self, hs, .inl rfl⟩
  | case3 a b rest hpoint ih =>
      rw [numbersOf, if_pos hpoint] at hs
      rcases List.mem_cons.1 hs with rfl | hs
      · exact ⟨a, by simp, b, by simp, rfl, .inr hpoint⟩
      · obtain ⟨a', ha', b', hb', h⟩ := ih hs
        exact ⟨a', by simp [ha'], b', by simp [hb'], h⟩
  | case4 a b rest hpoint ih =>
      rw [numbersOf, if_neg hpoint] at hs
      rcases List.mem_cons.1 hs with rfl | hs
      · exact ⟨a, List.mem_cons_self, a, List.mem_cons_self, rfl, .inl rfl⟩
      · obtain ⟨a', ha', b', hb', h⟩ := ih hs
        exact ⟨a', List.mem_cons_of_mem a ha', b', List.mem_cons_of_mem a hb', h⟩

/-- Every word is within a number. -/
theorem Fragment.exists_number_of_mem (hws : ws.Pairwise fun a b => a.stop < b.start)
    (hw : w ∈ ws) : ∃ s ∈ f.numbersOf ws, s.start ≤ w.start ∧ w.stop ≤ s.stop := by
  have hself : ∀ w : Word, (numberOver w w).start ≤ w.start ∧ w.stop ≤ (numberOver w w).stop :=
    fun w => ⟨le_rfl, by rw [stop_numberOver w.start_lt_stop.le]⟩
  induction ws using Fragment.numbersOf.induct f with
  | case1 => simp at hw
  | case2 a =>
      rw [List.mem_singleton.1 hw]
      exact ⟨numberOver a a, by simp [numbersOf], hself a⟩
  | case3 a b rest hpoint ih =>
      rw [numbersOf, if_pos hpoint]
      have hab : a.stop < b.start := (List.pairwise_cons.1 hws).1 b List.mem_cons_self
      have ha := a.start_lt_stop
      have hb := b.start_lt_stop
      have hstop : (numberOver a b).stop = b.stop := stop_numberOver (by omega)
      rcases List.mem_cons.1 hw with rfl | hw
      · exact ⟨numberOver w b, List.mem_cons_self, le_rfl, by omega⟩
      · rcases List.mem_cons.1 hw with rfl | hw
        · exact ⟨numberOver a w, List.mem_cons_self, (show a.start ≤ w.start by omega),
            by omega⟩
        · obtain ⟨s, hs, h⟩ := ih hws.of_cons.of_cons hw
          exact ⟨s, List.mem_cons_of_mem _ hs, h⟩
  | case4 a b rest hpoint ih =>
      rw [numbersOf, if_neg hpoint]
      rcases List.mem_cons.1 hw with rfl | hw
      · exact ⟨numberOver w w, List.mem_cons_self, hself w⟩
      · obtain ⟨s, hs, h⟩ := ih hws.of_cons hw
        exact ⟨s, List.mem_cons_of_mem _ hs, h⟩

theorem Fragment.mem_words_iff : w ∈ f.words ↔ f.HasWord w := by
  rw [words, mem_wordsFrom_iff]
  simp only [Option.or_none]
  rfl

/-- Any two words are apart. -/
theorem Fragment.words_apart (ha : a ∈ f.words) (hb : b ∈ f.words) (hne : a ≠ b) :
    a.stop < b.start ∨ b.stop < a.start :=
  apart_of_pairwise (wordsFrom_pairwise _ _ _) ha hb hne

/-- Words that are left out of a list are apart from the numbers that it makes up. -/
theorem Fragment.number_apart (hws : ∀ a ∈ ws, a ∈ f.words) (hw : w ∈ f.words) (hout : w ∉ ws)
    (hs : s ∈ f.numbersOf ws) : s.stop < w.start ∨ w.stop < s.start := by
  obtain ⟨a, ha, b, hb, rfl, hab⟩ := exists_words_of_mem_numbersOf hs
  have haw := words_apart (hws a ha) hw (by rintro rfl; exact hout ha)
  have hbw := words_apart (hws b hb) hw (by rintro rfl; exact hout hb)
  have hlt := w.start_lt_stop
  have hlt' := a.start_lt_stop
  have hlt'' := b.start_lt_stop
  obtain ⟨front, back, -, hstart, -⟩ := mem_words_iff.1 (hws a ha)
  have hnext : a = b ∨ b.start = a.stop + 1 :=
    hab.imp_right fun h => start_eq_of_pointBetween h (by omega)
  have hle : a.start ≤ b.stop := by
    rcases hnext with rfl | hnext
    · exact hlt'.le
    · omega
  rw [stop_numberOver hle]
  change b.stop < w.start ∨ w.stop < a.start
  rcases hnext with rfl | hnext
  · exact haw
  · omega

end Numbers

/-- The numbers of a fragment that no comment opens.  They are the ones that its words of digits
make up, in this order.  Every byte of such a word is in one number, which is the same for all of
the word, and no byte of another word is in any. -/
theorem Fragment.classify_numbers {f : Fragment} (hopens : f.opensWithComment = false) :
    let numbers := f.classify.filter (·.category == .number)
    (∀ w, w ∈ f.words ↔ f.HasWord w) ∧ (f.words.Pairwise fun a b => a.stop < b.start) ∧
      numbers = f.numbersOf (f.words.filter Word.isNumeric) ∧
      ∀ w ∈ f.words,
        (w.isNumeric = true → ∃ s ∈ numbers, ∀ offset, w.start ≤ offset → offset < w.stop →
          numbers.filter (·.covers offset) = [s]) ∧
        (w.isNumeric = false → ∀ s ∈ numbers, ∀ offset, w.start ≤ offset → offset < w.stop →
          s.covers offset = false) := by
  intro numbers
  have hordered : f.words.Pairwise fun a b => a.stop < b.start := wordsFrom_pairwise _ _ _
  have hnumbers : numbers = f.numbersOf (f.words.filter Word.isNumeric) := by
    have hpass : ∀ s : Span, (s.category == .number) = (s.category.pass == .number) := by
      intro s
      cases s.category <;> decide
    have hscan := f.scan_numberHere f.start none f.text [] rfl rfl
    simp only [numbers, hpass]
    rw [filter_classify_pass hopens]
    exact hscan
  refine ⟨fun w => mem_words_iff, hordered, hnumbers, fun w hw => ⟨?_, ?_⟩⟩
  · intro hnumeric
    obtain ⟨s, hs, hstart, hstop⟩ := exists_number_of_mem (f := f) (hordered.filter Word.isNumeric)
      (List.mem_filter.2 ⟨hw, hnumeric⟩)
    rw [← hnumbers] at hs
    refine ⟨s, hs, fun offset hge hlt => ?_⟩
    exact filter_covers_eq_singleton (f.filter_classify_cutFrom .number).pairwise hs
      (Span.covers_iff.2 (by omega))
  · intro hnumeric s hs offset hge hlt
    rw [hnumbers] at hs
    have hapart := number_apart (fun a ha => List.mem_of_mem_filter ha) hw
      (by simp [hnumeric]) hs
    rw [← Bool.not_eq_true, Span.covers_iff]
    omega

/-- Chains of points, a fraction with a letter in it, a digit of another script, a digit with a
combining mark, and points at which no number goes on. -/
theorem Fragment.classify_numbers_chain :
    let f : Fragment := ⟨"1.2.3.4 1.2a ٣.4\u0301 x.5.".toList, 7⟩
    let numbers := f.classify.filter (·.category == .number)
    let three : Word := ⟨11, ['3'], by decide, List.all_eq_true.1 (by decide)⟩
    let marked : Word := ⟨23, ['4', '\u0301'], by decide, List.all_eq_true.1 (by decide)⟩
    f.opensWithComment = false ∧
      numbers = [⟨.number, 7, 3⟩, ⟨.number, 11, 3⟩, ⟨.number, 15, 1⟩, ⟨.number, 20, 2⟩,
        ⟨.number, 29, 1⟩] ∧
      (f.HasWord three ∧ three.isNumeric = true ∧
        ∃ s ∈ numbers, numbers.filter (·.covers 11) = [s]) ∧
      f.HasWord marked ∧ marked.isNumeric = false ∧ ∀ s ∈ numbers, s.covers 23 = false := by
  intro f numbers three marked
  have hopens : f.opensWithComment = false := by decide
  have hthree : three ∈ f.words := by decide
  have hmarked : marked ∈ f.words := by decide
  obtain ⟨hwords, -, hnumbers, hcovers⟩ := classify_numbers hopens
  obtain ⟨s, hs, honly⟩ := (hcovers three hthree).1 (by decide)
  refine ⟨hopens, hnumbers.trans (by decide), ⟨(hwords three).1 hthree, by decide, s, hs, ?_⟩,
    (hwords marked).1 hmarked, by decide, fun s hs => ?_⟩
  · exact honly 11 (by decide) (by decide)
  · exact (hcovers marked hmarked).2 (by decide) s hs 23 (by decide) (by decide)

end BmakeHighlight
