/-
Finding the line of a byte agrees with cutting the text into lines.  The number of
the line is one more than the number of line feeds in front of the byte, the line is
the text from the start of its fragment to the start of the next one, and the column
counts from the start of the fragment.  So every span of a document is found in the
line that it was classified in.
-/
import BmakeHighlight.Utf8
import BmakeHighlight.Proofs.LinePlaces
import BmakeHighlight.Proofs.LineTiling

namespace BmakeHighlight

/-- The byte of a line feed. -/
def lineFeedByte : UInt8 := 0x0A

/-- The number of line feeds in the first `offset` bytes of a text.  The offset may fall
inside a character. -/
def Text.lineFeedsBefore (t : Text) (offset : Nat) : Nat :=
  ((encodeUtf8 t).take offset).count lineFeedByte

/-- The offset at which the line behind `n` others starts, and the end of the document where
there is none. -/
def Document.lineStart (d : Document) (n : Nat) : Nat :=
  (d.lines[n]?).elim d.size Fragment.start

section Bytes

variable {s t body : Text}

theorem encodeUtf8_append (s t : Text) : encodeUtf8 (s ++ t) = encodeUtf8 s ++ encodeUtf8 t :=
  List.flatMap_append

theorem length_encodeUtf8 (t : Text) : (encodeUtf8 t).length = t.byteSize := by
  induction t with
  | nil => rfl
  | cons c t ih =>
      have hc : encodeUtf8 (c :: t) = String.utf8EncodeChar c ++ encodeUtf8 t := List.flatMap_cons
      rw [hc, List.length_append, String.length_utf8EncodeChar, ih, Text.byteSize_cons]

/-- Only the line feed itself has the byte: the bytes of the longer forms are all above it. -/
theorem lineFeedByte_not_mem_utf8EncodeChar {c : Char} (hc : c ≠ '\n') :
    lineFeedByte ∉ String.utf8EncodeChar c := by
  have hval : c.val.toNat ≠ 10 := by
    intro hval
    exact hc (Char.ext (UInt32.toNat_inj.1 hval))
  have hbyte : ∀ n : Nat, n % 256 ≠ 10 → lineFeedByte ≠ UInt8.ofNat n := by
    intro n hn heq
    have hnat := congrArg UInt8.toNat heq
    rw [UInt8.toNat_ofNat'] at hnat
    exact hn hnat.symm
  simp only [String.utf8EncodeChar]
  split_ifs <;> simp only [List.mem_cons, List.not_mem_nil, or_false, not_or]
  · exact hbyte _ (by omega)
  · exact ⟨hbyte _ (by omega), hbyte _ (by omega)⟩
  · exact ⟨hbyte _ (by omega), hbyte _ (by omega), hbyte _ (by omega)⟩
  · exact ⟨hbyte _ (by omega), hbyte _ (by omega), hbyte _ (by omega), hbyte _ (by omega)⟩

theorem lineFeedByte_not_mem_encodeUtf8 (h : '\n' ∉ t) : lineFeedByte ∉ encodeUtf8 t := by
  intro hmem
  obtain ⟨c, hc, hbyte⟩ := List.mem_flatMap.1 hmem
  exact lineFeedByte_not_mem_utf8EncodeChar (ne_of_mem_of_not_mem hc h) hbyte

theorem Text.lineFeedsBefore_eq_zero (hbody : '\n' ∉ body) {offset : Nat}
    (hoffset : offset ≤ body.byteSize) (t : Text) : (body ++ t).lineFeedsBefore offset = 0 := by
  rw [← length_encodeUtf8] at hoffset
  rw [lineFeedsBefore, encodeUtf8_append, List.take_append_of_le_length hoffset,
    List.count_eq_zero]
  intro hmem
  exact lineFeedByte_not_mem_encodeUtf8 hbody (List.mem_of_mem_take hmem)

theorem Text.lineFeedsBefore_append_lf (hbody : '\n' ∉ body) (rest : Text) (offset : Nat) :
    Text.lineFeedsBefore (body ++ '\n' :: rest) (byteSize (body ++ ['\n']) + offset) =
      rest.lineFeedsBefore offset + 1 := by
  have hline : (encodeUtf8 (body ++ ['\n'])).count lineFeedByte = 1 := by
    rw [encodeUtf8_append, List.count_append,
      List.count_eq_zero.2 (lineFeedByte_not_mem_encodeUtf8 hbody)]
    rfl
  rw [lineFeedsBefore, List.append_cons body '\n' rest, encodeUtf8_append (body ++ ['\n']),
    ← length_encodeUtf8, List.take_length_add_append, List.count_append, hline, Nat.add_comm]
  rfl

end Bytes

/-- The number of a place counts the line feeds in front of it. -/
theorem number_of_placeAmong? {t : Text} {number offset : Nat} {place : Place}
    (h : placeAmong? number t.rawLines offset = some place) :
    place.number = number + t.lineFeedsBefore offset := by
  induction t using Text.lines_induction generalizing number offset with
  | nil => simp [Text.rawLines, placeAmong?] at h
  | last body hne hbody =>
      rw [Text.rawLines_of_not_mem hne hbody, placeAmong?] at h
      split at h
      · rename_i hoffset
        have hzero := Text.lineFeedsBefore_eq_zero hbody (Nat.le_of_lt hoffset) []
        rw [List.append_nil] at hzero
        rw [hzero, ← Option.some.inj h]
        rfl
      · simp [placeAmong?] at h
  | line body rest hbody ih =>
      rw [Text.rawLines_append_lf hbody, placeAmong?] at h
      split at h
      · rename_i hoffset
        rw [Text.byteSize_append, Text.byteSize_cons, Text.byteSize_nil] at hoffset
        have hlf : Char.utf8Size '\n' = 1 := by decide
        rw [Text.lineFeedsBefore_eq_zero hbody (by omega), ← Option.some.inj h]
        rfl
      · rename_i hoffset
        obtain ⟨behind, rfl⟩ := Nat.exists_eq_add_of_le (Nat.le_of_not_lt hoffset)
        rw [Nat.add_sub_cancel_left] at h
        rw [ih h, Text.lineFeedsBefore_append_lf hbody, Nat.add_assoc, Nat.add_comm 1]

section Lines

variable {d : Document} {front back : List Text} {line : Text} {column : Nat}

theorem exists_of_getElem?_fragmentsOf {lines : List Text} {offset n : Nat} {f : Fragment}
    (h : (fragmentsOf offset lines)[n]? = some f) :
    ∃ front line back, lines = front ++ line :: back ∧ front.length = n ∧
      f = ⟨Text.stripTerminator line, offset + Text.byteSize front.flatten⟩ := by
  induction lines generalizing offset n with
  | nil => simp [fragmentsOf] at h
  | cons first lines ih =>
      rw [fragmentsOf] at h
      cases n with
      | zero =>
          rw [List.getElem?_cons_zero, Option.some.injEq] at h
          exact ⟨[], first, lines, rfl, rfl, h.symm⟩
      | succ n =>
          rw [List.getElem?_cons_succ] at h
          obtain ⟨front, line, back, rfl, rfl, rfl⟩ := ih h
          refine ⟨first :: front, line, back, rfl, rfl, ?_⟩
          rw [List.flatten_cons, Text.byteSize_append, Nat.add_assoc]

namespace Document

theorem text_eq_of_rawLines (h : d.text.rawLines = front ++ line :: back) :
    d.text = front.flatten ++ line ++ back.flatten := by
  rw [← d.text.flatten_rawLines, h]
  simp

/-- A line goes up to the start of the next one, or to the end of the document. -/
theorem lineStart_of_rawLines (h : d.text.rawLines = front ++ line :: back) :
    d.lineStart (front.length + 1) = Text.byteSize front.flatten + line.byteSize := by
  cases back with
  | nil =>
      have hnone : d.lines[front.length + 1]? = none := by
        rw [lines, Text.lineFragments, h, List.getElem?_eq_none_iff, length_fragmentsOf,
          List.length_append]
        rfl
      rw [lineStart, hnone, Option.elim_none, size, text_eq_of_rawLines h, Text.byteSize_append,
        Text.byteSize_append, List.flatten_nil, Text.byteSize_nil, Nat.add_zero]
  | cons next back =>
      have hnext := getElem?_fragmentsOf 0 (front ++ [line]) next back
      rw [List.append_assoc, List.singleton_append, ← h, List.length_append,
        List.length_singleton] at hnext
      rw [lineStart, lines, Text.lineFragments, hnext, Option.elim_some, Nat.zero_add,
        List.flatten_append, Text.byteSize_append, List.flatten_singleton]

/-- The line of a place is the text from the start of its fragment to the next start. -/
theorem slice?_of_rawLines (h : d.text.rawLines = front ++ line :: back) :
    d.text.slice? (Text.byteSize front.flatten) (d.lineStart (front.length + 1)) = some line := by
  rw [lineStart_of_rawLines h, Text.slice?_eq_some_iff]
  exact ⟨front.flatten, back.flatten, text_eq_of_rawLines h, rfl, rfl⟩

theorem placeAt?_of_rawLines (h : d.text.rawLines = front ++ line :: back)
    (hcolumn : column < line.byteSize) :
    d.text.placeAt? (Text.byteSize front.flatten + column) =
      some ⟨front.length + 1, line, column⟩ := by
  rw [Text.placeAt?, h, placeAmong?_append_cons hcolumn, Nat.add_comm]

/-- A span is found in the line that it was classified in. -/
theorem placeAt?_of_mem_classify {n : Nat} {f : Fragment} (hline : d.lines[n]? = some f) {s : Span}
    (hs : s ∈ f.classify) :
    ∃ place, d.text.placeAt? s.start = some place ∧ place.number = n + 1 ∧
      f.start + place.column = s.start := by
  obtain ⟨front, line, back, hlines, rfl, rfl⟩ := exists_of_getElem?_fragmentsOf hline
  have hliesIn := (Fragment.wellTagged_classify _).liesIn s hs
  obtain ⟨terminator, hterminator⟩ := line.exists_terminator
  have hsize := congrArg Text.byteSize hterminator
  have hstart := hliesIn.start_le
  have hstop := hliesIn.stop_le
  have hlen := hliesIn.len_pos
  rw [Text.byteSize_append] at hsize
  rw [Span.stop, Fragment.stop] at hstop
  dsimp only at hstart hstop ⊢
  rw [Nat.zero_add] at hstart hstop ⊢
  obtain ⟨column, hcolumn⟩ := Nat.exists_eq_add_of_le hstart
  rw [hcolumn]
  exact ⟨_, placeAt?_of_rawLines hlines (by omega), rfl, rfl⟩

end Document

end Lines

/-- Finding lines agrees with cutting a text into lines.  Every byte of a document has a place, and
nothing behind the end has one.  The number of the place counts the line feeds in front of the
byte; the fragment with this number starts as many bytes in front of it as the column says; and the
line of the place is the text from there to the start of the next fragment, or to the end.  A span
that was classified in a line is found in that line. -/
theorem Document.placeAt?_agrees (d : Document) :
    (∀ offset, d.text.placeAt? offset = none ↔ d.size ≤ offset) ∧
      (∀ offset place, d.text.placeAt? offset = some place →
        place.number = d.text.lineFeedsBefore offset + 1 ∧
          ∃ f, d.lines[place.number - 1]? = some f ∧ f.start + place.column = offset ∧
            d.text.slice? f.start (d.lineStart place.number) = some place.line) ∧
      ∀ n f, d.lines[n]? = some f → ∀ s ∈ f.classify,
        ∃ place, d.text.placeAt? s.start = some place ∧ place.number = n + 1 ∧
          f.start + place.column = s.start := by
  have hnone : ∀ offset, d.text.placeAt? offset = none ↔ d.size ≤ offset := by
    intro offset
    rw [Text.placeAt?, placeAmong?_eq_none_iff, Text.flatten_rawLines, size]
  refine ⟨hnone, ?_, fun n f hf s hs => placeAt?_of_mem_classify hf hs⟩
  intro offset place hplace
  have hoffset : offset < Text.byteSize d.text.rawLines.flatten := by
    rw [Text.flatten_rawLines]
    refine Nat.lt_of_not_le fun hle => ?_
    rw [(hnone offset).2 hle] at hplace
    exact absurd hplace (by simp)
  refine ⟨by rw [number_of_placeAmong? hplace, Nat.add_comm], ?_⟩
  obtain ⟨front, line, back, column, hlines, rfl, hcolumn⟩ := exists_line_of_lt hoffset
  rw [placeAt?_of_rawLines hlines hcolumn, Option.some.injEq] at hplace
  subst hplace
  have hfragment := getElem?_fragmentsOf 0 front line back
  rw [← hlines, Nat.zero_add] at hfragment
  exact ⟨_, hfragment, rfl, slice?_of_rawLines hlines⟩

/-- An offset inside a character of the second line, the carriage return of its terminator, and
the number in the last line, which does not end. -/
theorem Document.placeAt?_agrees_inside_character :
    let d := ofText "é\n\té\r\nx = 1".toList
    d.text.placeAt? 5 = some ⟨2, "\té\r\n".toList, 2⟩ ∧ d.text.lineFeedsBefore 5 = 1 ∧
      d.lines[1]? = some ⟨"\té".toList, 3⟩ ∧ d.text.slice? 3 8 = some "\té\r\n".toList ∧
      d.text.placeAt? 6 = some ⟨2, "\té\r\n".toList, 3⟩ ∧
      ⟨.number, 12, 1⟩ ∈ (⟨"x = 1".toList, 8⟩ : Fragment).classify ∧
      ∃ place, d.text.placeAt? 12 = some place ∧ place.number = 3 ∧ 8 + place.column = 12 := by
  intro d
  have hplace : d.text.placeAt? 5 = some ⟨2, "\té\r\n".toList, 2⟩ := by decide
  have hfragment : d.lines[1]? = some ⟨"\té".toList, 3⟩ := by decide
  have hline : d.lines[2]? = some ⟨"x = 1".toList, 8⟩ := by decide
  have hspan : ⟨.number, 12, 1⟩ ∈ (⟨"x = 1".toList, 8⟩ : Fragment).classify := by decide
  obtain ⟨-, hfound, hspans⟩ := d.placeAt?_agrees
  obtain ⟨hnumber, f, hf, -, hslice⟩ := hfound 5 _ hplace
  change d.lines[1]? = some f at hf
  rw [hfragment, Option.some.injEq] at hf
  subst hf
  refine ⟨hplace, (Nat.succ.inj hnumber).symm, hfragment, hslice, by decide, hspan, ?_⟩
  exact hspans 2 _ hline _ hspan

end BmakeHighlight
