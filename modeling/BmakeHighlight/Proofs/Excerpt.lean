/-
The excerpt of an error report.  It has three rows: an empty one, the line of the error
without its indentation, and the caret; the last is missing when the caret is too far to
the right.  What stands in front of the line and of the caret is of one width.  The
caret counts the bytes of the line in front of the error, so it is under the character
there when these are all characters of one byte, and too far to the right by the bytes
that the others have more.
-/
import BmakeHighlight.Diagnostic
import BmakeHighlight.Text.Boundaries
import BmakeHighlight.Proofs.Decimals
import BmakeHighlight.Proofs.LinePartition
import BmakeHighlight.Proofs.LinePlaces

namespace BmakeHighlight

namespace Place

/-- What stands in front of the line in an excerpt: its number and a bar. -/
def label (p : Place) : Text :=
  decimal p.number ++ [' ', '|', ' ']

/-- The empty row of an excerpt: a bar above the one in front of the line. -/
def emptyRow (p : Place) : Text :=
  Text.padLeft ' ' ((decimal p.number).length + 2) ['|']

/-- What stands in front of the caret: a bar below the one in front of the line. -/
def margin (p : Place) : Text :=
  p.emptyRow ++ [' ']

/-- The row of a caret at a column. -/
def caretRow (p : Place) (column : Nat) : Text :=
  p.margin ++ List.replicate column '-' ++ ['^']

/-- The column that a character of the line has in an excerpt, when `before` is the part of the
line in front of it.  It counts characters, and the characters of the indentation all have the
first column. -/
def shownColumn (p : Place) (before : Text) : Nat :=
  before.length - (p.line.takeWhile isIndent).length

end Place

/-- The place is that of an offset at which the source has this character, and `before` is the part
of its line in front of the character. -/
structure Place.Holds (p : Place) (source : Text) (offset : Nat) (before : Text) (c : Char) :
    Prop where
  place : source.placeAt? offset = some p
  char : source.slice? offset (offset + c.utf8Size) = some [c]
  line : ∃ after, p.line = before ++ c :: after
  column : Text.byteSize before = p.column

section Sizes

variable {t : Text}

theorem Text.length_le_byteSize (t : Text) : t.length ≤ t.byteSize := by
  induction t with
  | nil => exact Nat.le_refl 0
  | cons c t ih =>
      have hc := c.utf8Size_pos
      rw [List.length_cons, byteSize_cons]
      omega

/-- A text has as many bytes as characters when each character is one byte. -/
theorem Text.byteSize_eq_length_iff : t.byteSize = t.length ↔ ∀ c ∈ t, c.utf8Size = 1 := by
  induction t with
  | nil => simp
  | cons c t ih =>
      have hc := c.utf8Size_pos
      have ht := Text.length_le_byteSize t
      rw [List.forall_mem_cons, ← ih, List.length_cons, byteSize_cons]
      omega

end Sizes

section Indentation

variable {c : Char} {line before after : Text}

theorem utf8Size_of_isIndent (h : isIndent c = true) : c.utf8Size = 1 := by
  have hc : c = ' ' ∨ c = '\t' := by simpa [isIndent] using h
  rcases hc with rfl | rfl <;> decide

theorem isWhiteSpace_of_isIndent (h : isIndent c = true) : isWhiteSpace c = true := by
  have hc : c = ' ' ∨ c = '\t' := by simpa [isIndent] using h
  rcases hc with rfl | rfl <;> decide

/-- The beginning of a line up to a character of the indentation is part of the indentation. -/
theorem isIndent_of_length_le (h : before.length ≤ ((before ++ after).takeWhile isIndent).length) :
    ∀ c ∈ before, isIndent c = true := by
  have hbegins : before <+: (before ++ after).takeWhile isIndent :=
    List.prefix_of_prefix_length_le (List.prefix_append before after)
      (List.takeWhile_prefix isIndent) h
  exact fun c hc => List.all_eq_true.1 List.all_takeWhile c (hbegins.subset hc)

end Indentation

namespace Place

variable {p : Place} {before after : Text} {c : Char}

/-- The caret is to the right of the character by the bytes that the characters in front of it have
more than one each. -/
theorem caretColumn_eq (hline : p.line = before ++ c :: after)
    (hcolumn : Text.byteSize before = p.column) :
    p.caretColumn = p.shownColumn before + (Text.byteSize before - before.length) := by
  have hle := Text.length_le_byteSize before
  rw [caretColumn, shownColumn, ← hcolumn]
  by_cases hindent : before.length ≤ (p.line.takeWhile isIndent).length
  · rw [hline] at hindent ⊢
    have hone : Text.byteSize before = before.length :=
      Text.byteSize_eq_length_iff.2 fun d hd =>
        utf8Size_of_isIndent (isIndent_of_length_le hindent d hd)
    omega
  · omega

/-- The line that is shown is the line less its indentation and the white space at its end. -/
theorem exists_shownLine (p : Place) :
    ∃ w, p.line = p.line.takeWhile isIndent ++ (p.shownLine ++ w) ∧
      ∀ c ∈ w, isWhiteSpace c = true := by
  obtain ⟨w, hw, hwhite⟩ := Text.exists_trimEnd (p.line.dropWhile isIndent)
  refine ⟨w, ?_, hwhite⟩
  rw [shownLine, ← hw, List.takeWhile_append_dropWhile]

/-- A character that is not white space is in the line that is shown, at its column. -/
theorem getElem?_shownLine (hline : p.line = before ++ c :: after) (hc : isWhiteSpace c = false) :
    p.shownLine[p.shownColumn before]? = some c := by
  have hindent : (p.line.takeWhile isIndent).length ≤ before.length := by
    refine Nat.le_of_not_lt fun hlt => ?_
    rw [hline, List.append_cons, ← Nat.succ_le_iff, Nat.succ_eq_add_one,
      ← List.length_singleton, ← List.length_append] at hlt
    have hblank := isIndent_of_length_le hlt c (by simp)
    rw [isWhiteSpace_of_isIndent hblank] at hc
    cases hc
  obtain ⟨w, hw, hwhite⟩ := p.exists_shownLine
  have hat : (p.line.takeWhile isIndent ++ (p.shownLine ++ w))[before.length]? = some c := by
    rw [← hw, hline, List.getElem?_append_right (Nat.le_refl _), Nat.sub_self]
    rfl
  rw [List.getElem?_append_right hindent, ← shownColumn] at hat
  by_cases hshown : p.shownColumn before < p.shownLine.length
  · rwa [List.getElem?_append_left hshown] at hat
  · rw [List.getElem?_append_right (Nat.le_of_not_lt hshown)] at hat
    rw [hwhite c (List.mem_of_getElem? hat)] at hc
    cases hc

/-- The line feed that ends a line is not shown. -/
theorem lf_not_mem_shownLine {t : Text} (hline : p.line ∈ t.rawLines) : '\n' ∉ p.shownLine := by
  rcases Text.lf_not_mem_or_exists_body hline with hlf | ⟨body, hbody, hlf⟩
  · obtain ⟨w, hw, -⟩ := p.exists_shownLine
    intro hmem
    rw [hw] at hlf
    exact hlf (List.mem_append_right _ (List.mem_append_left w hmem))
  · have hdrop : (body ++ ['\n']).dropWhile isIndent = body.dropWhile isIndent ++ ['\n'] := by
      rw [List.dropWhile_append]
      split
      · rename_i hempty
        rw [List.isEmpty_iff.1 hempty]
        rfl
      · rfl
    have hlast : ∀ c ∈ ['\n'], isWhiteSpace c = true := List.forall_mem_singleton.2 (by decide)
    obtain ⟨w, hw, -⟩ := Text.exists_trimEnd (body.dropWhile isIndent)
    intro hmem
    rw [shownLine, hbody, hdrop, Text.trimEnd_append hlast] at hmem
    have hdropped : '\n' ∈ body.dropWhile isIndent := hw ▸ List.mem_append_left w hmem
    exact hlf ((List.dropWhile_sublist isIndent).subset hdropped)

theorem length_label (p : Place) : p.label.length = p.margin.length := by
  simp only [label, margin, emptyRow, Text.padLeft, List.length_append, List.length_replicate,
    List.length_cons, List.length_nil]
  omega

theorem lf_not_mem_emptyRow (p : Place) : '\n' ∉ p.emptyRow := by
  simp [emptyRow, Text.padLeft]

theorem lf_not_mem_label (p : Place) : '\n' ∉ p.label := by
  simp [label, not_mem_decimal]

theorem lf_not_mem_caretRow (p : Place) (column : Nat) : '\n' ∉ p.caretRow column := by
  simp [caretRow, margin, lf_not_mem_emptyRow]

theorem hasCaret_iff : p.hasCaret = true ↔ p.caretColumn < widestField :=
  decide_eq_true_iff

/-- An excerpt is its rows, one after the other. -/
theorem excerpt_eq (p : Place) :
    p.excerpt = p.emptyRow ++ ['\n'] ++ (p.label ++ p.shownLine ++ ['\n']) ++
      if p.caretColumn < widestField then p.caretRow p.caretColumn ++ ['\n'] else [] := by
  have hcaret : Text.padLeft '-' (p.caretColumn + 1) ['^'] =
      List.replicate p.caretColumn '-' ++ ['^'] := rfl
  simp only [excerpt, hcaret, hasCaret_iff, label, caretRow, margin, emptyRow, List.append_assoc,
    List.cons_append, List.nil_append]

/-- The rows of an excerpt. -/
theorem rawLines_excerpt (h : '\n' ∉ p.shownLine) :
    p.excerpt.rawLines =
      [p.emptyRow ++ ['\n'], p.label ++ p.shownLine ++ ['\n']] ++
        if p.caretColumn < widestField then [p.caretRow p.caretColumn ++ ['\n']] else [] := by
  have hline : '\n' ∉ p.label ++ p.shownLine := by
    simp [h, lf_not_mem_label]
  rw [excerpt_eq, List.append_assoc, List.append_assoc, List.singleton_append,
    Text.rawLines_append_lf p.lf_not_mem_emptyRow, List.append_assoc, List.singleton_append,
    Text.rawLines_append_lf hline]
  split
  · rw [Text.rawLines_append_lf (p.lf_not_mem_caretRow _)]
    rfl
  · rfl

/-- A boundary in front of the end is the place of a character. -/
theorem exists_holds {source : Text} {offset : Nat} (hoffset : offset < source.byteSize)
    (hboundary : source.isBoundary offset = true) :
    ∃ (p : Place) (before : Text) (c : Char), p.Holds source offset before c := by
  rw [← source.flatten_rawLines] at hoffset
  obtain ⟨front, line, back, column, hlines, rfl, hcolumn⟩ := exists_line_of_lt hoffset
  obtain ⟨inFront, behind, hcut, hsize⟩ := Text.isBoundary_iff.1 hboundary
  have hsource : source = front.flatten ++ (line ++ back.flatten) := by
    rw [← source.flatten_rawLines, hlines]
    simp
  obtain ⟨before, rfl, hbehind⟩ :=
    Text.exists_append_of_byteSize_le (hsource.symm.trans hcut) (by omega)
  rw [Text.byteSize_append, Nat.add_left_cancel_iff] at hsize
  obtain ⟨rest, rfl, -⟩ := Text.exists_append_of_byteSize_le hbehind.symm (by omega)
  cases rest with
  | nil =>
      rw [List.append_nil] at hcolumn
      omega
  | cons c after =>
      refine ⟨⟨1 + front.length, before ++ c :: after, column⟩, before, c, ?_, ?_, ⟨after, rfl⟩,
        hsize⟩
      · rw [Text.placeAt?, hlines, placeAmong?_append_cons hcolumn]
      · rw [Text.slice?_eq_some_iff]
        refine ⟨front.flatten ++ before, after ++ back.flatten, ?_, ?_, rfl⟩
        · rw [hsource]
          simp
        · rw [Text.byteSize_append]
          omega

end Place

namespace Error

variable {e : Error} {source : Text} {offset : Nat}

theorem place?_of_offset? (he : e.offset? = some offset) :
    e.place? (some source) = source.placeAt? offset := by
  simp [place?, he]

/-- What the source adds to a report is the excerpt for the place of the error, if it has one. -/
theorem report_eq (e : Error) (file : Text) (source? : Option Text) :
    e.report file source? = e.report file none ++ (e.place? source?).elim [] Place.excerpt := by
  have hnone : e.place? none = none := rfl
  rw [report, report, hnone]
  cases e.place? source? <;> simp

theorem report_of_placeAt? {place : Place} (he : e.offset? = some offset)
    (hplace : source.placeAt? offset = some place) (file : Text) :
    e.report file (some source) = e.report file none ++ place.excerpt := by
  rw [report_eq, place?_of_offset? he, hplace]
  rfl

end Error

/-- The report of an error at a character ends in three rows: an empty one, the line of the
character without its indentation, and the caret, which is left out when it is too far to the right.
The last two begin with equally many characters in front of the line and of the caret.  The caret is
to the right of the character by the bytes that the characters in front of it in the line have more
than one each, so it is under the character exactly when there are no such bytes. -/
theorem Error.report_caret {e : Error} {source : Text} {offset : Nat}
    (he : e.offset? = some offset) (hoffset : offset < source.byteSize)
    (hboundary : source.isBoundary offset = true) :
    ∃ (place : Place) (before : Text) (c : Char), place.Holds source offset before c ∧
      (∀ file, e.report file (some source) = e.report file none ++ place.excerpt) ∧
      place.excerpt.rawLines =
        [place.emptyRow ++ ['\n'], place.label ++ place.shownLine ++ ['\n']] ++
          (if place.caretColumn < widestField then [place.caretRow place.caretColumn ++ ['\n']]
          else []) ∧
      place.label.length = place.margin.length ∧
      (isWhiteSpace c = false → place.shownLine[place.shownColumn before]? = some c) ∧
      place.caretColumn = place.shownColumn before + (Text.byteSize before - before.length) ∧
      (place.caretColumn = place.shownColumn before ↔ ∀ d ∈ before, d.utf8Size = 1) := by
  obtain ⟨place, before, c, hholds⟩ := Place.exists_holds hoffset hboundary
  obtain ⟨after, hline⟩ := hholds.line
  have hshown := Place.lf_not_mem_shownLine (line_mem_of_placeAmong? hholds.place)
  have hcaret := Place.caretColumn_eq hline hholds.column
  have hle := Text.length_le_byteSize before
  refine ⟨place, before, c, hholds, report_of_placeAt? he hholds.place,
    Place.rawLines_excerpt hshown, place.length_label, Place.getElem?_shownLine hline, hcaret, ?_⟩
  rw [hcaret, ← Text.byteSize_eq_length_iff]
  omega

/-- An exclamation mark in the second line, behind a tab and two characters of two bytes each. -/
theorem Error.report_caret_second_line :
    let source : Text := "a\n\té = ñ!\n".toList
    let e : Error := .at (.windowOutOfBounds 10 3 12) 10
    let place : Place := ⟨2, "\té = ñ!\n".toList, 8⟩
    let before : Text := "\té = ñ".toList
    e.offset? = some 10 ∧ 10 < source.byteSize ∧ source.isBoundary 10 = true ∧
      place.Holds source 10 before '!' ∧
      e.report "a.mke".toList (some source) = e.report "a.mke".toList none ++ place.excerpt ∧
      place.shownLine[place.shownColumn before]? = some '!' ∧
      place.caretColumn = place.shownColumn before + 2 := by
  intro source e place before
  have hoffset : 10 < source.byteSize := by decide
  have hboundary : source.isBoundary 10 = true := by decide
  have hplace : source.placeAt? 10 = some place := by decide
  have hholds : place.Holds source 10 before '!' :=
    ⟨hplace, by decide, ⟨['\n'], rfl⟩, by decide⟩
  obtain ⟨found, inFront, c, hfound, hreport, -, -, hshown, hcaret, -⟩ :=
    Error.report_caret (e := e) rfl hoffset hboundary
  obtain rfl : place = found := Option.some.inj (hplace.symm.trans hfound.place)
  obtain ⟨after, hline⟩ := hfound.line
  have hcut : before ++ ['!', '\n'] = inFront ++ c :: after := hline
  obtain ⟨rfl, hrest⟩ := Text.eq_of_byteSize_eq hcut (hholds.column.trans hfound.column.symm)
  obtain rfl := (List.cons.inj hrest).1
  exact ⟨rfl, hoffset, hboundary, hholds, hreport _, hshown (by decide), hcaret⟩

/-- So the caret is not always under the character: here the one in front of it has two bytes, and
the caret is a column too far to the right. -/
theorem Error.report_caret_behind_character :
    let d := Document.ofText "é!".toList
    let e : Error := .at (.windowOutOfBounds 2 1 3) 2
    let place : Place := ⟨1, "é!".toList, 2⟩
    d.window 2 1 = .error e ∧ 2 < d.size ∧ d.text.isBoundary 2 = true ∧
      place.Holds d.text 2 ['é'] '!' ∧ place.shownColumn ['é'] = 1 ∧
      place.shownLine[1]? = some '!' ∧ place.caretColumn = 2 ∧
      e.report "a.mke".toList (some d.text) =
        ("Error: WindowOutOfBounds (The document is 3 bytes long)\n-> a.mke\n" ++
          "  |\n1 | é!\n  | --^\n").toList := by
  intro d e place
  have hholds : place.Holds d.text 2 ['é'] '!' := ⟨by decide, by decide, ⟨[], rfl⟩, by decide⟩
  exact ⟨rfl, by decide, by decide, hholds, by decide, by decide, by decide, by decide⟩

end BmakeHighlight
