/-
The bytes of a document outside its lines.  They are those of the line terminators and
one more: a carriage return at the very end of the text ends no line and is left out of
the last one all the same.
-/
import BmakeHighlight.Proofs.LineTiling

namespace BmakeHighlight

/-- Is the byte at the offset part of a line terminator? -/
def Text.InTerminator (t : Text) (offset : Nat) : Prop :=
  ∃ front terminator back, terminator ∈ lineTerminators ∧ t = front ++ terminator ++ back ∧
    Text.byteSize front ≤ offset ∧ offset < Text.byteSize (front ++ terminator)

/-- Is the byte at the offset part of one of the lines? -/
def Document.InLine (d : Document) (offset : Nat) : Prop :=
  ∃ f ∈ d.lines, f.start ≤ offset ∧ offset < f.stop

instance (d : Document) (offset : Nat) : Decidable (d.InLine offset) :=
  inferInstanceAs (Decidable (∃ f ∈ d.lines, f.start ≤ offset ∧ offset < f.stop))

theorem eq_of_mem_lineTerminators {terminator : Text} (h : terminator ∈ lineTerminators) :
    ∃ first, terminator = first ++ ['\n'] ∧ (first = [] ∨ first = ['\r']) := by
  simp only [lineTerminators, List.mem_cons, List.not_mem_nil, or_false] at h
  rcases h with rfl | rfl
  · exact ⟨[], rfl, .inl rfl⟩
  · exact ⟨['\r'], rfl, .inr rfl⟩

/-- The line feed of a line terminator is the last character of it. -/
theorem lf_not_mem_of_append_mem_lineTerminators {middle behind : Text} (hne : behind ≠ [])
    (h : middle ++ behind ∈ lineTerminators) : '\n' ∉ middle := by
  obtain ⟨first, hsplit, hfirst⟩ := eq_of_mem_lineTerminators h
  have hmiddle : middle ++ behind.dropLast = first := by
    rw [← List.dropLast_append_of_ne_nil hne, hsplit, List.dropLast_concat]
  have hlf : '\n' ∉ first := by
    rcases hfirst with rfl | rfl
    · simp
    · decide
  intro hmem
  exact hlf (hmiddle ▸ List.mem_append_left _ hmem)

namespace Text

variable {s t front terminator back body : Text} {offset : Nat}

theorem byteSize_stripLast_cr (body : Text) :
    (stripLast '\r' body).byteSize + (if body.getLast? = some '\r' then 1 else 0) =
      body.byteSize := by
  unfold stripLast
  split
  · rename_i hlast
    obtain ⟨front, rfl⟩ := List.getLast?_eq_some_iff.1 hlast
    rw [List.dropLast_concat, byteSize_append]
    rfl
  · rfl

theorem not_inTerminator_of_not_mem (ht : '\n' ∉ t) : ¬ t.InTerminator offset := by
  rintro ⟨front, terminator, back, hterminator, rfl, -⟩
  obtain ⟨first, rfl, -⟩ := eq_of_mem_lineTerminators hterminator
  exact ht (by simp)

/-- No line terminator reaches over the end of a complete line. -/
theorem EndsLine.le_or_le (hs : s.EndsLine) (hterminator : terminator ∈ lineTerminators)
    (h : s ++ t = front ++ terminator ++ back) :
    byteSize s ≤ byteSize front ∨ byteSize (front ++ terminator) ≤ byteSize s := by
  by_contra hacross
  obtain ⟨hfront, hstop⟩ := not_or.1 hacross
  -- the end of `s` would cut the terminator in two, with a line feed in the first part
  obtain ⟨behind, hbehind, -⟩ := exists_append_of_byteSize_le h (Nat.le_of_not_le hstop)
  have hcut : front ++ (terminator ++ back) = s ++ t := by rw [h, List.append_assoc]
  obtain ⟨middle, rfl, -⟩ := exists_append_of_byteSize_le hcut (Nat.le_of_not_le hfront)
  have hmiddle : middle ≠ [] := by
    rintro rfl
    simp at hfront
  have hne : behind ≠ [] := by
    rintro rfl
    rw [hbehind, List.append_nil] at hstop
    exact hstop (Nat.le_refl _)
  rw [List.append_assoc, List.append_cancel_left_eq] at hbehind
  have hlast : middle.getLast? = some '\n' := by
    have hends := hs.resolve_left (by simp [hmiddle])
    rwa [List.getLast?_append_of_ne_nil _ hmiddle] at hends
  exact lf_not_mem_of_append_mem_lineTerminators hne (hbehind ▸ hterminator)
    (List.mem_of_getLast? hlast)

theorem inTerminator_append_left (hs : s.EndsLine) (hoffset : offset < s.byteSize) :
    (s ++ t).InTerminator offset ↔ s.InTerminator offset := by
  constructor
  · rintro ⟨front, terminator, back, hterminator, h, hfront, hstop⟩
    have hle : byteSize (front ++ terminator) ≤ byteSize s :=
      (hs.le_or_le hterminator h).resolve_left (by omega)
    obtain ⟨behind, rfl, -⟩ := exists_append_of_byteSize_le h.symm hle
    exact ⟨front, terminator, behind, hterminator, rfl, hfront, hstop⟩
  · rintro ⟨front, terminator, back, hterminator, rfl, hfront, hstop⟩
    exact ⟨front, terminator, back ++ t, hterminator, by rw [List.append_assoc _ back],
      hfront, hstop⟩

theorem inTerminator_append_right (hs : s.EndsLine) :
    (s ++ t).InTerminator (s.byteSize + offset) ↔ t.InTerminator offset := by
  constructor
  · rintro ⟨front, terminator, back, hterminator, h, hfront, hstop⟩
    have hle : byteSize s ≤ byteSize front :=
      (hs.le_or_le hterminator h).resolve_right (by omega)
    rw [List.append_assoc] at h
    obtain ⟨middle, rfl, ht⟩ := exists_append_of_byteSize_le h hle
    rw [List.append_assoc, byteSize_append] at hstop
    rw [byteSize_append] at hfront
    exact ⟨middle, terminator, back, hterminator, by rw [ht, List.append_assoc], by omega,
      by omega⟩
  · rintro ⟨front, terminator, back, hterminator, rfl, hfront, hstop⟩
    refine ⟨s ++ front, terminator, back, hterminator, by simp only [List.append_assoc], ?_, ?_⟩
    · rw [byteSize_append]
      omega
    · rw [List.append_assoc, byteSize_append]
      omega

theorem eq_of_append_lf (hbody : '\n' ∉ body)
    (h : body ++ ['\n'] = front ++ '\n' :: back) : body = front ∧ back = [] := by
  rcases List.eq_nil_or_concat back with rfl | ⟨init, c, rfl⟩
  · exact ⟨(List.append_inj' h rfl).1, rfl⟩
  · rw [List.concat_eq_append, ← List.cons_append, ← List.append_assoc] at h
    obtain ⟨rfl, -⟩ := List.append_inj' h rfl
    exact absurd (by simp) hbody

/-- The terminator of a complete line is what its fragment has not of it. -/
theorem inTerminator_line_iff (hbody : '\n' ∉ body)
    (hoffset : offset < byteSize (body ++ ['\n'])) :
    (body ++ ['\n']).InTerminator offset ↔ (stripLast '\r' body).byteSize ≤ offset := by
  constructor
  · rintro ⟨front, terminator, back, hterminator, h, hfront, -⟩
    obtain ⟨first, rfl, hfirst⟩ := eq_of_mem_lineTerminators hterminator
    rw [← List.append_assoc, List.append_assoc, List.singleton_append] at h
    obtain ⟨rfl, -⟩ := eq_of_append_lf hbody h
    refine Nat.le_trans ?_ hfront
    rcases hfirst with rfl | rfl
    · have hsize := byteSize_stripLast_cr front
      rw [List.append_nil]
      omega
    · simp [stripLast]
  · intro hle
    obtain ⟨terminator, hterminator, hline⟩ := exists_lineTerminator body
    rw [stripTerminator_append_lf] at hline
    refine ⟨stripLast '\r' body, terminator, [], hterminator, ?_, hle, ?_⟩
    · rw [List.append_nil, ← hline]
    · rwa [← hline]

end Text

namespace Document

variable {s t body : Text} {offset : Nat}

theorem stop_le_of_mem_lines {d : Document} {f : Fragment} (hf : f ∈ d.lines) :
    f.stop ≤ d.size := by
  obtain ⟨front, back, htext, hstart⟩ := (liesIn_of_mem_lines hf).1
  rw [Fragment.stop, size, htext, hstart, ← Text.byteSize_append, Text.byteSize_append _ back]
  exact Nat.le_add_right _ _

theorem inLine_append_left (hs : s.EndsLine) (hoffset : offset < s.byteSize) :
    (ofText (s ++ t)).InLine offset ↔ (ofText s).InLine offset := by
  rw [InLine, lines_append hs]
  constructor
  · rintro ⟨f, hf, hstart, hstop⟩
    rcases List.mem_append.1 hf with hf | hf
    · exact ⟨f, hf, hstart, hstop⟩
    · obtain ⟨g, -, rfl⟩ := List.mem_map.1 hf
      rw [Fragment.shift] at hstart
      dsimp only at hstart
      omega
  · rintro ⟨f, hf, hstart, hstop⟩
    exact ⟨f, List.mem_append_left _ hf, hstart, hstop⟩

theorem inLine_append_right (hs : s.EndsLine) :
    (ofText (s ++ t)).InLine (s.byteSize + offset) ↔ (ofText t).InLine offset := by
  have hshift : ∀ g : Fragment, (g.shift s.byteSize).start ≤ s.byteSize + offset ∧
      s.byteSize + offset < (g.shift s.byteSize).stop ↔ g.start ≤ offset ∧ offset < g.stop := by
    intro g
    simp only [Fragment.shift, Fragment.stop]
    omega
  rw [InLine, lines_append hs]
  constructor
  · rintro ⟨f, hf, hoffset⟩
    rcases List.mem_append.1 hf with hf | hf
    · have hstop : f.stop ≤ s.byteSize := stop_le_of_mem_lines hf
      omega
    · obtain ⟨g, hg, rfl⟩ := List.mem_map.1 hf
      exact ⟨g, hg, (hshift g).1 hoffset⟩
  · rintro ⟨g, hg, hoffset⟩
    exact ⟨g.shift s.byteSize, List.mem_append_right _ (List.mem_map_of_mem hg),
      (hshift g).2 hoffset⟩

theorem inLine_singleton {line : Text} {d : Document} (h : d.text.rawLines = [line]) :
    d.InLine offset ↔ offset < line.stripTerminator.byteSize := by
  rw [InLine, lines, Text.lineFragments, h, fragmentsOf, fragmentsOf]
  simp [Fragment.stop]

/-- A byte of a complete line is in the fragment of the line or in its terminator. -/
theorem not_inLine_line_iff (hbody : '\n' ∉ body)
    (hoffset : offset < Text.byteSize (body ++ ['\n'])) :
    ¬ (ofText (body ++ ['\n'])).InLine offset ↔ (body ++ ['\n']).InTerminator offset := by
  have hlines : Text.rawLines (body ++ ['\n']) = [body ++ ['\n']] :=
    Text.rawLines_append_lf hbody []
  rw [inLine_singleton hlines, Text.inTerminator_line_iff hbody hoffset,
    Text.stripTerminator_append_lf, Nat.not_lt]

/-- A byte of a line without a line feed is in the fragment of the line, or it is a carriage
return at its end. -/
theorem not_inLine_last_iff (hne : body ≠ []) (hbody : '\n' ∉ body)
    (hoffset : offset < body.byteSize) :
    ¬ (ofText body).InLine offset ↔ body.getLast? = some '\r' ∧ offset + 1 = body.byteSize := by
  have hsize := Text.byteSize_stripLast_cr body
  have hlines : (ofText body).text.rawLines = [body] := Text.rawLines_of_not_mem hne hbody
  rw [inLine_singleton hlines, Text.stripTerminator_of_not_mem hbody, Nat.not_lt]
  split at hsize
  · rename_i hlast
    rw [and_iff_right hlast]
    omega
  · rename_i hlast
    refine iff_of_false ?_ fun h => hlast h.1
    omega

theorem not_inLine_iff (hoffset : offset < t.byteSize) :
    ¬ (ofText t).InLine offset ↔
      t.InTerminator offset ∨ t.getLast? = some '\r' ∧ offset + 1 = t.byteSize := by
  induction t using Text.lines_induction generalizing offset with
  | nil => simp at hoffset
  | last body hne hbody =>
      rw [or_iff_right (Text.not_inTerminator_of_not_mem hbody)]
      exact not_inLine_last_iff hne hbody hoffset
  | line body rest hbody ih =>
      have hends := Text.endsLine_append_lf body
      rw [List.append_cons] at hoffset ⊢
      rw [Text.byteSize_append] at hoffset ⊢
      -- a byte of the first line, or of those behind it
      by_cases hfirst : offset < Text.byteSize (body ++ ['\n'])
      · have hlast : ¬ ((body ++ ['\n'] ++ rest).getLast? = some '\r' ∧
            offset + 1 = Text.byteSize (body ++ ['\n']) + rest.byteSize) := by
          rintro ⟨hcr, hsize⟩
          have hrest : rest = [] := Text.byteSize_eq_zero_iff.1 (by omega)
          simp [hrest] at hcr
        rw [inLine_append_left hends hfirst, Text.inTerminator_append_left hends hfirst,
          not_inLine_line_iff hbody hfirst, or_iff_left hlast]
      · obtain ⟨behind, rfl⟩ := Nat.exists_eq_add_of_le (Nat.le_of_not_lt hfirst)
        have hbehind : behind < rest.byteSize := by omega
        have hrest : rest ≠ [] := by
          rintro rfl
          simp at hbehind
        rw [inLine_append_right hends, Text.inTerminator_append_right hends, ih hbehind,
          List.getLast?_append_of_ne_nil _ hrest, Nat.add_assoc, Nat.add_left_cancel_iff]

/-- The last line of a text that does not end in a line feed. -/
theorem exists_last_line (ht : ¬ t.EndsLine) :
    ∃ f ∈ (ofText t).lines.getLast?,
      f.stop + (if t.getLast? = some '\r' then 1 else 0) = t.byteSize := by
  induction t using Text.lines_induction with
  | nil => exact absurd (.inl rfl) ht
  | last body hne hbody =>
      have hlines : (ofText body).lines = [⟨Text.stripLast '\r' body, 0⟩] := by
        rw [lines, Text.lineFragments, ofText, Text.rawLines_of_not_mem hne hbody, fragmentsOf,
          fragmentsOf, Text.stripTerminator_of_not_mem hbody]
      refine ⟨⟨Text.stripLast '\r' body, 0⟩, by rw [hlines]; rfl, ?_⟩
      rw [Fragment.stop, Nat.zero_add, Text.byteSize_stripLast_cr]
  | line body rest hbody ih =>
      rw [Text.endsLine_append_lf_iff] at ht
      obtain ⟨f, hf, hstop⟩ := ih ht
      have hrest : rest ≠ [] := fun hnil => ht (.inl hnil)
      have htext : body ++ '\n' :: rest = body ++ ['\n'] ++ rest := List.append_cons _ _ _
      refine ⟨f.shift (Text.byteSize (body ++ ['\n'])), ?_, ?_⟩
      · rw [htext, lines_append (Text.endsLine_append_lf body), List.getLast?_append,
          List.getLast?_map, hf]
        rfl
      · rw [htext, List.getLast?_append_of_ne_nil _ hrest, Text.byteSize_append _ rest, ← hstop]
        simp only [Fragment.shift, Fragment.stop]
        omega

/-- Of a document the lines leave out the line terminators and nothing else, but for a carriage
return at the very end of the text, which is in no line either.  So the last line ends at the end
of a text that does not end in a line feed, or one byte in front of it when the text ends in a
carriage return. -/
theorem outside_lines (d : Document) :
    (∀ offset < d.size, ¬ d.InLine offset ↔
      d.text.InTerminator offset ∨ d.text.getLast? = some '\r' ∧ offset + 1 = d.size) ∧
      (¬ d.text.EndsLine → ∃ f ∈ d.lines.getLast?,
        f.stop + (if d.text.getLast? = some '\r' then 1 else 0) = d.size) :=
  ⟨fun _ hoffset => not_inLine_iff hoffset, exists_last_line⟩

/-- Of two carriage returns in front of a line feed the second is part of the terminator; the one
at the end of the text is part of nothing. -/
theorem outside_lines_carriage_returns :
    let d := ofText "é\r\r\nb\r".toList
    6 < d.size ∧ ¬ d.text.EndsLine ∧ d.InLine 2 ∧ d.text.InTerminator 3 ∧ ¬ d.InLine 6 ∧
      ∃ f ∈ d.lines.getLast?, f.stop + 1 = d.size := by
  intro d
  have hsize : d.size = 7 := by decide
  have hends : ¬ d.text.EndsLine := by decide
  obtain ⟨hbytes, hlast⟩ := d.outside_lines
  refine ⟨by rw [hsize]; decide, hends, by decide, ?_, ?_, hlast hends⟩
  · have hbyte := (hbytes 3 (by rw [hsize]; decide)).1 (by decide)
    exact hbyte.resolve_right (by rw [hsize]; decide)
  · exact (hbytes 6 (by rw [hsize]; decide)).2 (.inr ⟨by decide, by rw [hsize]⟩)

/-- A carriage return with no line feed in the text: no line terminator, and in no line. -/
theorem outside_lines_lone_return :
    let d := ofText ['a', '\r']
    d.text ≠ [] ∧ d.text.getLast? ≠ some '\n' ∧ 1 < d.size ∧ ¬ d.InLine 1 ∧
      ¬ d.text.InTerminator 1 ∧ d.lines.getLast? = some ⟨['a'], 0⟩ ∧
      (⟨['a'], 0⟩ : Fragment).stop ≠ d.size := by
  intro d
  have hlf : '\n' ∉ d.text := by decide
  exact ⟨by decide, by decide, by decide, by decide, Text.not_inTerminator_of_not_mem hlf,
    by decide, by decide⟩

end Document

end BmakeHighlight
