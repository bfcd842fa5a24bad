/-
Rendering line by line.  No span of a document touches a line terminator, so a
rendered document falls apart behind every line: each line is rendered as if it
were alone, and the terminators stand between the lines as they are.
-/
import BmakeHighlight.Proofs.Composition
import BmakeHighlight.Proofs.RenderingSeams

namespace BmakeHighlight

/-- The fragments of a text, each rendered on its own, and behind each fragment, as it is, the
text up to the next one or to the end.  There is none when the fragments are not in order. -/
def Text.renderFragments? (t : Text) (styles : StyleTable) : List Fragment → Option Text
  | [] => some []
  | f :: rest => do
      let next := (rest.head?.map Fragment.start).getD t.byteSize
      let between ← t.slice? f.stop next
      let drawn ← Text.renderFragments? t styles rest
      some (f.text.render (Fragment.whole f.text).classify styles ++ between ++ drawn)

/-- Spans that have a text begin and end at boundaries. -/
theorem Text.Carries.of_text {t : Text} {spans : List Span}
    (h : ∀ s ∈ spans, ∃ part, s.text? t = some part) : t.Carries spans := by
  intro s hs
  obtain ⟨part, hpart⟩ := h s hs
  have hstop := le_byteSize_of_slice?_eq_some hpart
  obtain ⟨hle, hboundaries⟩ :=
    slice?_isSome_iff.1 (Option.isSome_iff_exists.2 ⟨part, hpart⟩)
  rwa [Nat.min_eq_left hstop, Nat.min_eq_left (Nat.le_trans hle hstop)]

theorem Fragment.exists_text_of_mem_classify_whole (t : Text) :
    ∀ s ∈ (whole t).classify, ∃ part, s.text? t = some part := by
  intro s hs
  have hwhole : (whole t).LiesIn t := ⟨[], [], by simp [whole], rfl⟩
  obtain ⟨part, hpart, -⟩ := exists_text_of_mem_classify hwhole hs
  exact ⟨part, hpart⟩

theorem Document.carries_classify (d : Document) : d.text.Carries d.classify := by
  apply Text.Carries.of_text
  intro s hs
  obtain ⟨_, _, _, _, part, hpart, -⟩ := exists_line_of_mem_classify hs
  exact ⟨part, hpart⟩

/-- No span reaches the line feed at the end of a text. -/
theorem Document.stop_lt_of_mem_classify {t : Text} (hlast : t.getLast? = some '\n') {s : Span}
    (hs : s ∈ (ofText t).classify) : s.stop < t.byteSize := by
  obtain ⟨_, _, _, _, part, htext, hne, hlf⟩ := exists_line_of_mem_classify hs
  obtain ⟨front, back, ht, hfront, hpart⟩ := Text.slice?_eq_some_iff.1 htext
  have hback : back ≠ [] := by
    rintro rfl
    apply hlf
    change t = _ at ht
    rw [ht, List.append_nil, List.getLast?_append_of_ne_nil _ hne] at hlast
    exact List.mem_of_getLast? hlast
  have hpos := Nat.pos_of_ne_zero (hback ∘ Text.byteSize_eq_zero_iff.1)
  change t = _ at ht
  rw [ht, Text.byteSize_append, Text.byteSize_append]
  omega

/-- The last byte of a text that ends a line is not painted. -/
theorem Text.EndsLine.lastCover_eq_none {t : Text} (ht : t.EndsLine) :
    lastCover (Document.ofText t).classify (t.byteSize - 1) = none := by
  rcases ht with rfl | hlast
  · rfl
  · apply BmakeHighlight.lastCover_eq_none
    intro s hs
    exact Nat.le_sub_one_of_lt (Document.stop_lt_of_mem_classify hlast hs)

/-- Rendering is compositional as classification is. -/
theorem Document.render_append {s : Text} (hs : s.EndsLine) (t : Text) (styles : StyleTable) :
    Text.render (s ++ t) (ofText (s ++ t)).classify styles =
      s.render (ofText s).classify styles ++ t.render (ofText t).classify styles := by
  rw [classify_append hs]
  exact Text.render_append styles (fun x hx => stop_le_of_mem_classify hx)
    (ofText s).carries_classify (ofText t).carries_classify (.inl hs.lastCover_eq_none)

/-- What is behind the spans of a text is left as it is. -/
theorem Text.render_append_unpainted {s : Text} {spans : List Span} (styles : StyleTable)
    (h : ∀ x ∈ spans, ∃ part, x.text? s = some part) (t : Text) :
    Text.render (s ++ t) spans styles = s.render spans styles ++ t := by
  have hstop : ∀ x ∈ spans, x.stop ≤ s.byteSize := by
    intro x hx
    obtain ⟨part, hpart⟩ := h x hx
    exact le_byteSize_of_slice?_eq_some hpart
  have hnone : t.Carries [] := by simp [Carries]
  have happend := render_append styles hstop (.of_text h) hnone (.inr rfl)
  rwa [List.map_nil, List.append_nil, render_nil] at happend

/-- A single line: its fragment is rendered, and its terminator is left as it is. -/
theorem Document.render_line {line terminator : Text} (hline : line.rawLines = [line])
    (hterminator : line = line.stripTerminator ++ terminator) (styles : StyleTable) :
    line.render (ofText line).classify styles =
      line.stripTerminator.render (Fragment.whole line.stripTerminator).classify styles ++
        terminator := by
  have hclassify : (ofText line).classify =
      (Fragment.whole line.stripTerminator).classify := by
    change (fragmentsOf 0 line.rawLines).flatMap Fragment.classify = _
    rw [hline, fragmentsOf, fragmentsOf, List.flatMap_singleton]
    rfl
  have happend := Text.render_append_unpainted styles
    (Fragment.exists_text_of_mem_classify_whole line.stripTerminator) terminator
  rw [← hterminator] at happend
  rw [hclassify, happend]

/-- The fragments of further lines begin where these lines begin; without further lines, that is
the end of the text. -/
theorem start_head?_fragmentsOf (offset : Nat) (t : Text) :
    ((fragmentsOf offset t.rawLines).head?.map Fragment.start).getD (offset + t.byteSize) =
      offset := by
  cases hlines : t.rawLines with
  | nil =>
      have ht := t.flatten_rawLines
      rw [hlines] at ht
      rw [← ht]
      rfl
  | cons line lines => rfl

/-- One line of a text, when the lines behind it are done. -/
theorem Text.renderFragments?_cons {styles : StyleTable} {line drawn : Text}
    (hline : line.rawLines = [line]) (front rest : Text)
    (hrest : Text.renderFragments? (front ++ line ++ rest) styles
      (fragmentsOf (Text.byteSize (front ++ line)) rest.rawLines) = some drawn) :
    Text.renderFragments? (front ++ line ++ rest) styles
        (fragmentsOf front.byteSize (line :: rest.rawLines)) =
      some (line.render (Document.ofText line).classify styles ++ drawn) := by
  obtain ⟨terminator, hterminator⟩ := line.exists_terminator
  have hstop : (⟨line.stripTerminator, front.byteSize⟩ : Fragment).stop =
      Text.byteSize (front ++ line.stripTerminator) := by
    rw [Fragment.stop, Text.byteSize_append]
  have hbetween : Text.slice? (front ++ line ++ rest)
      (Text.byteSize (front ++ line.stripTerminator)) (Text.byteSize (front ++ line)) =
        some terminator := by
    rw [Text.slice?_eq_some_iff]
    refine ⟨front ++ line.stripTerminator, rest, ?_, rfl, ?_⟩
    · rw [List.append_assoc front line.stripTerminator, ← hterminator]
    · rw [← Text.byteSize_append, List.append_assoc, ← hterminator]
  rw [fragmentsOf, renderFragments?, ← Text.byteSize_append, Text.byteSize_append (front ++ line),
    start_head?_fragmentsOf, hstop, hbetween, hrest, Document.render_line hline hterminator]
  rfl

theorem Text.renderFragments?_append (front t : Text) (styles : StyleTable) :
    Text.renderFragments? (front ++ t) styles (fragmentsOf front.byteSize t.rawLines) =
      some (t.render (Document.ofText t).classify styles) := by
  induction t using Text.lines_induction generalizing front with
  | nil => rfl
  | last body hne hbody =>
      have hline := rawLines_of_not_mem hne hbody
      have hnone : renderFragments? (front ++ body ++ []) styles
          (fragmentsOf (byteSize (front ++ body)) (rawLines [])) = some [] := rfl
      have hcons := renderFragments?_cons hline front [] hnone
      rw [List.append_nil, List.append_nil] at hcons
      rw [hline]
      exact hcons
  | line body rest hbody ih =>
      have hline : rawLines (body ++ ['\n']) = [body ++ ['\n']] := by
        rw [rawLines_append_lf hbody]
        rfl
      rw [List.append_cons, rawLines_append (endsLine_append_lf body), hline,
        List.singleton_append, Document.render_append (endsLine_append_lf body),
        ← List.append_assoc]
      exact renderFragments?_cons hline front rest (ih (front ++ (body ++ ['\n'])))

/-- A rendered document is, line after line, the rendered fragment of the line and then the text
up to the next fragment as it is. -/
theorem Text.renderFragments?_lines (t : Text) (styles : StyleTable) :
    t.renderFragments? styles (Document.ofText t).lines =
      some (t.render (Document.ofText t).classify styles) :=
  renderFragments?_append [] t styles

end BmakeHighlight
