/-
Texts one behind the other.  What is found in a text does not depend on where the
text stands in a document: with more bytes in front the same spans are found, each
that much later.  So a document that is cut behind a line feed can be classified
part by part.
-/
import BmakeHighlight.Text.Boundaries
import BmakeHighlight.Proofs.SpanBounds

namespace BmakeHighlight

/-- The same fragment in a document with `n` more bytes in front. -/
def Fragment.shift (n : Nat) (f : Fragment) : Fragment :=
  { f with start := f.start + n }

theorem spansOf_shift (n offset : Nat) (pieces : List Piece) :
    spansOf (offset + n) pieces = (spansOf offset pieces).map (Span.shift n) := by
  induction pieces generalizing offset with
  | nil => rfl
  | cons p pieces ih =>
      rw [spansOf, Nat.add_right_comm, ih]
      rfl

/-- A scan is given no more than the text and the character before it. -/
theorem Matcher.scan_shift (m : Matcher) (n offset : Nat) (before : Option Char) (skip : Nat)
    (t : Text) :
    m.scan (offset + n) before skip t = (m.scan offset before skip t).map (Span.shift n) := by
  induction t generalizing offset before skip with
  | nil => rfl
  | cons c t ih =>
      cases skip with
      | succ skip => rw [scan, scan, Nat.add_right_comm, ih]
      | zero =>
          rw [scan, scan, Nat.add_right_comm]
          cases m before (c :: t) with
          | none => exact ih _ _ _
          | some pieces =>
              dsimp only
              rw [ih, spansOf_shift, List.map_append]

theorem Pass.spans_shift (p : Pass) (n : Nat) (f : Fragment) :
    p.spans (f.shift n) = (p.spans f).map (Span.shift n) := by
  rw [Pass.spans, Pass.spans, Fragment.shift, Matcher.scan_shift]
  split
  · rw [List.map_take]
  · rfl

/-- Whether a fragment begins with a comment is seen from its own start. -/
theorem Fragment.opensWithComment_shift (n : Nat) (f : Fragment) :
    (f.shift n).opensWithComment = f.opensWithComment := by
  rw [opensWithComment, opensWithComment, Pass.spans_shift, List.any_map]
  congr 1
  funext s
  simp [shift]

theorem Fragment.classify_shift (n : Nat) (f : Fragment) :
    (f.shift n).classify = f.classify.map (Span.shift n) := by
  have hblank : (f.shift n).isBlank = f.isBlank := rfl
  rw [classify, classify, hblank, opensWithComment_shift]
  split
  · rfl
  · split
    · exact Pass.spans_shift _ n f
    · rw [List.map_flatMap]
      congr 1
      funext p
      exact p.spans_shift n f

theorem fragmentsOf_shift (n offset : Nat) (lines : List Text) :
    fragmentsOf (offset + n) lines = (fragmentsOf offset lines).map (Fragment.shift n) := by
  induction lines generalizing offset with
  | nil => rfl
  | cons line lines ih =>
      rw [fragmentsOf, fragmentsOf, Nat.add_right_comm, ih]
      rfl

theorem fragmentsOf_append (offset : Nat) (lines lines' : List Text) :
    fragmentsOf offset (lines ++ lines') =
      fragmentsOf offset lines ++
        fragmentsOf (offset + Text.byteSize lines.flatten) lines' := by
  induction lines generalizing offset with
  | nil => rfl
  | cons line lines ih =>
      rw [List.cons_append, fragmentsOf, ih, fragmentsOf, List.flatten_cons,
        Text.byteSize_append, Nat.add_assoc, List.cons_append]

/-- Is the text empty, or is its last line complete? -/
def Text.EndsLine (t : Text) : Prop :=
  t = [] ∨ t.getLast? = some '\n'

instance (t : Text) : Decidable t.EndsLine :=
  inferInstanceAs (Decidable (_ ∨ _))

theorem Text.endsLine_append_lf (body : Text) : Text.EndsLine (body ++ ['\n']) :=
  .inr (by simp)

theorem Text.EndsLine.of_append_lf {body rest : Text}
    (h : Text.EndsLine (body ++ '\n' :: rest)) : rest.EndsLine := by
  by_cases hrest : rest = []
  · exact .inl hrest
  · right
    have hlast := h.resolve_left (by simp)
    rwa [List.append_cons, List.getLast?_append_of_ne_nil _ hrest] at hlast

/-- Behind a complete line new lines begin. -/
theorem Text.rawLines_append {s : Text} (hs : s.EndsLine) (t : Text) :
    Text.rawLines (s ++ t) = s.rawLines ++ t.rawLines := by
  induction s using Text.lines_induction with
  | nil => rfl
  | last body hne hbody =>
      rcases hs with rfl | hlast
      · exact absurd rfl hne
      · exact absurd (List.mem_of_getLast? hlast) hbody
  | line body rest hbody ih =>
      rw [List.append_assoc, List.cons_append, rawLines_append_lf hbody,
        rawLines_append_lf hbody, ih hs.of_append_lf, List.cons_append]

namespace Document

theorem lines_append {s : Text} (hs : s.EndsLine) (t : Text) :
    (ofText (s ++ t)).lines =
      (ofText s).lines ++ (ofText t).lines.map (Fragment.shift s.byteSize) := by
  change fragmentsOf 0 (Text.rawLines (s ++ t)) =
    fragmentsOf 0 s.rawLines ++ (fragmentsOf 0 t.rawLines).map (Fragment.shift s.byteSize)
  rw [Text.rawLines_append hs, fragmentsOf_append, Text.flatten_rawLines, fragmentsOf_shift]

theorem classify_append {s : Text} (hs : s.EndsLine) (t : Text) :
    (ofText (s ++ t)).classify =
      (ofText s).classify ++ (ofText t).classify.map (Span.shift s.byteSize) := by
  rw [classify, lines_append hs, List.flatMap_append, List.flatMap_map]
  congr 1
  rw [classify, List.map_flatMap]
  congr 1
  funext line
  exact line.classify_shift s.byteSize

theorem stop_le_of_mem_classify {d : Document} {s : Span} (hs : s ∈ d.classify) :
    s.stop ≤ d.size := by
  obtain ⟨_, _, _, _, part, htext, -⟩ := exists_line_of_mem_classify hs
  exact Text.le_byteSize_of_slice?_eq_some htext

theorem len_pos_of_mem_classify {d : Document} {s : Span} (hs : s ∈ d.classify) :
    0 < s.len := by
  obtain ⟨_, _, _, hliesIn, _⟩ := exists_line_of_mem_classify hs
  exact hliesIn.len_pos

/-- The spans that end in the first text are those of the first text, whatever follows. -/
theorem filter_classify_append {s : Text} (hs : s.EndsLine) (t : Text) :
    (ofText (s ++ t)).classify.filter (·.stop ≤ s.byteSize) = (ofText s).classify := by
  have hfirst : (ofText s).classify.filter (·.stop ≤ s.byteSize) = (ofText s).classify := by
    rw [List.filter_eq_self]
    intro x hx
    exact decide_eq_true (stop_le_of_mem_classify hx)
  have hsecond : ((ofText t).classify.map (Span.shift s.byteSize)).filter
      (·.stop ≤ s.byteSize) = [] := by
    rw [List.filter_eq_nil_iff]
    intro x hx
    obtain ⟨y, hy, rfl⟩ := List.mem_map.1 hx
    have hlen := len_pos_of_mem_classify hy
    rw [decide_eq_true_eq, Span.stop_shift, Span.stop]
    omega
  rw [classify_append hs, List.filter_append, hfirst, hsecond, List.append_nil]

/-- Classification is compositional.  When a first text is empty or ends with a line feed and
a second one follows, the lines are those of the two texts, and so are the spans, those of the
second text moved behind the first; the spans that end in the first text do not depend on the
second.  The spans of any fragment are those of its text on its own, moved to its start. -/
theorem classify_compositional :
    (∀ s : Text, s.EndsLine → ∀ t : Text,
      (ofText (s ++ t)).lines =
          (ofText s).lines ++ (ofText t).lines.map (Fragment.shift s.byteSize) ∧
        (ofText (s ++ t)).classify =
          (ofText s).classify ++ (ofText t).classify.map (Span.shift s.byteSize) ∧
        (ofText (s ++ t)).classify.filter (·.stop ≤ s.byteSize) = (ofText s).classify) ∧
      ∀ (t : Text) (start : Nat),
        (⟨t, start⟩ : Fragment).classify =
          (Fragment.whole t).classify.map (Span.shift start) := by
  refine ⟨?_, ?_⟩
  · intro s hs t
    exact ⟨lines_append hs t, classify_append hs t, filter_classify_append hs t⟩
  · intro t start
    rw [← Fragment.classify_shift, Fragment.shift, Fragment.whole, Nat.zero_add]

/-- A second text that begins with a carriage return, behind a line that ends with one. -/
theorem classify_compositional_carriage_return :
    let s : Text := "é = 1\r\n".toList
    let t : Text := "\r@x # y".toList
    s.EndsLine ∧
      (ofText (s ++ t)).lines = [⟨"é = 1".toList, 0⟩, ⟨t, 8⟩] ∧
      (ofText (s ++ t)).classify =
        [⟨.operator, 3, 1⟩, ⟨.number, 5, 1⟩, ⟨.comment, 11, 4⟩, ⟨.preprocessorMarker, 9, 1⟩] := by
  intro s t
  have hs : s.EndsLine := by decide
  obtain ⟨hlines, hspans, -⟩ := classify_compositional.1 s hs t
  refine ⟨hs, ?_, ?_⟩
  · rw [hlines]
    decide
  · rw [hspans]
    decide

end Document

end BmakeHighlight
