/-
Where the spans of a classification lie.  Every span covers a non-empty part of
the fragment that it was found in; the spans of a fragment are listed pass by
pass, and those of one pass one behind the other.  Line by line this carries
over to the whole document.
-/
import Mathlib.Data.List.Pairwise
import BmakeHighlight.Classification
import BmakeHighlight.Proofs.BlankText
import BmakeHighlight.Proofs.LinePartition
import BmakeHighlight.Proofs.ParallelClassification

namespace BmakeHighlight

/-- A span that covers something of a fragment: it is not empty, does not leave the
fragment, and begins and ends between two characters of its text. -/
structure Span.LiesIn (f : Fragment) (s : Span) : Prop where
  len_pos : 0 < s.len
  start_le : f.start ≤ s.start
  stop_le : s.stop ≤ f.stop
  start_boundary : f.text.isBoundary (s.start - f.start) = true
  stop_boundary : f.text.isBoundary (s.stop - f.start) = true

/-- The place of a pass in the order of the passes. -/
def Pass.rank : Pass → Nat
  | .comment => 0
  | .keyword => 1
  | .reference => 2
  | .marker => 3
  | .operator => 4
  | .stringLiteral => 5
  | .number => 6

/-- One span is listed before another: it is of an earlier pass, or of the same pass and
ends where the other has not started. -/
def Span.Precedes (a b : Span) : Prop :=
  a.category.pass.rank < b.category.pass.rank ∨
    a.category.pass = b.category.pass ∧ a.stop ≤ b.start

/-- The spans of a fragment as they have to be: all in the fragment, in the order of the
passes and of the text, with one comment and one preprocessor marker at most. -/
structure Fragment.WellTagged (f : Fragment) (spans : List Span) : Prop where
  liesIn : ∀ s ∈ spans, s.LiesIn f
  ordered : spans.Pairwise Span.Precedes
  comment_le_one : spans.countP (·.category == .comment) ≤ 1
  marker_le_one : spans.countP (·.category == .preprocessorMarker) ≤ 1

/-- Of stretches in order, with something between them, any two are apart. -/
theorem apart_of_pairwise {α : Type} {start stop : α → Nat} {l : List α}
    (hl : l.Pairwise fun a b => stop a < start b) {a b : α} (ha : a ∈ l) (hb : b ∈ l)
    (hne : a ≠ b) : stop a < start b ∨ stop b < start a := by
  have hapart : l.Pairwise fun a b => stop a < start b ∨ stop b < start a := hl.imp .inl
  have hsymm : Std.Symm fun a b : α => stop a < start b ∨ stop b < start a :=
    ⟨fun _ _ => Or.symm⟩
  exact hapart.forall ha hb hne

/-- Of spans behind one another only one covers an offset. -/
theorem filter_covers_eq_singleton {spans : List Span} {s : Span} {offset : Nat}
    (hspans : spans.Pairwise fun a b => a.stop ≤ b.start) (hs : s ∈ spans)
    (hcovers : s.covers offset = true) : spans.filter (·.covers offset) = [s] := by
  obtain ⟨front, back, rfl⟩ := List.append_of_mem hs
  rw [List.pairwise_append, List.pairwise_cons] at hspans
  obtain ⟨-, ⟨hback, -⟩, hfront⟩ := hspans
  have hkept : (s :: back).filter (·.covers offset) = s :: back.filter (·.covers offset) :=
    List.filter_cons_of_pos hcovers
  rw [Span.covers_iff] at hcovers
  have hfront' : front.filter (·.covers offset) = [] := by
    rw [List.filter_eq_nil_iff]
    intro a ha
    have hle := hfront a ha s List.mem_cons_self
    rw [Span.covers_iff]
    omega
  have hback' : back.filter (·.covers offset) = [] := by
    rw [List.filter_eq_nil_iff]
    intro b hb
    have hle := hback b hb
    rw [Span.covers_iff]
    omega
  rw [List.filter_append, hkept, hfront', hback']
  rfl

theorem CutFrom.liesIn {f : Fragment} {spans : List Span}
    (h : CutFrom f.start f.text spans) {s : Span} (hs : s ∈ spans) : s.LiesIn f := by
  obtain ⟨front, part, back, htext, -, hstart, hlen⟩ := h.exists_part hs
  have hsize := congrArg Text.byteSize htext
  rw [Text.byteSize_append, Text.byteSize_append] at hsize
  have hstop : s.stop = f.start + Text.byteSize front + Text.byteSize part := by
    rw [Span.stop, hstart, hlen]
  refine ⟨h.len_pos hs, h.start_ge hs, ?_, ?_, ?_⟩
  · rw [hstop, Fragment.stop, hsize]
    omega
  · rw [Text.isBoundary_iff]
    exact ⟨front, part ++ back, by simp [htext], by omega⟩
  · rw [Text.isBoundary_iff]
    refine ⟨front ++ part, back, htext, ?_⟩
    rw [Text.byteSize_append]
    omega

/-- The text under a span of a fragment is a part of the fragment's text. -/
theorem CutFrom.exists_text {t : Text} {f : Fragment} {spans : List Span}
    (hf : f.LiesIn t) (h : CutFrom f.start f.text spans) {s : Span} (hs : s ∈ spans) :
    ∃ part, s.text? t = some part ∧ part ≠ [] ∧ ∀ c ∈ part, c ∈ f.text := by
  obtain ⟨before, behind, ht, hbefore⟩ := hf
  obtain ⟨front, part, back, htext, hpart, hstart, hlen⟩ := h.exists_part hs
  refine ⟨part, ?_, hpart, ?_⟩
  · rw [Span.text?, Text.slice?_eq_some_iff]
    refine ⟨before ++ front, back ++ behind, by simp [ht, htext], ?_, ?_⟩
    · rw [Text.byteSize_append, hstart, hbefore]
    · rw [Span.stop, hlen]
  · intro c hc
    simp [htext, hc]

/-- A span of a fragment was found by one of the passes. -/
theorem Fragment.exists_pass_of_mem_classify {f : Fragment} {s : Span}
    (hs : s ∈ f.classify) : ∃ p : Pass, s ∈ p.spans f := by
  unfold Fragment.classify at hs
  split at hs
  · simp at hs
  · split at hs
    · exact ⟨.comment, hs⟩
    · obtain ⟨p, -, hp⟩ := List.mem_flatMap.1 hs
      exact ⟨p, hp⟩

theorem Pass.spans_pairwise_precedes (p : Pass) (f : Fragment) :
    (p.spans f).Pairwise Span.Precedes := by
  refine (p.spans_cutFrom f).pairwise.imp_of_mem ?_
  intro a b ha hb hab
  right
  exact ⟨by rw [Pass.pass_of_mem_spans ha, Pass.pass_of_mem_spans hb], hab⟩

/-- The spans of a fragment are in the order of the passes and of the text. -/
theorem Fragment.classify_pairwise_precedes (f : Fragment) :
    f.classify.Pairwise Span.Precedes := by
  unfold Fragment.classify
  split
  · exact List.Pairwise.nil
  · split
    · exact Pass.comment.spans_pairwise_precedes f
    · rw [List.pairwise_flatMap]
      refine ⟨fun p _ => p.spans_pairwise_precedes f, ?_⟩
      have hrank : Pass.all.Pairwise fun p q => p.rank < q.rank := by decide
      refine hrank.imp ?_
      intro p q hpq a ha b hb
      left
      rwa [Pass.pass_of_mem_spans ha, Pass.pass_of_mem_spans hb]

/-- The spans of a category are those that its own pass finds.  Where a comment opens the
fragment, there are none but comments. -/
theorem Fragment.filter_classify (f : Fragment) (k : Category) :
    f.classify.filter (·.category == k) =
      if f.opensWithComment = true ∧ k ≠ .comment then []
      else (k.pass.spans f).filter (·.category == k) := by
  have hother : ∀ p : Pass, p ≠ k.pass → (p.spans f).filter (·.category == k) = [] := by
    intro p hp
    rw [List.filter_eq_nil_iff]
    intro s hs hk
    have hpass := Pass.pass_of_mem_spans hs
    rw [beq_iff_eq.1 hk] at hpass
    exact hp hpass.symm
  rw [Fragment.classify_eq]
  split
  · rename_i hopens
    by_cases hk : k = .comment
    · subst hk
      simp [Category.pass]
    · rw [if_pos ⟨hopens, hk⟩]
      apply hother
      cases k <;> simp_all [Category.pass]
  · rename_i hopens
    rw [if_neg fun h => hopens h.1, List.filter_flatMap]
    generalize k.pass = own at hother ⊢
    cases own <;> simp [Pass.all, hother]

/-- Where no comment opens the fragment, the spans of each pass are all that it finds. -/
theorem Fragment.filter_classify_pass {f : Fragment} (hopens : f.opensWithComment = false)
    (p : Pass) : f.classify.filter (·.category.pass == p) = p.spans f := by
  have hpass : ∀ q : Pass,
      (q.spans f).filter (·.category.pass == p) = if q = p then q.spans f else [] := by
    intro q
    split
    · rename_i heq
      rw [List.filter_eq_self]
      intro s hs
      rw [Pass.pass_of_mem_spans hs, heq, beq_self_eq_true]
    · rename_i hne
      rw [List.filter_eq_nil_iff]
      intro s hs
      rw [Pass.pass_of_mem_spans hs, beq_iff_eq]
      exact hne
  rw [classify_eq, if_neg (by simp [hopens]), List.filter_flatMap]
  simp only [hpass]
  cases p <;> simp [Pass.all]

theorem Fragment.filter_classify_sublist (f : Fragment) (k : Category) :
    (f.classify.filter (·.category == k)).Sublist (k.pass.spans f) := by
  rw [filter_classify]
  split
  · exact List.nil_sublist _
  · exact List.filter_sublist

theorem Fragment.filter_classify_cutFrom (f : Fragment) (k : Category) :
    CutFrom f.start f.text (f.classify.filter (·.category == k)) :=
  (k.pass.spans_cutFrom f).sublist (f.filter_classify_sublist k)

theorem Fragment.countP_classify_le_one (f : Fragment) {k : Category}
    (hk : k.pass.onlyFirst = true) : f.classify.countP (·.category == k) ≤ 1 := by
  rw [List.countP_eq_length_filter]
  exact (f.filter_classify_sublist k).length_le.trans (k.pass.length_spans_le_one hk f)

theorem Fragment.wellTagged_classify (f : Fragment) : f.WellTagged f.classify where
  liesIn := by
    intro s hs
    obtain ⟨p, hp⟩ := exists_pass_of_mem_classify hs
    exact (p.spans_cutFrom f).liesIn hp
  ordered := f.classify_pairwise_precedes
  comment_le_one := f.countP_classify_le_one rfl
  marker_le_one := f.countP_classify_le_one rfl

/-- The text that a span of a fragment has in the text around the fragment. -/
theorem Fragment.exists_text_of_mem_classify {t : Text} {f : Fragment} (hf : f.LiesIn t)
    {s : Span} (hs : s ∈ f.classify) :
    ∃ part, s.text? t = some part ∧ part ≠ [] ∧ ∀ c ∈ part, c ∈ f.text := by
  obtain ⟨p, hp⟩ := exists_pass_of_mem_classify hs
  exact (p.spans_cutFrom f).exists_text hf hp

/-- A span of a document lies in one of the lines, and there is a text under it, which does
not go beyond the line. -/
theorem Document.exists_line_of_mem_classify {d : Document} {s : Span}
    (hs : s ∈ d.classify) :
    ∃ line ∈ d.lines, s ∈ line.classify ∧ s.LiesIn line ∧
      ∃ part, s.text? d.text = some part ∧ part ≠ [] ∧ '\n' ∉ part := by
  obtain ⟨line, hline, hs⟩ := List.mem_flatMap.1 hs
  obtain ⟨hliesIn, hlf⟩ := Document.liesIn_of_mem_lines hline
  obtain ⟨part, htext, hpart, hmem⟩ := Fragment.exists_text_of_mem_classify hliesIn hs
  exact ⟨line, hline, hs, line.wellTagged_classify.liesIn s hs, part, htext, hpart,
    fun h => hlf (hmem _ h)⟩

/-- The spans of one category in a whole document are cut from its text. -/
theorem Document.filter_classify_cutFrom (d : Document) (k : Category) :
    CutFrom 0 d.text (d.classify.filter (·.category == k)) := by
  rw [Document.classify, List.filter_flatMap]
  exact CutFrom.flatMap_lines (fun f => f.filter_classify_cutFrom k) 0 d.text

/-- Every classification is well formed: that of any fragment on its own; that of a
document, whether on one or on several workers, where each span has a text within one line
and the spans of a category follow each other; and that of a window, where each span has a
text in the document. -/
theorem wellTagged_classification :
    (∀ f : Fragment, f.WellTagged f.classify) ∧
      ∀ d : Document,
        (∀ s ∈ d.classify, ∃ line ∈ d.lines, s ∈ line.classify ∧ s.LiesIn line ∧
          ∃ part, s.text? d.text = some part ∧ part ≠ [] ∧ '\n' ∉ part) ∧
        (∀ k : Category, (d.classify.filter (·.category == k)).Pairwise fun a b =>
          a.start < b.start ∧ a.stop ≤ b.start) ∧
        (∀ workers, 0 < workers → ∃ spans, d.classifyParallel workers = .ok spans ∧
          ∀ s ∈ spans, ∃ line ∈ d.lines, s ∈ line.classify ∧ s.LiesIn line ∧
            ∃ part, s.text? d.text = some part ∧ part ≠ [] ∧ '\n' ∉ part) ∧
        ∀ start stop f, d.window start stop = .ok f →
          d.classifyWindow start stop = .ok f.classify ∧
            f.start = start ∧ f.stop = stop ∧
            ∀ s ∈ f.classify, s.LiesIn f ∧
              ∃ part, s.text? d.text = some part ∧ part ≠ [] := by
  refine ⟨Fragment.wellTagged_classify, fun d => ⟨?_, ?_, ?_, ?_⟩⟩
  · intro s hs
    exact Document.exists_line_of_mem_classify hs
  · intro k
    exact (d.filter_classify_cutFrom k).pairwise_start_lt
  · intro workers hworkers
    exact ⟨d.classify, d.classifyParallel_of_pos hworkers,
      fun s hs => Document.exists_line_of_mem_classify hs⟩
  · intro start stop f hwindow
    obtain ⟨hliesIn, hstart, hstop⟩ := Document.window_eq_ok hwindow
    refine ⟨by rw [Document.classifyWindow, hwindow]; rfl, hstart, hstop, ?_⟩
    intro s hs
    obtain ⟨part, htext, hpart, -⟩ := Fragment.exists_text_of_mem_classify hliesIn hs
    exact ⟨f.wellTagged_classify.liesIn s hs, part, htext, hpart⟩

/-- The operator in a window that begins behind a marker and ends before a string, in a
document that three workers classify. -/
theorem wellTagged_classification_in_window :
    let d := Document.ofText "@é = \"x\"\n$(B) 1".toList
    let f : Fragment := ⟨"é = ".toList, 1⟩
    let s : Span := ⟨.operator, 4, 1⟩
    (0 < 3 ∧ ∃ spans, d.classifyParallel 3 = .ok spans) ∧
      d.window 1 6 = .ok f ∧ d.classifyWindow 1 6 = .ok [s] ∧ s.LiesIn f ∧
        ∃ part, s.text? d.text = some part ∧ part ≠ [] := by
  intro d f s
  have hwindow : d.window 1 6 = .ok f := by decide
  have hs : f.classify = [s] := by decide
  obtain ⟨-, -, hparallel, hf⟩ := wellTagged_classification.2 d
  obtain ⟨spans, hspans, -⟩ := hparallel 3 (by decide)
  obtain ⟨hclassify, -, -, hmem⟩ := hf 1 6 f hwindow
  rw [hs] at hclassify hmem
  exact ⟨⟨by decide, spans, hspans⟩, hwindow, hclassify, hmem s List.mem_cons_self⟩

end BmakeHighlight
