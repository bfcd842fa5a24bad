/-
Lines against windows.  A document can be classified line by line or as one
window.  For categories whose passes keep to lines both find the same spans,
except in lines that a comment opens: there the lines stop looking, and the window
goes on.
-/
import BmakeHighlight.Proofs.LineLocality
import BmakeHighlight.Proofs.SpanBounds

namespace BmakeHighlight

/-- Is the span within the fragment? -/
def Fragment.holds (f : Fragment) (s : Span) : Bool :=
  decide (f.start ≤ s.start) && decide (s.stop ≤ f.stop)

/-- Is the span within a line that no comment opens? -/
def Document.inOpenLine (d : Document) (s : Span) : Bool :=
  d.lines.any fun line => line.holds s && !line.opensWithComment

theorem Fragment.holds_iff {f : Fragment} {s : Span} :
    f.holds s = true ↔ f.start ≤ s.start ∧ s.stop ≤ f.stop := by
  rw [holds, Bool.and_eq_true, decide_eq_true_eq, decide_eq_true_eq]

theorem Span.LiesIn.holds {f : Fragment} {s : Span} (h : s.LiesIn f) : f.holds s = true :=
  Fragment.holds_iff.2 ⟨h.start_le, h.stop_le⟩

/-- No two lines hold the same span. -/
theorem Document.eq_of_holds {d : Document} {line other : Fragment} (hline : line ∈ d.lines)
    (hother : other ∈ d.lines) {s : Span} (hlen : 0 < s.len) (h : line.holds s = true)
    (h' : other.holds s = true) : line = other := by
  obtain ⟨hstart, hstop⟩ := Fragment.holds_iff.1 h
  obtain ⟨hstart', hstop'⟩ := Fragment.holds_iff.1 h'
  rw [Span.stop] at hstop hstop'
  by_contra hne
  have happart := apart_of_pairwise d.lines_pairwise_stop_lt hline hother hne
  omega

/-- Whether a span of a line is within an open line is decided by that line. -/
theorem Document.inOpenLine_eq {d : Document} {line : Fragment} (hline : line ∈ d.lines)
    {s : Span} (hs : s.LiesIn line) : d.inOpenLine s = !line.opensWithComment := by
  rw [Bool.eq_iff_iff, inOpenLine, List.any_eq_true]
  constructor
  · rintro ⟨other, hother, h⟩
    rw [Bool.and_eq_true] at h
    rw [eq_of_holds hline hother hs.len_pos hs.holds h.1]
    exact h.2
  · intro h
    exact ⟨line, hline, by rw [hs.holds, h]; rfl⟩

/-- A pass that keeps to lines has a single category. -/
theorem Category.eq_of_pass_eq {j k : Category} (hk : k.pass.isLineLocal = true)
    (h : j.pass = k.pass) : j = k := by
  cases j <;> cases k <;> simp_all [Category.pass, Pass.isLineLocal]

theorem Fragment.filter_classify_of_isLineLocal (f : Fragment) {k : Category}
    (hk : k.pass.isLineLocal = true) :
    f.classify.filter (·.category == k) =
      if f.opensWithComment = true then [] else k.pass.spans f := by
  have hcomment : k ≠ .comment := by
    rintro rfl
    exact absurd hk (by decide)
  have hown : (k.pass.spans f).filter (·.category == k) = k.pass.spans f := by
    rw [List.filter_eq_self]
    intro s hs
    exact beq_iff_eq.2 (Category.eq_of_pass_eq hk (Pass.pass_of_mem_spans hs))
  simp only [filter_classify, hown, hcomment, ne_eq, not_false_eq_true, and_true]

theorem Document.window_zero_size (d : Document) :
    d.window 0 d.size = .ok (Fragment.whole d.text) := by
  have hsplit : d.text = [] ++ d.text ++ [] := by simp
  have hwindow := window_of_append hsplit
  rwa [Text.byteSize_nil, Nat.zero_add] at hwindow

/-- Lines and window agree.  When no comment opens the document, the window over all of it finds
a span of one of these categories only within a line, and those within lines that no comment
opens are, in this order, the spans of the document. -/
theorem Document.classifyWindow_agrees {d : Document}
    (hopens : (Fragment.whole d.text).opensWithComment = false) :
    ∃ spans, d.classifyWindow 0 d.size = .ok spans ∧
      ∀ k ∈ [Category.keyword, .operator, .stringLiteral, .number],
        (∀ s ∈ spans, s.category = k → ∃ line ∈ d.lines, line.holds s = true) ∧
          spans.filter (fun s => d.inOpenLine s && s.category == k) =
            d.classify.filter (·.category == k) := by
  refine ⟨(Fragment.whole d.text).classify, by rw [classifyWindow, window_zero_size]; rfl, ?_⟩
  intro k hk
  have hlocal : k.pass.isLineLocal = true := by
    revert k
    decide
  have hwindow : (Fragment.whole d.text).classify.filter (·.category == k) =
      d.lines.flatMap k.pass.spans := by
    rw [Fragment.filter_classify_of_isLineLocal _ hlocal, if_neg (by simp [hopens])]
    exact Pass.spans_eq_flatMap_lines hlocal 0 d.text
  constructor
  · intro s hs hcategory
    have hmem : s ∈ d.lines.flatMap k.pass.spans := by
      rw [← hwindow, List.mem_filter]
      exact ⟨hs, beq_iff_eq.2 hcategory⟩
    obtain ⟨line, hline, hs⟩ := List.mem_flatMap.1 hmem
    exact ⟨line, hline, ((k.pass.spans_cutFrom line).liesIn hs).holds⟩
  · rw [← List.filter_filter, hwindow, classify, List.filter_flatMap, List.filter_flatMap]
    apply List.flatMap_congr
    intro line hline
    have hopen : ∀ s ∈ k.pass.spans line, d.inOpenLine s = !line.opensWithComment :=
      fun s hs => inOpenLine_eq hline ((k.pass.spans_cutFrom line).liesIn hs)
    rw [List.filter_congr hopen, Fragment.filter_classify_of_isLineLocal _ hlocal]
    cases line.opensWithComment <;> simp

/-- A quote that is open at the end of its line, a number whose point is the last character of
its line, and a line that a comment opens. -/
theorem Document.classifyWindow_agrees_number :
    let d := Document.ofText "%if 1.\r\n# 2\n\"a\n3\" 4".toList
    (Fragment.whole d.text).opensWithComment = false ∧
      ∃ spans, d.classifyWindow 0 d.size = .ok spans ∧
        ⟨.number, 10, 1⟩ ∈ spans ∧
        spans.filter (fun s => d.inOpenLine s && s.category == .number) =
          [⟨.number, 4, 1⟩, ⟨.number, 15, 1⟩, ⟨.number, 18, 1⟩] := by
  intro d
  have hopens : (Fragment.whole d.text).opensWithComment = false := by decide
  obtain ⟨spans, hwindow, hagrees⟩ := classifyWindow_agrees hopens
  refine ⟨hopens, spans, hwindow, ?_, ?_⟩
  · rw [classifyWindow, window_zero_size] at hwindow
    rw [← Except.ok.inj hwindow]
    decide
  · rw [(hagrees .number (by decide)).2]
    decide

end BmakeHighlight
