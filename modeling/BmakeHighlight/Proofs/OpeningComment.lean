/-
Comments at the beginning of a fragment.  Such a comment stands alone, and it goes
up to the first line feed.  Where there is none, as in a line of a document, the
comment takes up the fragment and there is nothing else to find.  In a window of
several lines it is the first of them, and what would be found behind it is hidden.
-/
import BmakeHighlight.Proofs.CommentExtent
import BmakeHighlight.Proofs.WindowAgreement

namespace BmakeHighlight

/-- The part of a fragment up to its first line feed. -/
def Fragment.firstLine (f : Fragment) : Fragment :=
  { f with text := f.text.takeWhile (· != '\n') }

/-- Does everything that the passes find in the fragment lie within a comment that is listed? -/
def Fragment.CommentCoversAll (f : Fragment) : Prop :=
  ∀ p : Pass, ∀ s ∈ p.spans f,
    ∃ c ∈ f.classify, c.category = .comment ∧ c.start ≤ s.start ∧ s.stop ≤ c.stop

/-- The spans of a pass that are not within the first line of the fragment. -/
def Pass.spansBehind (p : Pass) (f : Fragment) : List Span :=
  (p.spans f).filter fun s => !f.firstLine.holds s

section FirstLine

variable {f : Fragment} {body rest : Text}

theorem takeWhile_of_lf_not_mem (hbody : '\n' ∉ body) : body.takeWhile (· != '\n') = body := by
  rw [List.takeWhile_eq_self_iff]
  intro c hc
  rw [bne_iff_ne]
  exact ne_of_mem_of_not_mem hc hbody

theorem Fragment.firstLine_eq_self (hlf : '\n' ∉ f.text) : f.firstLine = f := by
  rw [firstLine, takeWhile_of_lf_not_mem hlf]

theorem Fragment.firstLine_append_lf (hbody : '\n' ∉ body) (rest : Text) (start : Nat) :
    (⟨body ++ '\n' :: rest, start⟩ : Fragment).firstLine = ⟨body, start⟩ := by
  rw [firstLine, takeWhile_append_cons_of_neg (by decide), takeWhile_of_lf_not_mem hbody]

/-- A comment with nothing in front takes up the first line. -/
theorem Text.CommentAt.takeWhile_eq {t blanks : Text} (h : t.CommentAt [] blanks body rest) :
    t.takeWhile (· != '\n') = blanks ++ '#' :: body := by
  have hlf : '\n' ∉ blanks ++ '#' :: body := by
    rw [List.mem_append, List.mem_cons]
    rintro (hmem | hmem | hmem)
    · exact absurd (h.blank '\n' hmem) (by decide)
    · exact absurd hmem (by decide)
    · exact h.lf_not_mem hmem
  have htext : t = (blanks ++ '#' :: body) ++ rest := by simp [h.text_eq]
  cases hrest : rest with
  | nil => rw [htext, hrest, List.append_nil, takeWhile_of_lf_not_mem hlf]
  | cons c rest =>
      have hc : c = '\n' := h.rest_head c (by rw [hrest]; rfl)
      rw [htext, hrest, hc, takeWhile_append_cons_of_neg (by decide), takeWhile_of_lf_not_mem hlf]

/-- A comment at the beginning stands alone and takes up the first line. -/
theorem Fragment.classify_of_opensWithComment (h : f.opensWithComment = true) :
    f.classify = [⟨.comment, f.start, f.firstLine.text.byteSize⟩] := by
  have hbare : ¬ f.text.SignsBare := by
    intro hbare
    rw [opensWithComment, hbare.spans_comment] at h
    exact absurd h (by simp)
  obtain ⟨front, blanks, body, rest, hcomment⟩ := Text.exists_commentAt hbare
  obtain rfl := hcomment.opensWithComment_iff.1 h
  rw [hcomment.classify_eq, if_pos rfl, firstLine, hcomment.takeWhile_eq]
  rfl

end FirstLine

section Behind

variable {f : Fragment} {p : Pass} {body : Text}

/-- The comment that opens a fragment covers all there is when no pass finds anything behind the
first line. -/
theorem Fragment.commentCoversAll_iff (h : f.opensWithComment = true) :
    f.CommentCoversAll ↔ ∀ p : Pass, p.spansBehind f = [] := by
  have hholds : ∀ s : Span, (∃ c ∈ f.classify, c.category = .comment ∧ c.start ≤ s.start ∧
      s.stop ≤ c.stop) ↔ f.firstLine.holds s = true := by
    intro s
    rw [classify_of_opensWithComment h, holds_iff]
    simp only [List.mem_singleton, exists_eq_left, true_and]
    rfl
  rw [CommentCoversAll]
  refine forall_congr' fun p => ?_
  rw [Pass.spansBehind, List.filter_eq_nil_iff]
  refine forall₂_congr fun s _ => ?_
  rw [hholds, Bool.not_eq_true, Bool.not_eq_false']

theorem Pass.spansBehind_eq_nil (hlf : '\n' ∉ f.text) (p : Pass) : p.spansBehind f = [] := by
  rw [spansBehind, List.filter_eq_nil_iff, Fragment.firstLine_eq_self hlf]
  intro s hs
  rw [((p.spans_cutFrom f).liesIn hs).holds]
  decide

/-- A pass that keeps to lines searches the first line and the text behind it. -/
theorem Pass.spans_append_lf (hp : p.isLineLocal = true) (body rest : Text) (start : Nat) :
    p.spans ⟨body ++ '\n' :: rest, start⟩ =
      p.spans ⟨body, start⟩ ++ p.spans ⟨rest, start + Text.byteSize (body ++ ['\n'])⟩ := by
  have hstops := stopsAt hp (c := '\n') (by decide)
  rw [spans_eq_scan hp, spans_eq_scan hp, spans_eq_scan hp, hstops.scan_append p.matcher_sound]

/-- What such a pass finds behind the first line is what it finds in the text there. -/
theorem Pass.spansBehind_append_lf (hp : p.isLineLocal = true) (hbody : '\n' ∉ body)
    (rest : Text) (start : Nat) :
    p.spansBehind ⟨body ++ '\n' :: rest, start⟩ =
      p.spans ⟨rest, start + Text.byteSize (body ++ ['\n'])⟩ := by
  rw [spansBehind, spans_append_lf hp, Fragment.firstLine_append_lf hbody, List.filter_append]
  have hfirst : (p.spans ⟨body, start⟩).filter
      (fun s => !(⟨body, start⟩ : Fragment).holds s) = [] := by
    rw [List.filter_eq_nil_iff]
    intro s hs
    rw [((p.spans_cutFrom ⟨body, start⟩).liesIn hs).holds]
    decide
  have hrest : (p.spans ⟨rest, start + Text.byteSize (body ++ ['\n'])⟩).filter
      (fun s => !(⟨body, start⟩ : Fragment).holds s) =
        p.spans ⟨rest, start + Text.byteSize (body ++ ['\n'])⟩ := by
    rw [List.filter_eq_self]
    intro s hs
    have hcut := p.spans_cutFrom ⟨rest, start + Text.byteSize (body ++ ['\n'])⟩
    have hstart := hcut.start_ge hs
    have hlen := hcut.len_pos hs
    have hlf := Char.utf8Size_pos '\n'
    rw [Text.byteSize_append, Text.byteSize_cons, Text.byteSize_nil] at hstart
    rw [Bool.not_eq_true', ← Bool.not_eq_true, Fragment.holds_iff, Span.stop, Fragment.stop]
    dsimp only at hstart ⊢
    omega
  rw [hfirst, hrest, List.nil_append]

end Behind

/-- A comment at the beginning of a fragment stands alone and takes up the first line.  In a line
of a document it covers all that the passes would find.  In a window it does so when there is no
line feed in the window; otherwise, what the passes that keep to lines would find behind the first
line is left out, and that is what they find in the text there. -/
theorem Document.openingComment_covers (d : Document) :
    (∀ f ∈ d.lines, f.opensWithComment = true → f.CommentCoversAll) ∧
      ∀ start stop f, d.window start stop = .ok f → f.opensWithComment = true →
        d.classifyWindow start stop = .ok [⟨.comment, start, f.firstLine.text.byteSize⟩] ∧
          (f.CommentCoversAll ↔ ∀ p : Pass, p.spansBehind f = []) ∧
          ('\n' ∉ f.text → f.CommentCoversAll) ∧
          ∀ body rest, '\n' ∉ body → f.text = body ++ '\n' :: rest →
            f.firstLine.text = body ∧
              ∀ p : Pass, p.isLineLocal = true →
                p.spansBehind f = p.spans ⟨rest, start + Text.byteSize (body ++ ['\n'])⟩ := by
  have hcovers : ∀ f : Fragment, '\n' ∉ f.text → f.opensWithComment = true →
      f.CommentCoversAll := by
    intro f hlf hopens
    exact (Fragment.commentCoversAll_iff hopens).2 (Pass.spansBehind_eq_nil hlf)
  refine ⟨fun f hf => hcovers f (liesIn_of_mem_lines hf).2, ?_⟩
  intro start stop f hwindow hopens
  obtain ⟨-, rfl, -⟩ := window_eq_ok hwindow
  refine ⟨?_, Fragment.commentCoversAll_iff hopens, fun hlf => hcovers f hlf hopens, ?_⟩
  · rw [classifyWindow, hwindow, ← Fragment.classify_of_opensWithComment hopens]
    rfl
  · intro body rest hbody htext
    obtain ⟨text, start⟩ := f
    dsimp only at htext
    subst htext
    rw [Fragment.firstLine_append_lf hbody]
    exact ⟨rfl, fun p hp => Pass.spansBehind_append_lf hp hbody rest start⟩

/-- The first line of a window is a comment, and there is an operator in the second one. -/
theorem Document.openingComment_covers_first_line :
    let d := ofText "x\n# é = 1\n= 2".toList
    let f : Fragment := ⟨"# é = 1\n=".toList, 2⟩
    d.window 2 12 = .ok f ∧ f.opensWithComment = true ∧
      d.classifyWindow 2 12 = .ok [⟨.comment, 2, 8⟩] ∧
      Pass.operator.spansBehind f = [⟨.operator, 11, 1⟩] ∧
      ∃ line ∈ d.lines, line.opensWithComment = true ∧ line.CommentCoversAll := by
  intro d f
  have hwindow : d.window 2 12 = .ok f := by decide
  have hopens : f.opensWithComment = true := by decide
  obtain ⟨hlines, hwindows⟩ := d.openingComment_covers
  obtain ⟨hclassify, -, -, hbehind⟩ := hwindows 2 12 f hwindow hopens
  refine ⟨hwindow, hopens, hclassify, ?_, ⟨"# é = 1".toList, 2⟩, by decide, by decide, ?_⟩
  · rw [(hbehind "# é = 1".toList ['='] (by decide) rfl).2 .operator rfl]
    decide
  · exact hlines _ (by decide) (by decide)

/-- So not everything in a window is covered by the comment that opens it: the number here is on
the second line. -/
theorem Document.openingComment_hides_number :
    let d := ofText "#a\n1".toList
    let f : Fragment := ⟨"#a\n1".toList, 0⟩
    d.window 0 4 = .ok f ∧ f.opensWithComment = true ∧
      d.classifyWindow 0 4 = .ok [⟨.comment, 0, 2⟩] ∧
      Pass.number.spans f = [⟨.number, 3, 1⟩] ∧ ¬ f.CommentCoversAll := by
  intro d f
  have hclassify : f.classify = [⟨.comment, 0, 2⟩] := by decide
  have hnumber : Pass.number.spans f = [⟨.number, 3, 1⟩] := by decide
  refine ⟨by decide, by decide, by decide, hnumber, ?_⟩
  intro hcovers
  obtain ⟨c, hc, -, -, hstop⟩ := hcovers .number ⟨.number, 3, 1⟩ (by rw [hnumber]; simp)
  rw [hclassify, List.mem_singleton] at hc
  subst hc
  exact absurd hstop (by decide)

end BmakeHighlight
