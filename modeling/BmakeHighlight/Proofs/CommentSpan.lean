/-
The comment of a fragment.  Of the number signs with something behind them on their
line the first begins the comment, together with the white space right before it, and
the comment goes up to the line feed or to the end of the fragment.  With nothing but
that white space before it the comment is the only span; otherwise the other passes
search the whole fragment, the comment included.
-/
import BmakeHighlight.Proofs.CommentExtent

namespace BmakeHighlight

/-- A number sign with something behind it on its line, between what stands before and behind
it in the text. -/
def Text.SignAt (t before behind : Text) : Prop :=
  t = before ++ '#' :: behind ∧ ∃ c ∈ behind.head?, c ≠ '\n'

/-- The first number sign of a text with something behind it on its line. -/
def Text.FirstSignAt (t before behind : Text) : Prop :=
  t.SignAt before behind ∧
    ∀ before' behind', t.SignAt before' behind' → before.length ≤ before'.length

/-- The comment that a number sign begins: the white space that ends right before the sign, the
sign, and what stands behind it on its line. -/
def Fragment.commentSpan (f : Fragment) (before behind : Text) : Span :=
  ⟨.comment, f.start + Text.byteSize (before.rdropWhile isLineBlank),
    Text.byteSize (before.rtakeWhile isLineBlank ++ '#' :: behind.takeWhile (· != '\n'))⟩

section Signs

variable {t before behind : Text}

theorem Text.signsBare_iff_forall_not_signAt :
    t.SignsBare ↔ ∀ before behind, ¬ t.SignAt before behind := by
  rw [signsBare_iff]
  constructor
  · rintro h before behind ⟨rfl, c, hc, hne⟩
    obtain ⟨rest, rfl⟩ := List.head?_eq_some_iff.1 hc
    exact hne (h before c rest rfl)
  · rintro h front c rest rfl
    by_contra hne
    exact h front (c :: rest) ⟨rfl, c, rfl, hne⟩

/-- A sign is the first one when all number signs before it are bare. -/
theorem Text.firstSignAt_iff :
    t.FirstSignAt before behind ↔ t.SignAt before behind ∧ SignsBare (before ++ ['#']) := by
  refine and_congr_right ?_
  rintro ⟨rfl, c, hc, -⟩
  obtain ⟨rest, rfl⟩ := List.head?_eq_some_iff.1 hc
  rw [signsBare_iff]
  constructor
  · intro hfirst front d middle hsplit
    by_contra hd
    have htext : before ++ '#' :: c :: rest = front ++ '#' :: d :: (middle ++ c :: rest) := by
      rw [List.append_cons, hsplit]
      simp
    have hle := hfirst front (d :: (middle ++ c :: rest)) ⟨htext, d, rfl, hd⟩
    have hlength := congrArg List.length hsplit
    simp only [List.length_append, List.length_cons, List.length_nil] at hlength
    omega
  · rintro hbare before' behind' ⟨hsplit, d, hd, hlf⟩
    obtain ⟨rest', rfl⟩ := List.head?_eq_some_iff.1 hd
    by_contra hlt
    -- A sign further to the front would stand in the part where all of them are bare.
    rcases List.append_eq_append_iff.1 hsplit with ⟨more, hmore, -⟩ | ⟨more, hbefore, hmore⟩
    · rw [hmore, List.length_append] at hlt
      omega
    · cases more with
      | nil => simp [hbefore] at hlt
      | cons sign more =>
          simp only [List.cons_append, List.cons.injEq] at hmore
          obtain ⟨rfl, hmore⟩ := hmore
          rw [List.append_cons] at hmore
          have hne : more ++ ['#'] ≠ [] := by simp
          obtain ⟨e, last, hlast⟩ := List.exists_cons_of_ne_nil hne
          rw [hlast, List.cons_append, List.cons.injEq] at hmore
          rw [hbefore, List.append_assoc, List.cons_append, hlast] at hbare
          exact hlf (hmore.1.trans (hbare _ _ _ rfl))

theorem Text.exists_firstSignAt (h : ¬ t.SignsBare) :
    ∃ before behind, t.FirstSignAt before behind := by
  obtain ⟨before, c, rest, ht, hc, hbare⟩ := exists_sign_of_not_signsBare h
  exact ⟨before, c :: rest, firstSignAt_iff.2 ⟨⟨ht, c, rfl, hc⟩, hbare⟩⟩

/-- The first sign with its comment around it. -/
theorem Text.FirstSignAt.commentAt (h : t.FirstSignAt before behind) :
    t.CommentAt (before.rdropWhile isLineBlank) (before.rtakeWhile isLineBlank)
      (behind.takeWhile (· != '\n')) (behind.dropWhile (· != '\n')) := by
  obtain ⟨⟨ht, c, hc, hlf⟩, hbare⟩ := firstSignAt_iff.1 h
  obtain ⟨rest, rfl⟩ := List.head?_eq_some_iff.1 hc
  exact CommentAt.of_sign ht hlf hbare

end Signs

section Fragments

variable {f : Fragment} {before behind : Text}

/-- A comment begins at the start of its fragment when nothing but white space is before its
number sign. -/
theorem Fragment.start_commentSpan_eq_iff :
    (f.commentSpan before behind).start = f.start ↔ ∀ c ∈ before, isLineBlank c = true := by
  rw [← List.rdropWhile_eq_nil_iff, ← Text.byteSize_eq_zero_iff]
  exact Nat.add_eq_left

theorem Fragment.classify_of_firstSignAt (h : f.text.FirstSignAt before behind) :
    f.classify = f.commentSpan before behind ::
      if (f.commentSpan before behind).start = f.start then [] else f.otherSpans := by
  rw [h.commentAt.classify_eq]
  simp only [start_commentSpan_eq_iff, List.rdropWhile_eq_nil_iff]
  rfl

/-- A comment in a text of one line goes on to the end. -/
theorem Fragment.stop_commentSpan (h : f.text.FirstSignAt before behind) (hlf : '\n' ∉ f.text) :
    (f.commentSpan before behind).stop = f.stop := by
  have htext := h.commentAt.text_eq
  rw [h.commentAt.rest_eq_nil hlf, List.append_nil] at htext
  rw [Span.stop, Fragment.stop, htext, Text.byteSize_append, ← Nat.add_assoc]
  rfl

end Fragments

/-- The comment of a fragment.  Without a number sign that has something behind it on its line there
is none, and the spans are those of the other passes.  Otherwise the first such sign gives the only
comment.  It begins at the start of the fragment when there is only white space before the sign, and
then it is the only span; if not, the spans of the other passes follow, found in the whole of the
fragment.  In a line of a document the comment goes on to the end. -/
theorem Fragment.classify_comment (f : Fragment) :
    ((∀ before behind, ¬ f.text.SignAt before behind) →
      (∀ s ∈ f.classify, s.category ≠ .comment) ∧ f.classify = f.otherSpans) ∧
    ((∃ before behind, f.text.SignAt before behind) →
      ∃ before behind, f.text.FirstSignAt before behind) ∧
    ∀ before behind, f.text.FirstSignAt before behind →
      let comment := f.commentSpan before behind
      f.classify.filter (·.category == .comment) = [comment] ∧
        (comment.start = f.start ↔ ∀ c ∈ before, isLineBlank c = true) ∧
        (comment.start = f.start → f.classify = [comment]) ∧
        (comment.start ≠ f.start → f.classify = comment :: f.otherSpans) ∧
        ∀ d : Document, f ∈ d.lines → comment.stop = f.stop := by
  refine ⟨?_, ?_, ?_⟩
  · intro hnone
    rw [(Text.signsBare_iff_forall_not_signAt.2 hnone).classify_eq]
    exact ⟨fun s hs => category_ne_of_mem_otherSpans hs, rfl⟩
  · rintro ⟨before, behind, hsign⟩
    apply Text.exists_firstSignAt
    rw [Text.signsBare_iff_forall_not_signAt]
    exact fun hnone => hnone before behind hsign
  · intro before behind hfirst comment
    have hother : f.otherSpans.filter (·.category == .comment) = [] := by
      rw [List.filter_eq_nil_iff]
      intro s hs
      simpa using category_ne_of_mem_otherSpans hs
    have hclassify : f.classify =
        comment :: if comment.start = f.start then [] else f.otherSpans :=
      classify_of_firstSignAt hfirst
    refine ⟨?_, start_commentSpan_eq_iff, fun h => by rw [hclassify, if_pos h],
      fun h => by rw [hclassify, if_neg h],
      fun d hd => stop_commentSpan hfirst (Document.liesIn_of_mem_lines hd).2⟩
    rw [hclassify, List.filter_cons_of_pos (by rfl)]
    split
    · rfl
    · rw [hother]

/-- A window whose first number sign is bare, so that the comment is in its second line; and the
lines of a document, the first with a bare sign and the second with a comment of its own. -/
theorem Fragment.classify_comment_behind_bare_sign :
    let f : Fragment := ⟨"x #\n\u00a0\t#é # 1\n= 2".toList, 5⟩
    let d := Document.ofText "1 #\n # é".toList
    let bare : Fragment := ⟨"1 #".toList, 0⟩
    let line : Fragment := ⟨" # é".toList, 4⟩
    (f.text.FirstSignAt "x #\n\u00a0\t".toList "é # 1\n= 2".toList ∧
        f.classify = ⟨.comment, 9, 10⟩ :: f.otherSpans ∧ ⟨.number, 18, 1⟩ ∈ f.otherSpans) ∧
      (bare.text.SignsBare ∧ bare.classify = [⟨.number, 0, 1⟩]) ∧
      line ∈ d.lines ∧ line.text.FirstSignAt [' '] " é".toList ∧
        line.classify = [⟨.comment, 4, 5⟩] ∧ (⟨.comment, 4, 5⟩ : Span).stop = line.stop := by
  intro f d bare line
  have hfirst : f.text.FirstSignAt "x #\n\u00a0\t".toList "é # 1\n= 2".toList :=
    Text.firstSignAt_iff.2 ⟨⟨rfl, 'é', rfl, by decide⟩, by decide⟩
  have hfirst' : line.text.FirstSignAt [' '] " é".toList :=
    Text.firstSignAt_iff.2 ⟨⟨rfl, ' ', rfl, by decide⟩, by decide⟩
  have hbare : bare.text.SignsBare := by decide
  have hline : line ∈ d.lines := by decide
  obtain ⟨-, -, hcomment⟩ := f.classify_comment
  obtain ⟨-, -, hcomment'⟩ := line.classify_comment
  obtain ⟨-, -, -, hothers, -⟩ := hcomment _ _ hfirst
  obtain ⟨-, -, halone, -, hstop⟩ := hcomment' _ _ hfirst'
  obtain ⟨-, hnone⟩ := bare.classify_comment.1 (Text.signsBare_iff_forall_not_signAt.1 hbare)
  refine ⟨⟨hfirst, hothers (by decide), by decide⟩, ⟨hbare, ?_⟩, hline, hfirst',
    halone (by decide), hstop d hline⟩
  rw [hnone]
  decide

end BmakeHighlight
