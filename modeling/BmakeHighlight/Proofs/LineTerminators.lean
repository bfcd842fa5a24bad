/-
Line terminators.  A line feed behind a line makes no difference to what is found
in the line.  A carriage return makes one to comments, which take it in: a comment
is one byte longer for it, and a number sign at the end of the line has something
behind it and so begins a comment.
-/
import BmakeHighlight.Proofs.CommentExtent

namespace BmakeHighlight

section Patterns

variable {c : Char}

theorem commentHere_ignores_lf : commentHere.Ignores ['\n'] := by
  have hblank : isLineBlank '\n' = false := by decide
  have hline : ∀ body : Text,
      (body ++ ['\n']).takeWhile (· != '\n') = body.takeWhile (· != '\n') :=
    fun body => takeWhile_append_cons_of_neg (by decide) body []
  intro before s
  simp only [commentHere, dropWhile_append_cons_of_neg hblank,
    takeWhile_append_cons_of_neg hblank]
  cases s.dropWhile isLineBlank with
  | nil => simp
  | cons d behind =>
      by_cases hd : d = '#'
      · subst hd
        simp only [List.cons_append, hline]
      · simp [hd]

/-- A reference that is still open at the end of the text is none. -/
theorem referenceHere_ignores (hc : c ∈ lineEnds) : referenceHere.Ignores [c] := by
  have hopener : ∀ c ∈ lineEnds, isOpener c = false := forall_mem_lineEnds.2 (by decide)
  have hcloser : ∀ c ∈ lineEnds, isCloser c = false := forall_mem_lineEnds.2 (by decide)
  intro before s
  cases s with
  | nil => simp [referenceHere]
  | cons d s =>
      by_cases hd : d = '$'
      · subst hd
        cases s with
        | nil => simp [referenceHere, hopener c hc]
        | cons opener s =>
            have hsplit : s.takeWhile (!isCloser ·) ++ s.dropWhile (!isCloser ·) = s :=
              List.takeWhile_append_dropWhile
            cases hbehind : s.dropWhile (!isCloser ·) with
            | nil => simp [referenceHere, List.dropWhile_append, hbehind, hcloser c hc]
            | cons closer behind =>
                have hlength : (s.takeWhile (!isCloser ·)).length ≠ s.length := by
                  have := congrArg List.length hsplit
                  rw [hbehind, List.length_append, List.length_cons] at this
                  omega
                simp [referenceHere, List.dropWhile_append, List.takeWhile_append, hbehind,
                  hlength]
      · simp [referenceHere, hd]

theorem markerHere_ignores (hc : c ∈ lineEnds) : markerHere.Ignores [c] := by
  have hmarker : ∀ c ∈ lineEnds, c ≠ '@' := forall_mem_lineEnds.2 (by decide)
  intro before s
  cases s with
  | nil => simp [markerHere, hmarker c hc]
  | cons d s => by_cases hd : d = '@' <;> simp [markerHere, hd]

end Patterns

/-- The one pass that can tell a line end at the end of a text is the comment pass, and it can
tell carriage returns only. -/
theorem Pass.ignores {p : Pass} {c : Char} (hc : c ∈ lineEnds) (hp : p = .comment → c = '\n') :
    p.matcher.Ignores [c] := by
  cases p with
  | comment =>
      rw [hp rfl]
      exact commentHere_ignores_lf
  | reference => exact referenceHere_ignores hc
  | marker => exact markerHere_ignores hc
  | keyword | operator | stringLiteral | number => exact (Pass.stopsAt rfl hc).ignores []

/-- A text with a number sign has a comment that ends with the carriage return behind it. -/
theorem Text.exists_commentAt_append_cr {s : Text} (hlf : '\n' ∉ s) (hsign : '#' ∈ s) :
    ∃ front blanks body, CommentAt (s ++ ['\r']) front blanks (body ++ ['\r']) [] := by
  have hmarked : ¬ SignsBare (s ++ ['\r']) := by
    intro hbare
    obtain ⟨front, behind, rfl, -⟩ := List.eq_append_cons_of_mem hsign
    rw [List.append_assoc, List.cons_append] at hbare
    cases behind with
    | nil => exact absurd (signsBare_iff.1 hbare front '\r' [] rfl) (by decide)
    | cons c behind =>
        have hc : c = '\n' := signsBare_iff.1 hbare front c (behind ++ ['\r']) rfl
        exact hlf (by simp [hc])
  obtain ⟨front, blanks, body, rest, h⟩ := exists_commentAt hmarked
  obtain rfl := h.rest_eq_nil (by simpa using hlf)
  have hlast : body.getLast? = some '\r' := by
    have htext : s ++ ['\r'] = front ++ blanks ++ ['#'] ++ body := by simp [h.text_eq]
    rw [← List.getLast?_append_of_ne_nil _ h.body_ne_nil, ← htext, List.getLast?_concat]
  obtain ⟨body, rfl⟩ := List.getLast?_eq_some_iff.1 hlast
  exact ⟨front, blanks, body, h⟩

namespace Text.CommentAt

variable {s front blanks body : Text}

/-- The text without the carriage return that ends its comment. -/
theorem eq_of_append_cr (h : CommentAt (s ++ ['\r']) front blanks (body ++ ['\r']) []) :
    s = front ++ (blanks ++ '#' :: body) := by
  have htext := h.text_eq
  rw [List.append_nil, ← List.cons_append, ← List.append_assoc, ← List.append_assoc] at htext
  rw [List.append_cancel_right htext, List.append_assoc]

theorem of_append_cr (h : CommentAt (s ++ ['\r']) front blanks (body ++ ['\r']) [])
    (hbody : body ≠ []) : s.CommentAt front blanks body [] :=
  { h with
    text_eq := by rw [List.append_nil, h.eq_of_append_cr]
    body_ne_nil := hbody
    lf_not_mem := fun hmem => h.lf_not_mem (List.mem_append_left _ hmem) }

theorem signsBare_of_append_cr (h : CommentAt (s ++ ['\r']) front blanks ['\r'] []) :
    s.SignsBare := by
  have hs : s = front ++ (blanks ++ ['#']) := eq_of_append_cr h
  rw [hs]
  exact h.signsBare

end Text.CommentAt

namespace Fragment

theorem classify_append_lf (s : Text) (start : Nat) :
    (⟨s ++ ['\n'], start⟩ : Fragment).classify = (⟨s, start⟩ : Fragment).classify := by
  have hspans : ∀ p : Pass, p.spans ⟨s ++ ['\n'], start⟩ = p.spans ⟨s, start⟩ :=
    fun p => Pass.spans_append_singleton (Pass.ignores (by decide) fun _ => rfl) s start
  exact classify_congr rfl hspans

theorem otherSpans_append_cr (s : Text) (start : Nat) :
    (⟨s ++ ['\r'], start⟩ : Fragment).otherSpans = (⟨s, start⟩ : Fragment).otherSpans := by
  have hother : ∀ p ∈ Pass.all.tail, p ≠ .comment := by decide
  rw [otherSpans, otherSpans]
  apply List.flatMap_congr
  intro p hp
  exact Pass.spans_append_singleton
    (Pass.ignores (by decide) fun hcomment => absurd hcomment (hother p hp)) s start

/-- A carriage return does not show behind a text without number signs. -/
theorem classify_append_cr_of_not_mem {s : Text} (hsign : '#' ∉ s) (start : Nat) :
    (⟨s ++ ['\r'], start⟩ : Fragment).classify = (⟨s, start⟩ : Fragment).classify := by
  have hsign' : '#' ∉ s ++ ['\r'] := by simpa using hsign
  rw [(Text.signsBare_of_not_mem hsign').classify_eq,
    (Text.signsBare_of_not_mem hsign).classify_eq, otherSpans_append_cr]

/-- The spans of a fragment, and those with a carriage return behind it, when the comment takes
the carriage return in: without it the comment is one byte shorter, or there is none because
its number sign is the last character. -/
def CommentTakesReturn (f : Fragment) (spans : List Span) : Prop :=
  ∃ begins len others, begins + len = f.stop ∧ (∀ s ∈ others, s.category ≠ .comment) ∧
    spans = ⟨.comment, begins, len + 1⟩ :: others ∧
      (f.classify = ⟨.comment, begins, len⟩ :: others ∨
        f.text.getLast? = some '#' ∧ f.classify = others)

theorem CommentTakesReturn.ne_classify {f : Fragment} {spans : List Span}
    (h : f.CommentTakesReturn spans) : spans ≠ f.classify := by
  obtain ⟨begins, len, others, -, -, rfl, hclassify | ⟨-, hclassify⟩⟩ := h
  · simp [hclassify]
  · simp [hclassify]

/-- White space and a number sign are nothing but, perhaps, a comment. -/
theorem otherSpans_blanks_sign {blanks : Text} (h : ∀ c ∈ blanks, isLineBlank c = true)
    (start : Nat) : (⟨blanks ++ ['#'], start⟩ : Fragment).otherSpans = [] := by
  apply otherSpans_eq_nil
  intro c hc
  rcases List.mem_append.1 hc with hc | hc
  · exact isInk_eq_false_of_isLineBlank (h c hc)
  · rw [List.mem_singleton.1 hc]
    decide

/-- Behind a line with a number sign a carriage return always belongs to a comment. -/
theorem commentTakesReturn {s : Text} (hlf : '\n' ∉ s) (hsign : '#' ∈ s) (start : Nat) :
    (⟨s, start⟩ : Fragment).CommentTakesReturn
      (⟨s ++ ['\r'], start⟩ : Fragment).classify := by
  obtain ⟨front, blanks, body, h⟩ := Text.exists_commentAt_append_cr hlf hsign
  have hs := h.eq_of_append_cr
  have hlen : Text.byteSize (blanks ++ '#' :: (body ++ ['\r'])) =
      Text.byteSize (blanks ++ '#' :: body) + 1 := by
    rw [← List.cons_append, ← List.append_assoc, Text.byteSize_append]
    rfl
  refine ⟨start + front.byteSize, Text.byteSize (blanks ++ '#' :: body),
    if front = [] then [] else otherSpans ⟨s, start⟩, ?_, ?_, ?_, ?_⟩
  · rw [hs, Nat.add_assoc, ← Text.byteSize_append]
    rfl
  · intro x hx
    split at hx
    · simp at hx
    · exact category_ne_of_mem_otherSpans hx
  · rw [h.classify_eq, otherSpans_append_cr, hlen]
  · by_cases hbody : body = []
    · subst hbody
      refine .inr ⟨by simp [hs], ?_⟩
      rw [h.signsBare_of_append_cr.classify_eq]
      split
      · rename_i hfront
        rw [hs, hfront, List.nil_append, otherSpans_blanks_sign h.blank]
      · rfl
    · exact .inl (h.of_append_cr hbody).classify_eq

end Fragment

/-- A complete line as a window, with its terminator.  It is classified as its fragment, unless
the terminator begins with a carriage return and there is a number sign in the line: then the
comment takes the carriage return in. -/
theorem Document.classifyWindow_line {d : Document} {line : Text} {f : Fragment}
    (hline : (line, f) ∈ d.text.rawLines.zip d.lines) (hlast : line.getLast? = some '\n') :
    ∃ spans, d.classifyWindow f.start (f.start + line.byteSize) = .ok spans ∧
      (spans = f.classify ↔ ¬ (line = f.text ++ ['\r', '\n'] ∧ '#' ∈ f.text)) ∧
        (spans ≠ f.classify → f.CommentTakesReturn spans) := by
  obtain ⟨front, back, hsplit, rfl⟩ := exists_of_mem_zip_lines hline
  obtain ⟨body, rfl, hbody⟩ :=
    Text.exists_body_of_mem_rawLines (List.of_mem_zip hline).1 hlast
  refine ⟨(⟨body ++ ['\n'], Text.byteSize front⟩ : Fragment).classify,
    by rw [classifyWindow, window_of_append hsplit]; rfl, ?_⟩
  rw [Fragment.classify_append_lf, Text.stripTerminator_append_lf]
  have hstripped := Text.not_mem_stripLast hbody (c := '\r')
  have hreturn := body.eq_stripLast_or '\r'
  generalize Text.stripLast '\r' body = s at hstripped hreturn ⊢
  dsimp only
  rcases hreturn with rfl | rfl
  · simp
  · by_cases hsign : '#' ∈ s
    · have htakes := Fragment.commentTakesReturn hstripped hsign (Text.byteSize front)
      simp [hsign, htakes, htakes.ne_classify]
    · simp [hsign, Fragment.classify_append_cr_of_not_mem hsign]

/-- The second line is a comment, and the carriage return behind it makes it longer. -/
theorem Document.classifyWindow_line_longer_comment :
    let d := Document.ofText "é = 1\r\n # x\r\n".toList
    let line : Text := " # x\r\n".toList
    let f : Fragment := ⟨" # x".toList, 8⟩
    (line, f) ∈ d.text.rawLines.zip d.lines ∧ line.getLast? = some '\n' ∧
      f.classify = [⟨.comment, 8, 4⟩] ∧
        ∃ spans, d.classifyWindow 8 14 = .ok spans ∧ f.CommentTakesReturn spans := by
  intro d line f
  have hline : (line, f) ∈ d.text.rawLines.zip d.lines := by decide
  have hlast : line.getLast? = some '\n' := by decide
  have hreturn : line = f.text ++ ['\r', '\n'] ∧ '#' ∈ f.text := by decide
  obtain ⟨spans, hwindow, hiff, htakes⟩ := classifyWindow_line hline hlast
  refine ⟨hline, hlast, by decide, spans, hwindow, htakes ?_⟩
  intro heq
  exact hiff.1 heq hreturn

/-- So a terminator is not always without effect: the number sign here is the last character of
its line, and only together with the terminator of the line is there a comment. -/
theorem Document.classifyWindow_line_bare_sign :
    let d := Document.ofText "FOO = 1 #\r\n".toList
    let f : Fragment := ⟨"FOO = 1 #".toList, 0⟩
    d.lines = [f] ∧ f.classify = [⟨.operator, 4, 1⟩, ⟨.number, 6, 1⟩] ∧
      d.classifyWindow 0 d.size =
        .ok [⟨.comment, 7, 3⟩, ⟨.operator, 4, 1⟩, ⟨.number, 6, 1⟩] := by
  decide

end BmakeHighlight
