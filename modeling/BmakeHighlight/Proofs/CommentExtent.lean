/-
The extent of a comment.  The first number sign with something behind it on its
line begins the comment, and the white space right before it belongs to it; from
there it goes on to the end of the line.  Number signs with nothing behind them are
passed over.
-/
import Mathlib.Data.List.Chain
import Mathlib.Data.List.DropRight
import BmakeHighlight.Proofs.BlankText
import BmakeHighlight.Proofs.LineLocality

namespace BmakeHighlight

/-- Is every number sign of the text the last character of its line, or of the text? -/
def Text.SignsBare (t : Text) : Prop :=
  t.IsChain fun a b => a = '#' → b = '\n'

instance (t : Text) : Decidable t.SignsBare :=
  inferInstanceAs (Decidable (t.IsChain fun a b => a = '#' → b = '\n'))

/-- A text cut up around its comment: what is in front, the white space before the number sign,
what is behind the number sign, and the text from the end of the line on. -/
structure Text.CommentAt (t front blanks body rest : Text) : Prop where
  text_eq : t = front ++ (blanks ++ '#' :: (body ++ rest))
  signsBare : Text.SignsBare (front ++ (blanks ++ ['#']))
  front_last : ∀ c ∈ front.getLast?, isLineBlank c = false
  blank : ∀ c ∈ blanks, isLineBlank c = true
  body_ne_nil : body ≠ []
  lf_not_mem : '\n' ∉ body
  rest_head : ∀ c ∈ rest.head?, c = '\n'

namespace Text

variable {t s front blanks body rest : Text} {c : Char}

theorem signsBare_iff :
    t.SignsBare ↔ ∀ front c rest, t = front ++ '#' :: c :: rest → c = '\n' := by
  rw [SignsBare, List.isChain_iff_forall_rel_of_append_cons_cons]
  constructor
  · intro h front c rest ht
    exact h ht rfl
  · rintro h _ c front rest ht rfl
    exact h front c rest ht

theorem signsBare_of_not_mem (h : '#' ∉ t) : t.SignsBare := by
  rw [signsBare_iff]
  rintro front c rest rfl
  exact absurd (by simp) h

/-- The first number sign with something behind it. -/
theorem exists_sign_of_not_signsBare (h : ¬ t.SignsBare) :
    ∃ front c rest, t = front ++ '#' :: c :: rest ∧ c ≠ '\n' ∧ SignsBare (front ++ ['#']) := by
  induction t with
  | nil => exact absurd List.isChain_nil h
  | cons a t ih =>
      by_cases hhead : ∃ c rest, a = '#' ∧ t = c :: rest ∧ c ≠ '\n'
      · obtain ⟨c, rest, rfl, rfl, hc⟩ := hhead
        exact ⟨[], c, rest, rfl, hc, List.isChain_singleton _⟩
      · have hfollow : ∀ b ∈ t.head?, a = '#' → b = '\n' := by
          intro b hb ha
          obtain ⟨rest, rfl⟩ := List.head?_eq_some_iff.1 hb
          by_contra hne
          exact hhead ⟨b, rest, ha, rfl, hne⟩
        obtain ⟨front, c, rest, rfl, hc, hbare⟩ := ih fun ht => h (ht.cons hfollow)
        refine ⟨a :: front, c, rest, rfl, hc, ?_⟩
        rw [List.cons_append]
        refine hbare.cons ?_
        cases front with
        | nil => exact hfollow
        | cons => exact hfollow

/-- The comment of the first number sign with something behind it. -/
theorem CommentAt.of_sign {before behind : Text} (ht : t = before ++ '#' :: c :: behind)
    (hc : c ≠ '\n') (hbare : SignsBare (before ++ ['#'])) :
    t.CommentAt (before.rdropWhile isLineBlank) (before.rtakeWhile isLineBlank)
      ((c :: behind).takeWhile (· != '\n')) ((c :: behind).dropWhile (· != '\n')) := by
  have hbefore : before.rdropWhile isLineBlank ++ before.rtakeWhile isLineBlank = before :=
    List.rdropWhile_append_rtakeWhile
  have hbehind : (c :: behind).takeWhile (· != '\n') ++ (c :: behind).dropWhile (· != '\n') =
      c :: behind := List.takeWhile_append_dropWhile
  exact
    { text_eq := by rw [hbehind, ← List.append_assoc, hbefore, ht]
      signsBare := by rwa [← List.append_assoc, hbefore]
      front_last := by
        intro d hd
        have hne : before.rdropWhile isLineBlank ≠ [] := by
          intro hnil
          rw [hnil] at hd
          exact absurd hd (by simp)
        rw [List.getLast?_eq_some_getLast hne, Option.mem_some_iff] at hd
        rw [← hd, ← Bool.not_eq_true]
        exact List.rdropWhile_last_not isLineBlank before hne
      blank := fun d hd => List.mem_rtakeWhile_imp hd
      body_ne_nil := by simp [hc]
      lf_not_mem := by
        intro hmem
        simpa using List.mem_takeWhile_imp hmem
      rest_head := by
        intro d hd
        have hhead := List.head?_dropWhile_not (· != '\n') (c :: behind)
        rw [hd] at hhead
        simpa using hhead }

/-- A text has a comment unless all its number signs are bare. -/
theorem exists_commentAt (h : ¬ t.SignsBare) :
    ∃ front blanks body rest, t.CommentAt front blanks body rest := by
  obtain ⟨before, c, behind, ht, hc, hbare⟩ := exists_sign_of_not_signsBare h
  exact ⟨_, _, _, _, CommentAt.of_sign ht hc hbare⟩

namespace CommentAt

theorem tail (h : CommentAt (c :: t) (c :: front) blanks body rest) :
    t.CommentAt front blanks body rest where
  text_eq := (List.cons.inj h.text_eq).2
  signsBare := h.signsBare.tail
  front_last := by
    intro d hd
    apply h.front_last d
    rw [List.getLast?_cons, Option.mem_def.1 hd, Option.getD_some, Option.mem_some_iff]
  blank := h.blank
  body_ne_nil := h.body_ne_nil
  lf_not_mem := h.lf_not_mem
  rest_head := h.rest_head

/-- In a text of one line the comment goes on to the end. -/
theorem rest_eq_nil (h : t.CommentAt front blanks body rest) (hlf : '\n' ∉ t) : rest = [] := by
  cases rest with
  | nil => rfl
  | cons c rest =>
      refine absurd ?_ hlf
      rw [h.text_eq, h.rest_head c rfl]
      simp

/-- The comment begins where nothing but its white space is in front of the number sign. -/
theorem commentHere_eq_some (h : t.CommentAt [] blanks body rest) (before : Option Char) :
    commentHere before t = some [⟨.comment, blanks ++ '#' :: body⟩] := by
  have hsign : isLineBlank '#' = false := by decide
  have hdrop : t.dropWhile isLineBlank = '#' :: (body ++ rest) := by
    rw [h.text_eq, List.nil_append, List.dropWhile_append_of_pos h.blank,
      List.dropWhile_cons_of_neg (by simp [hsign])]
  have htake : t.takeWhile isLineBlank = blanks := by
    rw [h.text_eq, List.nil_append, takeWhile_append_cons_of_neg hsign,
      List.takeWhile_eq_self_iff.2 h.blank]
  have hbody : (body ++ rest).takeWhile (· != '\n') = body := by
    have hline : ∀ d ∈ body, (d != '\n') = true := by
      intro d hd
      rw [bne_iff_ne]
      exact fun hlf => h.lf_not_mem (hlf ▸ hd)
    have hrest : rest.takeWhile (· != '\n') = [] := by
      cases hcons : rest with
      | nil => rfl
      | cons d rest =>
          rw [h.rest_head d (by rw [hcons]; rfl)]
          rfl
    rw [List.takeWhile_append_of_pos hline, hrest, List.append_nil]
  obtain ⟨d, body, rfl⟩ := List.exists_cons_of_ne_nil h.body_ne_nil
  simp only [commentHere, hdrop, hbody, htake]

/-- It does not begin earlier: what is in front does not end in white space, and a number sign
there has nothing behind it. -/
theorem commentHere_eq_none (h : t.CommentAt (c :: front) blanks body rest)
    (before : Option Char) : commentHere before t = none := by
  rw [Option.eq_none_iff_forall_ne_some]
  intro pieces hmatch
  obtain ⟨blanks', body', rest', ht, hblank', hbody', hlf', -⟩ :=
    @BmakeHighlight.commentHere_eq_some before _ _ hmatch
  have hfront : ¬ ∀ d ∈ c :: front, isLineBlank d = true := by
    intro hall
    have hlast := h.front_last _ (List.getLast?_eq_some_getLast (List.cons_ne_nil c front))
    rw [hall _ (List.getLast_mem _)] at hlast
    exact absurd hlast (by decide)
  -- The number sign of the match stands either behind all of the front or in it.
  rw [h.text_eq] at ht
  rcases List.append_eq_append_iff.1 ht with ⟨more, hblanks, -⟩ | ⟨behind, hbehind, hsign⟩
  · apply hfront
    intro d hd
    exact hblank' d (hblanks ▸ List.mem_append_left more hd)
  · cases behind with
    | nil =>
        apply hfront
        rwa [hbehind, List.append_nil]
    | cons sign behind =>
        obtain ⟨d, body', rfl⟩ := List.exists_cons_of_ne_nil hbody'
        simp only [List.cons_append, List.cons.injEq] at hsign
        obtain ⟨rfl, hbody⟩ := hsign
        have hfollow : behind ++ (blanks ++ ['#']) ++ (body ++ rest) = d :: (body' ++ rest') := by
          simp [hbody]
        rcases List.append_eq_cons_iff.1 hfollow with ⟨hnil, -⟩ | ⟨more, hmore, -⟩
        · simp at hnil
        · have hbare := h.signsBare
          rw [hbehind, List.append_assoc, List.cons_append, hmore] at hbare
          have hlf := signsBare_iff.1 hbare _ _ _ rfl
          exact hlf' (hlf ▸ List.mem_cons_self)

/-- What a search for comments finds first. -/
theorem exists_scan (h : t.CommentAt front blanks body rest) (offset : Nat)
    (before : Option Char) :
    ∃ later, commentHere.scan offset before 0 t =
      ⟨.comment, offset + front.byteSize, Text.byteSize (blanks ++ '#' :: body)⟩ :: later := by
  induction front generalizing t offset before with
  | nil =>
      have hmatch := h.commentHere_eq_some before
      have ht : t = matchedText [⟨.comment, blanks ++ '#' :: body⟩] ++ rest := by
        rw [h.text_eq]
        simp [matchedText]
      rw [ht] at hmatch ⊢
      rw [Matcher.scan_of_some commentHere_sound hmatch]
      exact ⟨_, rfl⟩
  | cons c front ih =>
      have ht : t = c :: (front ++ (blanks ++ '#' :: (body ++ rest))) := h.text_eq
      rw [ht] at h ⊢
      obtain ⟨later, hlater⟩ := ih h.tail (offset + c.utf8Size) (some c)
      refine ⟨later, ?_⟩
      rw [Matcher.scan_of_none (h.commentHere_eq_none before), hlater, byteSize_cons,
        Nat.add_assoc]

end CommentAt

theorem SignsBare.commentHere_eq_none (h : t.SignsBare) (before : Option Char) :
    commentHere before t = none := by
  rw [Option.eq_none_iff_forall_ne_some]
  intro pieces hmatch
  obtain ⟨blanks, body, rest, rfl, -, hbody, hlf, -⟩ :=
    @commentHere_eq_some before _ _ hmatch
  obtain ⟨c, body, rfl⟩ := List.exists_cons_of_ne_nil hbody
  exact hlf (signsBare_iff.1 h _ _ _ rfl ▸ List.mem_cons_self)

theorem SignsBare.scan_eq_nil (h : t.SignsBare) (offset : Nat) (before : Option Char) :
    commentHere.scan offset before 0 t = [] := by
  induction t generalizing offset before with
  | nil => rfl
  | cons c t ih => rw [Matcher.scan_of_none (h.commentHere_eq_none before), ih h.tail]

end Text

/-- The spans of all passes but the first. -/
def Fragment.otherSpans (f : Fragment) : List Span :=
  Pass.all.tail.flatMap (·.spans f)

section Fragments

variable {f : Fragment} {front blanks body rest : Text}

theorem Fragment.category_ne_of_mem_otherSpans {s : Span} (hs : s ∈ f.otherSpans) :
    s.category ≠ .comment := by
  obtain ⟨p, hp, hs⟩ := List.mem_flatMap.1 hs
  have hother : ∀ p ∈ Pass.all.tail, Category.comment.pass ≠ p := by decide
  intro hcategory
  exact hother p hp (hcategory ▸ Pass.pass_of_mem_spans hs)

/-- Nothing but comments can be found in white space and number signs. -/
theorem Fragment.otherSpans_eq_nil (h : ∀ c ∈ f.text, isInk c = false) : f.otherSpans = [] := by
  rw [otherSpans, List.flatMap_eq_nil_iff]
  intro p hp
  have hother : ∀ p ∈ Pass.all.tail, p ≠ .comment := by decide
  exact Pass.spans_eq_nil (fun _ _ _ => Pass.exists_isInk (hother p hp)) h

theorem Text.SignsBare.spans_comment (h : f.text.SignsBare) : Pass.comment.spans f = [] := by
  rw [Pass.spans, Pass.matcher, h.scan_eq_nil]
  rfl

theorem Text.CommentAt.spans_comment (h : f.text.CommentAt front blanks body rest) :
    Pass.comment.spans f =
      [⟨.comment, f.start + front.byteSize, Text.byteSize (blanks ++ '#' :: body)⟩] := by
  obtain ⟨later, hlater⟩ := h.exists_scan f.start none
  rw [Pass.spans, Pass.matcher, hlater]
  rfl

theorem Text.CommentAt.opensWithComment_iff (h : f.text.CommentAt front blanks body rest) :
    f.opensWithComment = true ↔ front = [] := by
  rw [Fragment.opensWithComment, h.spans_comment, List.any_cons, List.any_nil, Bool.or_false,
    beq_iff_eq, Nat.add_eq_left, Text.byteSize_eq_zero_iff]

/-- The spans of a fragment without a comment. -/
theorem Text.SignsBare.classify_eq (h : f.text.SignsBare) : f.classify = f.otherSpans := by
  have hopens : f.opensWithComment = false := by
    rw [Fragment.opensWithComment, h.spans_comment, List.any_nil]
  have hall : Pass.all = .comment :: Pass.all.tail := rfl
  rw [Fragment.classify_eq, hopens, hall, List.flatMap_cons, h.spans_comment]
  rfl

/-- The spans of a fragment with a comment. -/
theorem Text.CommentAt.classify_eq (h : f.text.CommentAt front blanks body rest) :
    f.classify =
      ⟨.comment, f.start + front.byteSize, Text.byteSize (blanks ++ '#' :: body)⟩ ::
        if front = [] then [] else f.otherSpans := by
  have hall : Pass.all = .comment :: Pass.all.tail := rfl
  rw [Fragment.classify_eq, hall, List.flatMap_cons, h.spans_comment]
  simp only [h.opensWithComment_iff]
  split <;> rfl

end Fragments

end BmakeHighlight
