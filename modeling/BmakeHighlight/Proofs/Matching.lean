/-
What a scan leaves behind.  Spans are cut from a text when they cover non-empty
parts of it, one behind the other.  A scan with a sound matcher, one that reads
its pieces off the text, only ever cuts spans this way.
-/
import BmakeHighlight.Scan

namespace BmakeHighlight

/-- Spans cut from a text that starts at `offset`, from left to right.  What lies between
two of them is skipped; what a span covers is never empty. -/
inductive CutFrom : Nat → Text → List Span → Prop where
  | done {offset : Nat} {t : Text} : CutFrom offset t []
  | skip {offset : Nat} {t : Text} {spans : List Span} (front : Text) :
      CutFrom (offset + Text.byteSize front) t spans → CutFrom offset (front ++ t) spans
  | take {offset : Nat} {t : Text} {spans : List Span} (k : Category) {part : Text} :
      part ≠ [] → CutFrom (offset + Text.byteSize part) t spans →
        CutFrom offset (part ++ t) (⟨k, offset, Text.byteSize part⟩ :: spans)

namespace CutFrom

theorem append {offset : Nat} {s t : Text} {first second : List Span}
    (hfirst : CutFrom offset s first)
    (hsecond : CutFrom (offset + Text.byteSize s) t second) :
    CutFrom offset (s ++ t) (first ++ second) := by
  induction hfirst with
  | done => exact skip _ hsecond
  | skip front _ ih =>
      rw [List.append_assoc]
      exact skip front (ih (by rwa [Text.byteSize_append, ← Nat.add_assoc] at hsecond))
  | take k hpart _ ih =>
      rw [List.append_assoc]
      exact take k hpart (ih (by rwa [Text.byteSize_append, ← Nat.add_assoc] at hsecond))

theorem extend {offset : Nat} {s : Text} {spans : List Span}
    (h : CutFrom offset s spans) (t : Text) : CutFrom offset (s ++ t) spans := by
  have happend : CutFrom offset (s ++ t) (spans ++ []) := h.append done
  rwa [List.append_nil] at happend

/-- Leaving spans out only leaves more of the text uncovered. -/
theorem sublist {offset : Nat} {t : Text} {spans kept : List Span}
    (h : CutFrom offset t spans) (hkept : kept.Sublist spans) : CutFrom offset t kept := by
  induction h generalizing kept with
  | done =>
      rw [List.sublist_nil.1 hkept]
      exact done
  | skip front _ ih => exact skip front (ih hkept)
  | @take offset t spans k part hpart _ ih =>
      cases hkept with
      | cons _ hkept => exact skip part (ih hkept)
      | cons_cons _ hkept => exact take k hpart (ih hkept)

/-- The text under a span of the list, with what stands before and behind it. -/
theorem exists_part {offset : Nat} {t : Text} {spans : List Span}
    (h : CutFrom offset t spans) {s : Span} (hs : s ∈ spans) :
    ∃ front part back, t = front ++ part ++ back ∧ part ≠ [] ∧
      s.start = offset + Text.byteSize front ∧ s.len = Text.byteSize part := by
  induction h with
  | done => simp at hs
  | skip skipped _ ih =>
      obtain ⟨front, part, back, rfl, hpart, hstart, hlen⟩ := ih hs
      refine ⟨skipped ++ front, part, back, by simp, hpart, ?_, hlen⟩
      rw [hstart, Text.byteSize_append, Nat.add_assoc]
  | @take offset t spans k taken htaken _ ih =>
      rcases List.mem_cons.1 hs with rfl | hs
      · exact ⟨[], taken, t, rfl, htaken, rfl, rfl⟩
      · obtain ⟨front, part, back, rfl, hpart, hstart, hlen⟩ := ih hs
        refine ⟨taken ++ front, part, back, by simp, hpart, ?_, hlen⟩
        rw [hstart, Text.byteSize_append, Nat.add_assoc]

theorem len_pos {offset : Nat} {t : Text} {spans : List Span}
    (h : CutFrom offset t spans) {s : Span} (hs : s ∈ spans) : 0 < s.len := by
  obtain ⟨front, part, back, -, hpart, -, hlen⟩ := h.exists_part hs
  rw [hlen]
  exact Nat.pos_of_ne_zero (hpart ∘ Text.byteSize_eq_zero_iff.1)

theorem start_ge {offset : Nat} {t : Text} {spans : List Span}
    (h : CutFrom offset t spans) {s : Span} (hs : s ∈ spans) : offset ≤ s.start := by
  obtain ⟨front, part, back, -, -, hstart, -⟩ := h.exists_part hs
  omega

/-- Every span ends before the next one starts. -/
theorem pairwise {offset : Nat} {t : Text} {spans : List Span}
    (h : CutFrom offset t spans) : spans.Pairwise fun a b => a.stop ≤ b.start := by
  induction h with
  | done => exact List.Pairwise.nil
  | skip _ _ ih => exact ih
  | take k hpart hrest ih =>
      rw [List.pairwise_cons]
      exact ⟨fun s hs => hrest.start_ge hs, ih⟩

/-- Since no span is empty, the starts increase strictly. -/
theorem pairwise_start_lt {offset : Nat} {t : Text} {spans : List Span}
    (h : CutFrom offset t spans) :
    spans.Pairwise fun a b => a.start < b.start ∧ a.stop ≤ b.start := by
  refine h.pairwise.imp_of_mem ?_
  intro a b ha _ hab
  have hlen := h.len_pos ha
  refine ⟨?_, hab⟩
  rw [Span.stop] at hab
  omega

/-- The spans of pieces that stand at the front of a text. -/
theorem pieces {offset : Nat} {pieces : List Piece} {rest : Text} {spans : List Span}
    (hne : ∀ p ∈ pieces, p.text ≠ [])
    (hrest : CutFrom (offset + Text.byteSize (matchedText pieces)) rest spans) :
    CutFrom offset (matchedText pieces ++ rest) (spansOf offset pieces ++ spans) := by
  induction pieces generalizing offset with
  | nil => simpa [matchedText, spansOf] using hrest
  | cons p pieces ih =>
      have htext : matchedText (p :: pieces) = p.text ++ matchedText pieces := rfl
      rw [htext, Text.byteSize_append, ← Nat.add_assoc] at hrest
      rw [htext, List.append_assoc, spansOf, List.cons_append]
      exact take p.category (hne p List.mem_cons_self)
        (ih (fun q hq => hne q (List.mem_cons_of_mem p hq)) hrest)

end CutFrom

/-- Pieces read off a text: they stand at its front, and none of them is empty. -/
structure ReadOff (t : Text) (pieces : List Piece) : Prop where
  ne_nil : pieces ≠ []
  text_ne_nil : ∀ p ∈ pieces, p.text ≠ []
  front : ∃ rest, t = matchedText pieces ++ rest

/-- A match of a single piece. -/
theorem ReadOff.single {k : Category} {part rest : Text} (hpart : part ≠ []) :
    ReadOff (part ++ rest) [⟨k, part⟩] where
  ne_nil := by simp
  text_ne_nil := by simpa using hpart
  front := ⟨rest, by simp [matchedText]⟩

theorem ReadOff.matchedText_ne_nil {t : Text} {pieces : List Piece}
    (h : ReadOff t pieces) : matchedText pieces ≠ [] := by
  obtain ⟨p, hp⟩ := List.exists_mem_of_ne_nil pieces h.ne_nil
  intro hnil
  exact h.text_ne_nil p hp (List.flatMap_eq_nil_iff.1 hnil p hp)

/-- A span of pieces laid end to end is that of a piece, behind the pieces before it. -/
theorem exists_piece_of_mem_spansOf {offset : Nat} {pieces : List Piece} {s : Span}
    (hs : s ∈ spansOf offset pieces) :
    ∃ p ∈ pieces, ∃ front back, matchedText pieces = front ++ (p.text ++ back) ∧
      s = ⟨p.category, offset + Text.byteSize front, p.text.byteSize⟩ := by
  induction pieces generalizing offset with
  | nil => simp [spansOf] at hs
  | cons p pieces ih =>
      have htext : matchedText (p :: pieces) = p.text ++ matchedText pieces := rfl
      rw [htext]
      rcases List.mem_cons.1 hs with rfl | hs
      · exact ⟨p, List.mem_cons_self, [], matchedText pieces, rfl, rfl⟩
      · obtain ⟨q, hq, front, back, hpieces, rfl⟩ := ih hs
        refine ⟨q, List.mem_cons_of_mem p hq, p.text ++ front, back, by simp [hpieces], ?_⟩
        rw [Text.byteSize_append, Nat.add_assoc]

/-- The character before a position, when the text before it has one in front of it. -/
theorem getLast?_cons_or (c : Char) (t : Text) (before : Option Char) :
    (c :: t).getLast?.or before = t.getLast?.or (some c) := by
  rw [List.getLast?_cons]
  cases t.getLast? <;> rfl

namespace Matcher

/-- A matcher whose matches are read off the text that it is shown. -/
def Sound (m : Matcher) : Prop :=
  ∀ ⦃before : Option Char⦄ ⦃t : Text⦄ ⦃pieces : List Piece⦄,
    m before t = some pieces → ReadOff t pieces

/-- Passing over the rest of a match. -/
theorem scan_skip (m : Matcher) (offset : Nat) (before : Option Char) (s t : Text) :
    m.scan offset before s.length (s ++ t) =
      m.scan (offset + Text.byteSize s) (s.getLast?.or before) 0 t := by
  induction s generalizing offset before with
  | nil => simp
  | cons c s ih =>
      rw [List.length_cons, List.cons_append, scan, ih, Text.byteSize_cons,
        getLast?_cons_or, Nat.add_assoc]

theorem scan_of_none {m : Matcher} {before : Option Char} {c : Char} {t : Text}
    (h : m before (c :: t) = none) (offset : Nat) :
    m.scan offset before 0 (c :: t) = m.scan (offset + c.utf8Size) (some c) 0 t := by
  rw [scan, h]

/-- Behind a match the scan goes on as if it began there. -/
theorem scan_of_some {m : Matcher} (hm : m.Sound) {before : Option Char}
    {pieces : List Piece} {rest : Text}
    (h : m before (matchedText pieces ++ rest) = some pieces) (offset : Nat) :
    m.scan offset before 0 (matchedText pieces ++ rest) =
      spansOf offset pieces ++
        m.scan (offset + Text.byteSize (matchedText pieces))
          ((matchedText pieces).getLast?.or before) 0 rest := by
  have hne := (hm h).matchedText_ne_nil
  revert h hne
  generalize hread : matchedText pieces = read
  intro h hne
  cases read with
  | nil => exact absurd rfl hne
  | cons c read =>
      rw [List.cons_append] at h ⊢
      rw [scan, h]
      dsimp only
      rw [hread, List.length_cons, Nat.add_sub_cancel, scan_skip, Text.byteSize_cons,
        getLast?_cons_or, Nat.add_assoc]

/-- What holds of the empty text, of a text without a match at its front when it holds
behind the first character, and of a text with a match when it holds behind the match,
holds of the whole scan. -/
theorem scan_induction {m : Matcher} (hm : m.Sound)
    {motive : Nat → Option Char → Text → List Span → Prop}
    (nil : ∀ offset before, motive offset before [] [])
    (miss : ∀ offset before c t, m before (c :: t) = none →
      motive (offset + c.utf8Size) (some c) t
        (m.scan (offset + c.utf8Size) (some c) 0 t) →
      motive offset before (c :: t) (m.scan (offset + c.utf8Size) (some c) 0 t))
    (hit : ∀ offset before pieces rest spans,
      m before (matchedText pieces ++ rest) = some pieces →
      motive (offset + Text.byteSize (matchedText pieces))
        ((matchedText pieces).getLast?.or before) rest spans →
      motive offset before (matchedText pieces ++ rest) (spansOf offset pieces ++ spans))
    (offset : Nat) (before : Option Char) (t : Text) :
    motive offset before t (m.scan offset before 0 t) := by
  induction hlen : t.length using Nat.strongRecOn generalizing offset before t with
  | ind n ih =>
      cases t with
      | nil => exact nil offset before
      | cons c t =>
          cases hmatch : m before (c :: t) with
          | none =>
              rw [scan_of_none hmatch]
              exact miss offset before c t hmatch
                (ih t.length (by rw [← hlen]; simp) _ _ t rfl)
          | some pieces =>
              have hread := hm hmatch
              obtain ⟨rest, hrest⟩ := hread.front
              have hpos := List.length_pos_iff.2 hread.matchedText_ne_nil
              rw [hrest] at hmatch hlen ⊢
              rw [scan_of_some hm hmatch]
              rw [List.length_append] at hlen
              exact hit offset before pieces rest _ hmatch
                (ih rest.length (by omega) _ _ rest rfl)

/-- The spans of a scan are cut from the text. -/
theorem scan_cutFrom {m : Matcher} (hm : m.Sound) (offset : Nat) (before : Option Char)
    (t : Text) : CutFrom offset t (m.scan offset before 0 t) := by
  apply scan_induction hm (motive := fun offset _ t spans => CutFrom offset t spans)
  · intro offset before
    exact .done
  · intro offset before c t _ ih
    exact .skip [c] (by simpa using ih)
  · intro offset before pieces rest spans hmatch ih
    exact .pieces (hm hmatch).text_ne_nil ih

/-- Every span of a scan is that of a piece of some match, at the place of the text where the
piece stands. -/
theorem exists_piece_of_mem_scan {m : Matcher} (hm : m.Sound) {P : Piece → Prop}
    (h : ∀ before t pieces, m before t = some pieces → ∀ p ∈ pieces, P p)
    (offset : Nat) (before : Option Char) (t : Text) :
    ∀ s ∈ m.scan offset before 0 t, ∃ p front back, P p ∧ t = front ++ (p.text ++ back) ∧
      s = ⟨p.category, offset + Text.byteSize front, p.text.byteSize⟩ := by
  apply scan_induction hm (motive := fun offset _ t spans => ∀ s ∈ spans,
    ∃ p front back, P p ∧ t = front ++ (p.text ++ back) ∧
      s = ⟨p.category, offset + Text.byteSize front, p.text.byteSize⟩)
  · simp
  · intro offset before c t _ ih s hs
    obtain ⟨p, front, back, hp, rfl, rfl⟩ := ih s hs
    exact ⟨p, c :: front, back, hp, rfl, by rw [Text.byteSize_cons, Nat.add_assoc]⟩
  · intro offset before pieces rest spans hmatch ih s hs
    rcases List.mem_append.1 hs with hs | hs
    · obtain ⟨p, hp, front, back, hpieces, rfl⟩ := exists_piece_of_mem_spansOf hs
      exact ⟨p, front, back ++ rest, h _ _ _ hmatch p hp, by simp [hpieces], rfl⟩
    · obtain ⟨p, front, back, hp, rfl, rfl⟩ := ih s hs
      refine ⟨p, matchedText pieces ++ front, back, hp, by simp, ?_⟩
      rw [Text.byteSize_append, Nat.add_assoc]

/-- A property of all pieces that a matcher gives is one of all spans of its scan. -/
theorem forall_mem_scan {m : Matcher} (hm : m.Sound) {P : Category → Prop}
    (h : ∀ before t pieces, m before t = some pieces → ∀ p ∈ pieces, P p.category)
    (offset : Nat) (before : Option Char) (t : Text) :
    ∀ s ∈ m.scan offset before 0 t, P s.category := by
  intro s hs
  obtain ⟨p, front, back, hp, -, rfl⟩ := exists_piece_of_mem_scan hm h offset before t s hs
  exact hp

end Matcher

end BmakeHighlight
