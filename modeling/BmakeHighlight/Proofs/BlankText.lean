/-
Texts of white space.  Every match of a pass holds a character that is no white
space, so a blank fragment has no spans, and that it is not searched at all makes
no difference.
-/
import BmakeHighlight.Classification
import BmakeHighlight.Proofs.PatternSoundness

namespace BmakeHighlight

theorem isWhiteSpace_eq_false_of_isDecimalDigit {c : Char} (h : isDecimalDigit c = true) :
    isWhiteSpace c = false := by
  have hapart : ∀ r ∈ decimalDigitRanges, ∀ s ∈ whiteSpaceRanges, r.2 < s.1 ∨ s.2 < r.1 := by
    decide +kernel
  exact CodeRanges.holds_eq_false hapart h

/-- A character that is neither white space nor a number sign. -/
def isInk (c : Char) : Bool :=
  !isWhiteSpace c && c != '#'

theorem isInk_eq_false_of_isLineBlank {c : Char} (h : isLineBlank c = true) :
    isInk c = false := by
  rw [isLineBlank, Bool.and_eq_true] at h
  rw [isInk, h.1]
  rfl

theorem isInk_of_isDecimalDigit {c : Char} (h : isDecimalDigit c = true) : isInk c = true := by
  have hsign : c ≠ '#' := by
    rintro rfl
    exact absurd h (by decide)
  simp [isInk, isWhiteSpace_eq_false_of_isDecimalDigit h, hsign]

/-- Only comments can be without a character that is neither white space nor a number sign. -/
theorem Pass.exists_isInk {p : Pass} (hp : p ≠ .comment) {before : Option Char} {t : Text}
    {pieces : List Piece} (h : p.matcher before t = some pieces) : ∃ c ∈ t, isInk c = true := by
  cases p with
  | comment => exact absurd rfl hp
  | keyword =>
      obtain ⟨k, hk, rest, rfl, -⟩ := @keywordHere_eq_some before _ _ h
      have hspelling : ∀ k ∈ Keyword.all, k.spelling.any isInk = true := by decide
      obtain ⟨c, hc, hink⟩ := List.any_eq_true.1 (hspelling k hk)
      exact ⟨c, List.mem_append_left rest hc, hink⟩
  | reference =>
      obtain ⟨_, _, _, _, rfl, -⟩ := @referenceHere_eq_some before _ _ h
      exact ⟨'$', List.mem_cons_self, by decide⟩
  | marker =>
      obtain ⟨_, rfl, -⟩ := @markerHere_eq_some before _ _ h
      exact ⟨'@', List.mem_cons_self, by decide⟩
  | operator =>
      obtain ⟨w, hw, rest, rfl, -⟩ := @operatorHere_eq_some before _ _ h
      have hspelling : ∀ w ∈ operatorSpellings, w.any isInk = true := by decide
      obtain ⟨c, hc, hink⟩ := List.any_eq_true.1 (hspelling w hw)
      exact ⟨c, List.mem_append_left rest hc, hink⟩
  | stringLiteral =>
      obtain ⟨_, _, rfl, -⟩ := @stringLiteralHere_eq_some before _ _ h
      exact ⟨'"', List.mem_cons_self, by decide⟩
  | number =>
      obtain ⟨-, digits, hdigits, -⟩ := numberHere_eq_some h
      obtain ⟨hsplit, hne, hall, -⟩ := digitWord?_eq_some hdigits
      obtain ⟨c, hc⟩ := List.exists_mem_of_ne_nil digits hne
      rw [hsplit]
      exact ⟨c, List.mem_append_left _ hc, isInk_of_isDecimalDigit (hall c hc)⟩

theorem Pass.exists_not_isWhiteSpace {p : Pass} {before : Option Char} {t : Text}
    {pieces : List Piece} (h : p.matcher before t = some pieces) :
    ∃ c ∈ t, isWhiteSpace c = false := by
  by_cases hp : p = .comment
  · subst hp
    obtain ⟨blanks, body, rest, rfl, -⟩ := @commentHere_eq_some before _ _ h
    exact ⟨'#', by simp, by decide⟩
  · obtain ⟨c, hc, hink⟩ := Pass.exists_isInk hp h
    simp only [isInk, Bool.and_eq_true, Bool.not_eq_true'] at hink
    exact ⟨c, hc, hink.1⟩

/-- Nothing is found in a text without the characters that every match has one of. -/
theorem Matcher.scan_eq_nil {m : Matcher} {ink : Char → Bool}
    (h : ∀ before t pieces, m before t = some pieces → ∃ c ∈ t, ink c = true) {t : Text}
    (ht : ∀ c ∈ t, ink c = false) (offset : Nat) (before : Option Char) :
    m.scan offset before 0 t = [] := by
  induction t generalizing offset before with
  | nil => rfl
  | cons c t ih =>
      have hmiss : m before (c :: t) = none := by
        rw [Option.eq_none_iff_forall_ne_some]
        intro pieces hmatch
        obtain ⟨d, hd, hink⟩ := h before (c :: t) pieces hmatch
        rw [ht d hd] at hink
        exact absurd hink (by decide)
      rw [scan_of_none hmiss]
      exact ih (fun d hd => ht d (List.mem_cons_of_mem c hd)) _ _

theorem Pass.spans_eq_nil {p : Pass} {ink : Char → Bool}
    (h : ∀ before t pieces, p.matcher before t = some pieces → ∃ c ∈ t, ink c = true)
    {f : Fragment} (hf : ∀ c ∈ f.text, ink c = false) : p.spans f = [] := by
  rw [Pass.spans, Matcher.scan_eq_nil h hf]
  simp

/-- No pass finds anything in white space. -/
theorem Pass.spans_of_isBlank {f : Fragment} (hf : f.isBlank = true) (p : Pass) :
    p.spans f = [] := by
  have hink : ∀ before t pieces, p.matcher before t = some pieces →
      ∃ c ∈ t, (!isWhiteSpace c) = true := by
    intro before t pieces hmatch
    obtain ⟨c, hc, hwhite⟩ := Pass.exists_not_isWhiteSpace hmatch
    exact ⟨c, hc, by rw [hwhite]; rfl⟩
  apply Pass.spans_eq_nil hink
  intro c hc
  rw [List.all_eq_true.1 hf c hc]
  rfl

/-- The spans of a fragment, blank or not. -/
theorem Fragment.classify_eq (f : Fragment) :
    f.classify =
      if f.opensWithComment then Pass.comment.spans f else Pass.all.flatMap (·.spans f) := by
  rw [classify]
  split
  · rename_i hblank
    simp [Pass.spans_of_isBlank hblank]
  · rfl

/-- All that classification sees of a fragment is what the passes find. -/
theorem Fragment.classify_congr {f g : Fragment} (hstart : f.start = g.start)
    (h : ∀ p : Pass, p.spans f = p.spans g) : f.classify = g.classify := by
  have hopens : f.opensWithComment = g.opensWithComment := by
    rw [opensWithComment, opensWithComment, h, hstart]
  have hspans : (fun p : Pass => p.spans f) = fun p => p.spans g := funext h
  rw [classify_eq, classify_eq, hopens, hspans, h]

end BmakeHighlight
