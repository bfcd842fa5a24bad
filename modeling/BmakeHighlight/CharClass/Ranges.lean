/-
Character classes as ascending lists of inclusive code-point ranges, and the
membership test on them.
-/

namespace BmakeHighlight

/-- A set of code points, as disjoint inclusive ranges in ascending order. -/
abbrev CodeRanges := List (Nat × Nat)

/-- Membership.  The first range that does not end before `n` decides. -/
def CodeRanges.holds : CodeRanges → Nat → Bool
  | [], _ => false
  | (lo, hi) :: rest, n => if n ≤ hi then decide (lo ≤ n) else CodeRanges.holds rest n

/-- A held code point lies in one of the ranges. -/
theorem CodeRanges.exists_of_holds {rs : CodeRanges} {n : Nat} (h : rs.holds n = true) :
    ∃ r ∈ rs, r.1 ≤ n ∧ n ≤ r.2 := by
  induction rs with
  | nil => simp [CodeRanges.holds] at h
  | cons r rest ih =>
      obtain ⟨lo, hi⟩ := r
      by_cases hn : n ≤ hi
      · have hlo : lo ≤ n := by simpa [CodeRanges.holds, hn] using h
        exact ⟨(lo, hi), by simp, hlo, hn⟩
      · obtain ⟨r, hr, hb⟩ := ih (by simpa [CodeRanges.holds, hn] using h)
        exact ⟨r, by simp [hr], hb⟩

/-- Code points of one class that no range of the other comes near are not in the other. -/
theorem CodeRanges.holds_eq_false {rs ss : CodeRanges}
    (h : ∀ r ∈ rs, ∀ s ∈ ss, r.2 < s.1 ∨ s.2 < r.1) {n : Nat} (hn : rs.holds n = true) :
    ss.holds n = false := by
  rw [← Bool.not_eq_true]
  intro hs
  obtain ⟨r, hr, hlo, hhi⟩ := exists_of_holds hn
  obtain ⟨s, hs, hlo', hhi'⟩ := exists_of_holds hs
  have hapart := h r hr s hs
  omega

end BmakeHighlight
