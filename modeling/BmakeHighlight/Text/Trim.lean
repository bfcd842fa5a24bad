/-
Removing white space at the ends of a text.
-/
import BmakeHighlight.Text
import BmakeHighlight.CharClass.WhiteSpace

namespace BmakeHighlight

/-- The text without white space at its end. -/
def Text.trimEnd (t : Text) : Text :=
  (t.reverse.dropWhile isWhiteSpace).reverse

/-- The text without white space at either end. -/
def Text.trim (t : Text) : Text :=
  Text.trimEnd (t.dropWhile isWhiteSpace)

section Trimming

variable {t w w' : Text}

/-- Only white space is removed at the end. -/
theorem Text.exists_trimEnd (t : Text) :
    ∃ w, t = t.trimEnd ++ w ∧ ∀ c ∈ w, isWhiteSpace c = true := by
  refine ⟨(t.reverse.takeWhile isWhiteSpace).reverse, ?_, ?_⟩
  · rw [trimEnd, ← List.reverse_append, List.takeWhile_append_dropWhile, List.reverse_reverse]
  · intro c hc
    exact List.all_eq_true.1 List.all_takeWhile c (List.mem_reverse.1 hc)

theorem Text.trimEnd_append (hw : ∀ c ∈ w, isWhiteSpace c = true) (t : Text) :
    Text.trimEnd (t ++ w) = Text.trimEnd t := by
  have hreverse : ∀ c ∈ w.reverse, isWhiteSpace c = true := fun c hc => hw c (List.mem_reverse.1 hc)
  rw [trimEnd, List.reverse_append, List.dropWhile_append_of_pos hreverse, trimEnd]

theorem Text.trimEnd_of_forall (ht : ∀ c ∈ t, isWhiteSpace c = false) : Text.trimEnd t = t := by
  rw [trimEnd]
  cases hreverse : t.reverse with
  | nil => exact (List.reverse_eq_nil_iff.1 hreverse).symm
  | cons c front =>
      have hc : c ∈ t := List.mem_reverse.1 (hreverse ▸ List.mem_cons_self)
      rw [List.dropWhile_cons, ht c hc, ← hreverse, if_neg Bool.false_ne_true, List.reverse_reverse]

/-- Only white space is removed at either end. -/
theorem Text.exists_trim (t : Text) :
    ∃ w w', t = w ++ t.trim ++ w' ∧ (∀ c ∈ w, isWhiteSpace c = true) ∧
      ∀ c ∈ w', isWhiteSpace c = true := by
  obtain ⟨w', hend, hw'⟩ := exists_trimEnd (t.dropWhile isWhiteSpace)
  refine ⟨t.takeWhile isWhiteSpace, w', ?_, List.all_eq_true.1 List.all_takeWhile, hw'⟩
  rw [List.append_assoc, trim, ← hend, List.takeWhile_append_dropWhile]

/-- What has no white space in it is left when the white space around it is removed. -/
theorem Text.trim_append (hw : ∀ c ∈ w, isWhiteSpace c = true)
    (hw' : ∀ c ∈ w', isWhiteSpace c = true) (ht : ∀ c ∈ t, isWhiteSpace c = false) :
    Text.trim (w ++ t ++ w') = t := by
  rw [List.append_assoc, trim, List.dropWhile_append_of_pos hw]
  cases t with
  | nil =>
      rw [List.nil_append, ← List.append_nil w', List.dropWhile_append_of_pos hw']
      rfl
  | cons c t =>
      have hc : isWhiteSpace c = false := ht c List.mem_cons_self
      rw [List.cons_append, List.dropWhile_cons, hc, if_neg Bool.false_ne_true, ← List.cons_append,
        trimEnd_append hw', trimEnd_of_forall ht]

theorem Text.trim_eq_nil_iff : t.trim = [] ↔ ∀ c ∈ t, isWhiteSpace c = true := by
  constructor
  · intro htrim
    obtain ⟨w, w', ht, hw, hw'⟩ := exists_trim t
    rw [htrim, List.append_nil] at ht
    rw [ht]
    exact List.forall_mem_append.2 ⟨hw, hw'⟩
  · intro ht
    have hnil : ∀ c ∈ ([] : Text), isWhiteSpace c = true := List.forall_mem_nil _
    have htrim := trim_append ht hnil (List.forall_mem_nil _)
    rwa [List.append_nil, List.append_nil] at htrim

end Trimming

end BmakeHighlight
