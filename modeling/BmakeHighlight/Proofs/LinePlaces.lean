/-
The place of a byte in a text.  Every byte has one: it is in the line with the number
that the place gives, and the column is its distance from the start of the line.
-/
import BmakeHighlight.Line

namespace BmakeHighlight

/-- A column of a line is found in the line, behind all lines before it. -/
theorem placeAmong?_append_cons {line : Text} {column : Nat} (h : column < line.byteSize)
    (number : Nat) (front back : List Text) :
    placeAmong? number (front ++ line :: back) (Text.byteSize front.flatten + column) =
      some ⟨number + front.length, line, column⟩ := by
  induction front generalizing number with
  | nil =>
      rw [List.flatten_nil, Text.byteSize_nil, Nat.zero_add]
      exact if_pos h
  | cons first front ih =>
      have hbehind :
          ¬ first.byteSize + (Text.byteSize front.flatten + column) < first.byteSize := by omega
      rw [List.flatten_cons, Text.byteSize_append, Nat.add_assoc, List.cons_append, placeAmong?,
        if_neg hbehind, Nat.add_sub_cancel_left, ih, List.length_cons, Nat.add_right_comm,
        Nat.add_assoc]

theorem placeAmong?_eq_none_iff {lines : List Text} {number offset : Nat} :
    placeAmong? number lines offset = none ↔ Text.byteSize lines.flatten ≤ offset := by
  induction lines generalizing number offset with
  | nil => simp [placeAmong?]
  | cons line lines ih =>
      rw [placeAmong?, List.flatten_cons, Text.byteSize_append]
      split
      · rename_i hoffset
        simp only [reduceCtorEq, false_iff]
        omega
      · rename_i hoffset
        rw [ih]
        omega

theorem line_mem_of_placeAmong? {number offset : Nat} {lines : List Text} {place : Place}
    (h : placeAmong? number lines offset = some place) : place.line ∈ lines := by
  induction lines generalizing number offset with
  | nil => simp [placeAmong?] at h
  | cons line lines ih =>
      rw [placeAmong?] at h
      split at h
      · obtain rfl := Option.some.inj h
        exact List.mem_cons_self
      · exact List.mem_cons_of_mem line (ih h)

/-- Every offset in lines laid end to end is a column of one of them. -/
theorem exists_line_of_lt {lines : List Text} {offset : Nat}
    (h : offset < Text.byteSize lines.flatten) :
    ∃ front line back column, lines = front ++ line :: back ∧
      Text.byteSize front.flatten + column = offset ∧ column < line.byteSize := by
  induction lines generalizing offset with
  | nil => simp at h
  | cons line lines ih =>
      by_cases hline : offset < line.byteSize
      · exact ⟨[], line, lines, offset, rfl, by simp, hline⟩
      · rw [List.flatten_cons, Text.byteSize_append] at h
        have hrest : offset - line.byteSize < Text.byteSize lines.flatten := by omega
        obtain ⟨front, found, back, column, rfl, hoffset, hcolumn⟩ := ih hrest
        refine ⟨line :: front, found, back, column, rfl, ?_, hcolumn⟩
        rw [List.flatten_cons, Text.byteSize_append]
        omega

theorem getElem?_fragmentsOf (offset : Nat) (front : List Text) (line : Text) (back : List Text) :
    (fragmentsOf offset (front ++ line :: back))[front.length]? =
      some ⟨Text.stripTerminator line, offset + Text.byteSize front.flatten⟩ := by
  induction front generalizing offset with
  | nil => rfl
  | cons first front ih =>
      rw [List.cons_append, fragmentsOf, List.length_cons, List.getElem?_cons_succ, ih,
        List.flatten_cons, Text.byteSize_append, Nat.add_assoc]

/-- Every byte of a text is at a place: in the line with the place's number, counted from one, and
the column's number of bytes behind the start of the line. -/
theorem Text.exists_placeAt? {t : Text} {offset : Nat} (h : offset < t.byteSize) :
    ∃ place line, t.placeAt? offset = some place ∧ 0 < place.number ∧
      t.lineFragments[place.number - 1]? = some line ∧ line.start + place.column = offset := by
  rw [← t.flatten_rawLines] at h
  obtain ⟨front, line, back, column, hlines, rfl, hcolumn⟩ := exists_line_of_lt h
  have hplace := placeAmong?_append_cons hcolumn 1 front back
  have hfragment := getElem?_fragmentsOf 0 front line back
  rw [← hlines] at hplace hfragment
  rw [← Nat.add_sub_cancel_left 1 front.length] at hfragment
  exact ⟨_, _, hplace, Nat.add_pos_left Nat.one_pos _, hfragment, by rw [Nat.zero_add]⟩

end BmakeHighlight
