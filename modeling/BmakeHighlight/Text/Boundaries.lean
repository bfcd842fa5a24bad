/-
Boundaries of a text and the slices between them.  A slice exists between any two
boundaries in order, so that it can be taken once both ends have been looked at.
Slices next to each other make up one, and a boundary never falls inside a
character.
-/
import BmakeHighlight.Text

namespace BmakeHighlight

/-- The first end of a range that falls inside a character. -/
def Text.splitEnd? (t : Text) (start stop : Nat) : Option Nat :=
  [start, stop].find? fun offset => !t.isBoundary offset

/-- The part of a text from one byte offset up to another, where there is one. -/
def Text.slice (t : Text) (start stop : Nat) (h : (t.slice? start stop).isSome = true) : Text :=
  (t.slice? start stop).get h

namespace Text

variable {t part front back : Text} {start stop offset : Nat} {c : Char}

theorem isBoundary_of_append (h : t = front ++ back) : t.isBoundary (byteSize front) = true :=
  isBoundary_iff.2 ⟨front, back, h, rfl⟩

theorem isBoundary_zero (t : Text) : t.isBoundary 0 = true :=
  isBoundary_iff.2 ⟨[], t, rfl, rfl⟩

theorem isBoundary_byteSize (t : Text) : t.isBoundary (byteSize t) = true :=
  isBoundary_of_append (List.append_nil t).symm

/-- A text has at most one beginning of each length. -/
theorem eq_of_byteSize_eq {front' back' : Text} (h : front ++ back = front' ++ back')
    (hsize : byteSize front = byteSize front') : front = front' ∧ back = back' := by
  have hcut : cutAt? (front ++ back) (byteSize front') = some (front, back) :=
    cutAt?_eq_some_iff.2 ⟨rfl, hsize⟩
  rw [cutAt?_eq_some_iff.2 ⟨h, rfl⟩, Option.some.injEq, Prod.mk.injEq] at hcut
  exact ⟨hcut.1.symm, hcut.2.symm⟩

/-- Of two beginnings of a text the shorter one begins the longer one. -/
theorem exists_append_of_byteSize_le {front' back' : Text} (h : front ++ back = front' ++ back')
    (hsize : byteSize front ≤ byteSize front') :
    ∃ middle, front' = front ++ middle ∧ back = middle ++ back' := by
  rcases List.append_eq_append_iff.1 h with ⟨middle, hfront, hback⟩ | ⟨middle, hfront, hback⟩
  · exact ⟨middle, hfront, hback⟩
  · have hmiddle : middle = [] := by
      rw [hfront, byteSize_append] at hsize
      exact byteSize_eq_zero_iff.1 (by omega)
    subst hmiddle
    exact ⟨[], by simpa using hfront.symm, by simpa using hback.symm⟩

/-- Between which offsets there is a slice. -/
theorem slice?_isSome_iff :
    (t.slice? start stop).isSome = true ↔
      start ≤ stop ∧ t.isBoundary start = true ∧ t.isBoundary stop = true := by
  rw [Option.isSome_iff_exists]
  constructor
  · rintro ⟨part, h⟩
    obtain ⟨front, back, ht, hfront, hpart⟩ := slice?_eq_some_iff.1 h
    refine ⟨by omega, isBoundary_iff.2 ⟨front, part ++ back, by simpa using ht, hfront⟩, ?_⟩
    exact isBoundary_iff.2 ⟨front ++ part, back, ht, by rw [byteSize_append]; omega⟩
  · rintro ⟨hle, hstart, hstop⟩
    obtain ⟨front, rest, ht, hfront⟩ := isBoundary_iff.1 hstart
    obtain ⟨front', back, ht', hfront'⟩ := isBoundary_iff.1 hstop
    obtain ⟨part, hpart, -⟩ := exists_append_of_byteSize_le (ht ▸ ht') (by omega)
    rw [hpart] at ht' hfront'
    rw [byteSize_append] at hfront'
    exact ⟨part, slice?_eq_some_iff.2 ⟨front, back, ht', hfront, by omega⟩⟩

theorem splitEnd?_eq_none_iff :
    t.splitEnd? start stop = none ↔ t.isBoundary start = true ∧ t.isBoundary stop = true := by
  simp [splitEnd?]

/-- A range in order has a slice, or an end inside a character. -/
theorem slice?_isSome_iff_splitEnd? (hle : start ≤ stop) :
    (t.slice? start stop).isSome = true ↔ t.splitEnd? start stop = none := by
  rw [slice?_isSome_iff, splitEnd?_eq_none_iff]
  exact and_iff_right hle

/-- Slices next to each other make up one. -/
theorem slice?_append {middle : Nat} {part' : Text} (h : t.slice? start middle = some part)
    (h' : t.slice? middle stop = some part') : t.slice? start stop = some (part ++ part') := by
  obtain ⟨front, back, ht, hfront, hpart⟩ := slice?_eq_some_iff.1 h
  obtain ⟨front', back', ht', hfront', hpart'⟩ := slice?_eq_some_iff.1 h'
  rw [ht, List.append_assoc front'] at ht'
  obtain ⟨rfl, -⟩ := eq_of_byteSize_eq ht' (by rw [byteSize_append]; omega)
  refine slice?_eq_some_iff.2 ⟨front, back', ?_, hfront, by rw [byteSize_append]; omega⟩
  rw [ht, ht', List.append_assoc front, List.append_assoc, List.append_assoc]

theorem slice?_zero_byteSize (t : Text) : t.slice? 0 (byteSize t) = some t :=
  slice?_eq_some_iff.2 ⟨[], [], by simp, rfl, Nat.zero_add _⟩

theorem le_byteSize_of_slice?_eq_some (h : t.slice? start stop = some part) :
    stop ≤ t.byteSize := by
  obtain ⟨front, back, rfl, hfront, hpart⟩ := slice?_eq_some_iff.1 h
  rw [byteSize_append, byteSize_append]
  omega

theorem mem_of_slice?_eq_some (h : t.slice? start stop = some part) (hc : c ∈ part) : c ∈ t := by
  obtain ⟨front, back, rfl, -⟩ := slice?_eq_some_iff.1 h
  exact List.mem_append_left back (List.mem_append_right front hc)

/-- No boundary falls inside a character. -/
theorem isBoundary_eq_false (ht : t = front ++ c :: back) (hstart : byteSize front < offset)
    (hstop : offset < byteSize front + c.utf8Size) : t.isBoundary offset = false := by
  rw [← Bool.not_eq_true, isBoundary_iff]
  rintro ⟨front', back', ht', hsize⟩
  obtain ⟨middle, rfl, hmiddle⟩ :=
    exists_append_of_byteSize_le (ht ▸ ht') (Nat.le_of_lt (hsize ▸ hstart))
  rw [byteSize_append] at hsize
  cases middle with
  | nil => simp at hsize; omega
  | cons d middle =>
      rw [List.cons_append, List.cons.injEq] at hmiddle
      rw [← hmiddle.1, byteSize_cons] at hsize
      omega

end Text

end BmakeHighlight
