/-
Classified spans: a category on a byte range of a document.
-/
import BmakeHighlight.Category

namespace BmakeHighlight

/-- A byte range of a document with its category. -/
structure Span where
  category : Category
  start : Nat
  len : Nat
deriving DecidableEq, Repr

/-- The offset just past the span. -/
def Span.stop (s : Span) : Nat :=
  s.start + s.len

/-- Is the byte at this offset in the span? -/
def Span.covers (s : Span) (offset : Nat) : Bool :=
  decide (s.start ≤ offset) && decide (offset < s.stop)

theorem Span.covers_iff {s : Span} {offset : Nat} :
    s.covers offset = true ↔ s.start ≤ offset ∧ offset < s.stop := by
  rw [Span.covers, Bool.and_eq_true, decide_eq_true_eq, decide_eq_true_eq]

/-- The same span in a document with `n` more bytes in front. -/
def Span.shift (n : Nat) (s : Span) : Span :=
  { s with start := s.start + n }

@[simp] theorem Span.start_shift (n : Nat) (s : Span) : (s.shift n).start = s.start + n := rfl

@[simp] theorem Span.stop_shift (n : Nat) (s : Span) : (s.shift n).stop = s.stop + n :=
  Nat.add_right_comm s.start n s.len

/-- The text under the span; none if the range leaves the document or splits a
character. -/
def Span.text? (s : Span) (document : Text) : Option Text :=
  document.slice? s.start s.stop

/-- A span as category and half-open range. -/
def Span.display (s : Span) : Text :=
  s.category.name ++ " [".toList ++ decimal s.start ++ "..".toList ++ decimal s.stop ++ [')']

end BmakeHighlight
