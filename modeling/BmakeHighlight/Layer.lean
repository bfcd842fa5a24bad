/-
Layering: spans that overlap are flattened into consecutive runs, each of one
category or none.  Every byte takes the category that was painted on it last.
-/
import BmakeHighlight.Span

namespace BmakeHighlight

/-- The category of each byte, where there is one. -/
abbrev Paint := List (Option Category)

/-- Paints a span.  Bytes past the end are not painted. -/
def Paint.add (paint : Paint) (s : Span) : Paint :=
  paint.mapIdx fun offset k => if s.covers offset then some s.category else k

/-- `len` bytes with the spans painted on them one after the other. -/
def Paint.ofSpans (len : Nat) (spans : List Span) : Paint :=
  spans.foldl Paint.add (List.replicate len none)

/-- A stretch of bytes drawn alike. -/
structure Run where
  start : Nat
  stop : Nat
  category? : Option Category
deriving DecidableEq, Repr

/-- The runs of painted bytes that begin at an offset: equal neighbours belong together. -/
def Paint.runs (offset : Nat) : Paint → List Run
  | [] => []
  | k :: paint =>
      match Paint.runs (offset + 1) paint with
      | [] => [⟨offset, offset + 1, k⟩]
      | r :: rest =>
          if r.category? = k then ⟨offset, r.stop, k⟩ :: rest
          else ⟨offset, offset + 1, k⟩ :: r :: rest

/-- The runs of `len` bytes under the spans.  Where spans overlap, the later one in the
list wins. -/
def layer (len : Nat) (spans : List Span) : List Run :=
  Paint.runs 0 (Paint.ofSpans len spans)

end BmakeHighlight
