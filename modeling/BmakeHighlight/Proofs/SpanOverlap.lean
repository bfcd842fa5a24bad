/-
Which spans can overlap.  A span that is neither a comment nor the value of a reference nor
a string literal holds only characters that no span of another such category can hold.  So
two of these never share a byte, and layering them gives the same runs in any order.
-/
import BmakeHighlight.Proofs.RunDecomposition
import BmakeHighlight.Proofs.SpanBounds

namespace BmakeHighlight

/-- Can spans of the category lie over others? -/
def Category.mayOverlap : Category → Bool
  | .comment | .referenceValue | .stringLiteral => true
  | .keyword | .referenceDelimiter | .preprocessorMarker | .operator | .number => false

/-- Of the categories that cannot lie over each other, the only one whose spans can hold the
character. -/
def categoryOfChar (c : Char) : Category :=
  if isDecimalDigit c || c == '.' then .number
  else if operatorSpellings.any (·.contains c) then .operator
  else if c == '@' then .preprocessorMarker
  else if c == '$' || isOpener c || isCloser c then .referenceDelimiter
  else .keyword

/-- The character that a byte of a text belongs to. -/
def Text.charAt? : Text → Nat → Option Char
  | [], _ => none
  | c :: t, n => if n < c.utf8Size then some c else Text.charAt? t (n - c.utf8Size)

section Characters

variable {s t : Text} {n : Nat}

theorem Text.exists_charAt?_append_left (h : n < Text.byteSize s) (t : Text) :
    ∃ c ∈ s, Text.charAt? (s ++ t) n = some c := by
  induction s generalizing n with
  | nil => simp at h
  | cons c s ih =>
      rw [Text.byteSize_cons] at h
      rw [List.cons_append, charAt?]
      split
      · exact ⟨c, List.mem_cons_self, rfl⟩
      · obtain ⟨d, hd, hat⟩ := ih (n := n - c.utf8Size) (by omega)
        exact ⟨d, List.mem_cons_of_mem c hd, hat⟩

theorem Text.charAt?_append_right (h : Text.byteSize s ≤ n) (t : Text) :
    Text.charAt? (s ++ t) n = Text.charAt? t (n - Text.byteSize s) := by
  induction s generalizing n with
  | nil => rfl
  | cons c s ih =>
      rw [Text.byteSize_cons] at h ⊢
      rw [List.cons_append, charAt?, if_neg (by omega), ih (by omega), Nat.sub_sub]

end Characters

section Pieces

variable {before : Option Char} {t : Text} {pieces : List Piece} {piece : Piece}

theorem categoryOfChar_of_isDecimalDigit {c : Char} (h : isDecimalDigit c = true) :
    categoryOfChar c = .number := by
  rw [categoryOfChar, h]
  rfl

theorem categoryOfChar_of_isOpener {c : Char} (h : isOpener c = true) :
    categoryOfChar c = .referenceDelimiter := by
  have hc : c = '(' ∨ c = '{' := by simpa [isOpener] using h
  rcases hc with rfl | rfl <;> decide

theorem categoryOfChar_of_isCloser {c : Char} (h : isCloser c = true) :
    categoryOfChar c = .referenceDelimiter := by
  have hc : c = ')' ∨ c = '}' := by simpa [isCloser] using h
  rcases hc with rfl | rfl <;> decide

theorem categoryOfChar_of_mem_digits {digits : Text} (h : digitWord? t = some digits) :
    ∀ c ∈ digits, categoryOfChar c = .number := by
  obtain ⟨-, -, hall, -⟩ := digitWord?_eq_some h
  exact fun c hc => categoryOfChar_of_isDecimalDigit (hall c hc)

/-- The characters of a piece that cannot overlap others determine its category. -/
theorem Pass.categoryOfChar_eq {p : Pass} (h : p.matcher before t = some pieces) :
    ∀ piece ∈ pieces, piece.category.mayOverlap = false →
      ∀ c ∈ piece.text, categoryOfChar c = piece.category := by
  cases p with
  | comment =>
      obtain ⟨_, _, _, -, -, -, -, rfl⟩ := @commentHere_eq_some before _ _ h
      simp [Category.mayOverlap]
  | keyword =>
      obtain ⟨k, hk, _, -, -, rfl⟩ := @keywordHere_eq_some before _ _ h
      have hspelling : ∀ k ∈ Keyword.all,
          k.spelling.all (categoryOfChar · == .keyword) = true := by decide
      simpa [Category.mayOverlap] using hspelling k hk
  | reference =>
      obtain ⟨opener, value, closer, _, -, hopener, -, hcloser, rfl⟩ :=
        @referenceHere_eq_some before _ _ h
      have hdollar : categoryOfChar '$' = .referenceDelimiter := by decide
      intro piece hpiece halone
      rw [List.mem_cons, List.mem_append, List.mem_singleton] at hpiece
      rcases hpiece with rfl | hvalue | rfl
      · simpa using ⟨hdollar, categoryOfChar_of_isOpener hopener⟩
      · split at hvalue
        · simp at hvalue
        · rw [List.mem_singleton.1 hvalue] at halone
          exact Bool.noConfusion halone
      · simpa using categoryOfChar_of_isCloser hcloser
  | marker =>
      obtain ⟨_, -, rfl⟩ := @markerHere_eq_some before _ _ h
      have hmarker : categoryOfChar '@' = .preprocessorMarker := by decide
      simpa using fun _ => hmarker
  | operator =>
      obtain ⟨w, hw, _, -, rfl⟩ := @operatorHere_eq_some before _ _ h
      have hspelling : ∀ w ∈ operatorSpellings,
          w.all (categoryOfChar · == .operator) = true := by decide
      simpa [Category.mayOverlap] using hspelling w hw
  | stringLiteral =>
      obtain ⟨_, _, -, -, rfl⟩ := @stringLiteralHere_eq_some before _ _ h
      simp [Category.mayOverlap]
  | number =>
      have hpoint : categoryOfChar '.' = .number := by decide
      obtain ⟨-, digits, hdigits, ⟨rfl, -⟩ | ⟨_, fraction, -, hfraction, rfl⟩⟩ :=
        numberHere_eq_some h
      · simpa [Category.mayOverlap] using categoryOfChar_of_mem_digits hdigits
      · intro piece hpiece _ c hc
        rw [List.mem_singleton.1 hpiece, List.mem_append, List.mem_cons] at hc
        rw [List.mem_singleton.1 hpiece]
        rcases hc with hc | rfl | hc
        · exact categoryOfChar_of_mem_digits hdigits c hc
        · exact hpoint
        · exact categoryOfChar_of_mem_digits hfraction c hc

end Pieces

section Fragments

variable {f : Fragment} {a b s : Span} {offset : Nat}

/-- The character at a byte of such a span determines the category of the span. -/
theorem Fragment.categoryOfChar_of_covers (hs : s ∈ f.classify)
    (halone : s.category.mayOverlap = false) (hcovers : s.covers offset = true) :
    (f.text.charAt? (offset - f.start)).map categoryOfChar = some s.category := by
  obtain ⟨p, hp⟩ := exists_pass_of_mem_classify hs
  obtain ⟨piece, front, back, hpiece, htext, rfl⟩ :=
    Matcher.exists_piece_of_mem_scan p.matcher_sound (fun _ _ _ h => p.categoryOfChar_eq h)
      f.start none f.text s (Pass.mem_scan_of_mem_spans hp)
  rw [Span.covers_iff, Span.stop] at hcovers
  dsimp only at hcovers halone ⊢
  obtain ⟨c, hc, hat⟩ := Text.exists_charAt?_append_left
    (n := offset - f.start - Text.byteSize front) (by omega : _ < Text.byteSize piece.text) back
  rw [htext, Text.charAt?_append_right (by omega), hat, Option.map_some, hpiece halone c hc]

/-- Spans of a fragment that share a byte differ in category, and one of them may overlap others. -/
theorem Fragment.classify_pairwise_covers (f : Fragment) :
    f.classify.Pairwise fun a b => ∀ offset, a.covers offset = true → b.covers offset = true →
      a.category ≠ b.category ∧
        (a.category.mayOverlap = true ∨ b.category.mayOverlap = true) := by
  refine f.classify_pairwise_precedes.imp_of_mem ?_
  intro a b ha hb hprecedes offset hcovers hcovers'
  rcases hprecedes with hrank | ⟨-, hle⟩
  · have hne : a.category ≠ b.category := by
      intro heq
      rw [heq] at hrank
      exact Nat.lt_irrefl _ hrank
    refine ⟨hne, ?_⟩
    by_contra hneither
    rw [not_or, Bool.not_eq_true, Bool.not_eq_true] at hneither
    have hcategory := categoryOfChar_of_covers ha hneither.1 hcovers
    rw [categoryOfChar_of_covers hb hneither.2 hcovers', Option.some.injEq] at hcategory
    exact hne hcategory.symm
  · rw [Span.covers_iff] at hcovers hcovers'
    omega

theorem Fragment.classify_nodup (f : Fragment) : f.classify.Nodup := by
  refine f.classify_pairwise_precedes.imp_of_mem ?_
  rintro a b ha - hprecedes rfl
  have hlen := (f.wellTagged_classify.liesIn a ha).len_pos
  rcases hprecedes with hrank | ⟨-, hle⟩
  · exact Nat.lt_irrefl _ hrank
  · rw [Span.stop] at hle
    omega

end Fragments

section Layers

variable {spans spans' : List Span}

/-- The spans have no byte in common. -/
def Span.Apart (a b : Span) : Prop :=
  ∀ offset, a.covers offset = true → b.covers offset = false

theorem Span.apart_of_stop_le {a b : Span} (h : a.stop ≤ b.start) : a.Apart b := by
  intro offset hcovers
  rw [Span.covers_iff] at hcovers
  rw [← Bool.not_eq_true, Span.covers_iff]
  omega

theorem Span.Apart.symm {a b : Span} (h : a.Apart b) : b.Apart a := by
  intro offset hb
  rw [← Bool.not_eq_true]
  intro ha
  rw [h offset ha] at hb
  exact Bool.noConfusion hb

/-- The order of spans that are apart makes no difference. -/
theorem lastCover_perm (hspans : spans.Pairwise Span.Apart) (hperm : spans'.Perm spans)
    (offset : Nat) : lastCover spans' offset = lastCover spans offset := by
  have hspans' := hperm.symm.pairwise hspans Span.Apart.symm
  have hcovers : spans'.filter (·.covers offset) = spans.filter (·.covers offset) := by
    refine (hperm.filter _).eq_of_pairwise ?_ (hspans'.filter _) (hspans.filter _)
    -- two spans over the byte would not be apart
    intro a b ha hb hapart _
    rw [List.mem_filter] at ha hb
    rw [hapart offset ha.2] at hb
    exact Bool.noConfusion hb.2
  rw [lastCover, lastCover, hcovers]

/-- The spans of a fragment that cannot overlap others are apart. -/
theorem Fragment.pairwise_apart (f : Fragment) :
    (f.classify.filter fun s => !s.category.mayOverlap).Pairwise Span.Apart := by
  refine (f.classify_pairwise_covers.filter _).imp_of_mem ?_
  intro a b ha hb hshare offset hcovers
  have hneither := (List.mem_filter.1 ha).2
  have hneither' := (List.mem_filter.1 hb).2
  rw [← Bool.not_eq_true]
  intro hcovers'
  rcases (hshare offset hcovers hcovers').2 with hone | hone
  · rw [hone] at hneither
    exact Bool.noConfusion hneither
  · rw [hone] at hneither'
    exact Bool.noConfusion hneither'

/-- The spans of different lines are apart, as the lines themselves. -/
theorem Document.lines_pairwise_apart (d : Document) :
    d.lines.Pairwise fun line later =>
      ∀ a ∈ line.classify, ∀ b ∈ later.classify, a.Apart b := by
  apply d.lines_pairwise_stop_lt.imp
  intro line later hlt a ha b hb
  have hstop := (line.wellTagged_classify.liesIn a ha).stop_le
  have hstart := (later.wellTagged_classify.liesIn b hb).start_le
  exact Span.apart_of_stop_le (by omega)

/-- The spans of a document that cannot overlap others are apart, within a line and in different
lines. -/
theorem Document.pairwise_apart (d : Document) :
    (d.classify.filter fun s => !s.category.mayOverlap).Pairwise Span.Apart := by
  rw [Document.classify, List.filter_flatMap, List.pairwise_flatMap]
  refine ⟨fun line _ => line.pairwise_apart, d.lines_pairwise_apart.imp ?_⟩
  intro line later hapart a ha b hb
  exact hapart a (List.mem_of_mem_filter ha) b (List.mem_of_mem_filter hb)

end Layers

/-- Different spans of a fragment that share a byte differ in category, and one of them is a
comment, the value of a reference or a string literal.  So without these three categories the
runs of a document do not depend on the order in which its spans are layered. -/
theorem classification_overlaps :
    (∀ f : Fragment, f.classify.Nodup ∧
      ∀ a ∈ f.classify, ∀ b ∈ f.classify, a ≠ b → ∀ offset, a.covers offset = true →
        b.covers offset = true → a.category ≠ b.category ∧
          (a.category.mayOverlap = true ∨ b.category.mayOverlap = true)) ∧
      ∀ (d : Document) (len : Nat) (spans : List Span),
        spans.Perm (d.classify.filter fun s => !s.category.mayOverlap) →
          layer len spans = layer len (d.classify.filter fun s => !s.category.mayOverlap) := by
  constructor
  · intro f
    refine ⟨f.classify_nodup, ?_⟩
    intro a ha b hb hne
    -- the statement about two spans is the same with the two exchanged
    have hsymm : Std.Symm fun a b : Span => ∀ offset, a.covers offset = true →
        b.covers offset = true → a.category ≠ b.category ∧
          (a.category.mayOverlap = true ∨ b.category.mayOverlap = true) :=
      ⟨fun _ _ h offset hb ha => ⟨(h offset ha hb).1.symm, (h offset ha hb).2.symm⟩⟩
    exact f.classify_pairwise_covers.forall ha hb hne
  · intro d len spans hperm
    exact layer_congr fun offset _ => lastCover_perm d.pairwise_apart hperm offset

/-- An operator in the value of a reference, and the spans of two lines layered backwards. -/
theorem classification_overlaps_in_reference :
    let f : Fragment := ⟨"$(A+1)".toList, 5⟩
    let value : Span := ⟨.referenceValue, 7, 3⟩
    let plus : Span := ⟨.operator, 8, 1⟩
    let d := Document.ofText "%if 1 # x\n@é = \"+\" $(B)".toList
    let spans := d.classify.filter fun s => !s.category.mayOverlap
    (value ∈ f.classify ∧ plus ∈ f.classify ∧ value ≠ plus ∧ value.covers 8 = true ∧
        plus.covers 8 = true) ∧
      (value.category ≠ plus.category ∧
        (value.category.mayOverlap = true ∨ plus.category.mayOverlap = true)) ∧
      spans.reverse.Perm spans ∧ spans.reverse ≠ spans ∧
        layer 24 spans.reverse = layer 24 spans := by
  intro f value plus d spans
  have hvalue : value ∈ f.classify := by decide
  have hplus : plus ∈ f.classify := by decide
  have hne : value ≠ plus := by decide
  have hover : value.covers 8 = true ∧ plus.covers 8 = true := by decide
  obtain ⟨hfragment, hdocument⟩ := classification_overlaps
  exact ⟨⟨hvalue, hplus, hne, hover⟩,
    (hfragment f).2 value hvalue plus hplus hne 8 hover.1 hover.2,
    spans.reverse_perm, by decide, hdocument d 24 spans.reverse spans.reverse_perm⟩

end BmakeHighlight
