/-
The order in which spans are painted.  Two spans can change places when they have no
byte in common or are of one category, and so can two lists of spans of which this
holds for any two members.  The spans of different lines are apart, so the lines of a
document can be painted in any order.
-/
import BmakeHighlight.Rendering
import BmakeHighlight.Proofs.SpanOverlap

namespace BmakeHighlight

/-- No byte shows which of the two spans was painted first. -/
def Span.Commutes (a b : Span) : Prop :=
  a.Apart b ∨ a.category = b.category

theorem Span.Commutes.symm {a b : Span} (h : a.Commutes b) : b.Commutes a :=
  h.imp Apart.symm Eq.symm

namespace Paint

variable {a b : Span} {as bs front back : List Span}

theorem add_add_comm (h : a.Commutes b) (paint : Paint) :
    (paint.add a).add b = (paint.add b).add a := by
  apply List.ext_getElem?
  intro offset
  rw [getElem?_add, getElem?_add, getElem?_add, getElem?_add, Option.map_map, Option.map_map]
  congr 1
  funext k
  dsimp only [Function.comp_apply]
  cases ha : a.covers offset with
  | false => rfl
  | true =>
      rcases h with hapart | hcategory
      · rw [hapart offset ha]
        rfl
      · rw [hcategory]
        cases b.covers offset <;> rfl

/-- Two neighbours in a list of spans can change places. -/
theorem ofSpans_swap (h : a.Commutes b) (len : Nat) :
    ofSpans len (front ++ a :: b :: back) = ofSpans len (front ++ b :: a :: back) := by
  rw [ofSpans, ofSpans, List.foldl_append, List.foldl_append, List.foldl_cons, List.foldl_cons,
    add_add_comm h]
  rfl

/-- A span can be painted before or after a list of spans. -/
theorem foldl_add_add (h : ∀ b ∈ bs, a.Commutes b) (paint : Paint) :
    bs.foldl add (paint.add a) = (bs.foldl add paint).add a := by
  induction bs generalizing paint with
  | nil => rfl
  | cons b bs ih =>
      rw [List.forall_mem_cons] at h
      rw [List.foldl_cons, List.foldl_cons, add_add_comm h.1, ih h.2]

/-- Two lists of spans can be painted in either order. -/
theorem foldl_add_comm (h : ∀ a ∈ as, ∀ b ∈ bs, a.Commutes b) (paint : Paint) :
    bs.foldl add (as.foldl add paint) = as.foldl add (bs.foldl add paint) := by
  induction as generalizing paint with
  | nil => rfl
  | cons a as ih =>
      rw [List.forall_mem_cons] at h
      rw [List.foldl_cons, List.foldl_cons, ih h.2, foldl_add_add h.1]

/-- Lists of spans can be painted in any order when any two of them can. -/
theorem ofSpans_flatten_perm {blocks order : List (List Span)} (hperm : order.Perm blocks)
    (h : blocks.Pairwise fun as bs => ∀ a ∈ as, ∀ b ∈ bs, a.Commutes b) (len : Nat) :
    ofSpans len order.flatten = ofSpans len blocks.flatten := by
  have hsymm : Std.Symm fun as bs : List Span => ∀ a ∈ as, ∀ b ∈ bs, a.Commutes b :=
    ⟨fun _ _ h b hb a ha => (h a ha b hb).symm⟩
  rw [ofSpans, ofSpans, List.foldl_flatten, List.foldl_flatten]
  apply hperm.foldl_eq'
  intro as has bs hbs paint
  by_cases heq : as = bs
  · rw [heq]
  · exact foldl_add_comm (h.forall (hperm.mem_iff.1 has) (hperm.mem_iff.1 hbs) heq) paint

end Paint

/-- The lines of a document can be layered, and the document drawn, in any order of its lines.
And in any list of spans, two neighbours without a byte in common, or of one category, can change
places. -/
theorem layer_order :
    (∀ (d : Document) (order : List (List Span)),
      order.Perm (d.lines.map Fragment.classify) →
        layer d.size order.flatten = layer d.size d.classify ∧
          ∀ styles, d.text.render order.flatten styles = d.text.render d.classify styles) ∧
      ∀ (len : Nat) (front : List Span) (a b : Span) (back : List Span),
        a.Apart b ∨ a.category = b.category →
          layer len (front ++ a :: b :: back) = layer len (front ++ b :: a :: back) := by
  constructor
  · intro d order hperm
    have hlines : (d.lines.map Fragment.classify).Pairwise fun as bs =>
        ∀ a ∈ as, ∀ b ∈ bs, a.Commutes b := by
      rw [List.pairwise_map]
      exact d.lines_pairwise_apart.imp fun h a ha b hb => .inl (h a ha b hb)
    have hlayer : layer d.size order.flatten = layer d.size d.classify := by
      rw [layer, layer, Paint.ofSpans_flatten_perm hperm hlines, Document.classify,
        List.flatMap_def]
    refine ⟨hlayer, ?_⟩
    intro styles
    rw [Document.size] at hlayer
    rw [Text.render, Text.render, hlayer]
  · intro len front a b back h
    rw [layer, layer, Paint.ofSpans_swap h]

/-- Three lines painted backwards, and two spans that go on behind the end of the text: of one
category where they overlap, and apart otherwise. -/
theorem layer_order_backwards :
    let d := Document.ofText "é = 1 # x\n$(A+1)\r\n@\"q\"".toList
    let order := (d.lines.map Fragment.classify).reverse
    let keyword : Span := ⟨.keyword, 1, 9⟩
    let other : Span := ⟨.keyword, 3, 9⟩
    let comment : Span := ⟨.comment, 0, 1⟩
    (order.Perm (d.lines.map Fragment.classify) ∧ order.flatten ≠ d.classify ∧
        d.text.render order.flatten .standard = d.text.render d.classify .standard) ∧
      (keyword.category = other.category ∧
        layer 6 [comment, keyword, other] = layer 6 [comment, other, keyword]) ∧
      keyword.Apart comment ∧
        layer 6 [keyword, comment, other] = layer 6 [comment, keyword, other] := by
  intro d order keyword other comment
  have hperm : order.Perm (d.lines.map Fragment.classify) := List.reverse_perm _
  have hapart : keyword.Apart comment := (Span.apart_of_stop_le (by decide)).symm
  obtain ⟨hlines, hneighbours⟩ := layer_order
  refine ⟨⟨hperm, by decide, (hlines d order hperm).2 .standard⟩, ⟨rfl, ?_⟩, hapart, ?_⟩
  · exact hneighbours 6 [comment] keyword other [] (.inr rfl)
  · exact hneighbours 6 [] keyword comment [other] (.inl hapart)

end BmakeHighlight
