/-
Scans said by places.  A placement says where something stands in a text: what is before
it, its own text, and what is behind it.  If nothing is placed where a matcher fails, and
nothing but the match begins within a match, then a scan finds what is placed in the
whole text and nothing else.
-/
import BmakeHighlight.Proofs.WindowAgreement

namespace BmakeHighlight

/-- Where something stands in a text: what is before it, its own text, and what is behind
it. -/
abbrev Placement := Text → Text → Text → Prop

namespace Placement

variable {place : Placement} {k : Category} {offset : Nat} {front u word rest : Text} {s : Span}

/-- The span covers something that is placed in the text `t`, which starts at `offset` and has
`front` before it. -/
def HasSpan (place : Placement) (k : Category) (offset : Nat) (front t : Text) (s : Span) : Prop :=
  ∃ before word behind, t = before ++ (word ++ behind) ∧ place (front ++ before) word behind ∧
    s = ⟨k, offset + Text.byteSize before, Text.byteSize word⟩

/-- In the part `u` of a text, `before` behind its start, something is placed that may go on in
the rest of the text. -/
def BeginsIn (place : Placement) (front u rest before word : Text) : Prop :=
  ∃ after behind, u = before ++ after ∧ after ≠ [] ∧ after ++ rest = word ++ behind ∧
    place (front ++ before) word behind

/-- What is placed in a text begins in its first part or is placed in the rest. -/
theorem hasSpan_append : place.HasSpan k offset front (u ++ rest) s ↔
    (∃ before word, place.BeginsIn front u rest before word ∧
      s = ⟨k, offset + Text.byteSize before, Text.byteSize word⟩) ∨
    place.HasSpan k (offset + Text.byteSize u) (front ++ u) rest s := by
  constructor
  · rintro ⟨before, word, behind, ht, hplace, rfl⟩
    rcases List.append_eq_append_iff.1 ht with ⟨more, rfl, hrest⟩ | ⟨after, hu, hrest⟩
    · right
      refine ⟨more, word, behind, hrest, by rwa [List.append_assoc], ?_⟩
      rw [Text.byteSize_append, Nat.add_assoc]
    · by_cases hafter : after = []
      · subst hafter
        rw [List.append_nil] at hu
        subst hu
        right
        exact ⟨[], word, behind, hrest.symm, by rwa [List.append_nil], rfl⟩
      · exact .inl ⟨before, word, ⟨after, behind, hu, hafter, hrest.symm, hplace⟩, rfl⟩
  · rintro (⟨before, word, ⟨after, behind, rfl, -, hrest, hplace⟩, rfl⟩ |
      ⟨before, word, behind, rfl, hplace, rfl⟩)
    · exact ⟨before, word, behind, by rw [List.append_assoc, hrest], hplace, rfl⟩
    · refine ⟨u ++ before, word, behind, by rw [List.append_assoc], ?_, ?_⟩
      · rwa [← List.append_assoc]
      · rw [Text.byteSize_append, Nat.add_assoc]

end Placement

/-- A single character begins at the front of it only. -/
theorem eq_nil_of_singleton_eq_append {c : Char} {front back : Text} (h : [c] = front ++ back)
    (hback : back ≠ []) : front = [] ∧ back = [c] := by
  rcases List.singleton_eq_append_iff.1 h with hfirst | ⟨-, hnil⟩
  · exact hfirst
  · exact absurd hnil hback

namespace Matcher

variable {m : Matcher} {k : Category} {place : Placement} {ready : Text → Text → Prop}

/-- The matcher marks what is placed.  `ready front t` is what a scan can rely on when it has come
to `t` behind `front`. -/
structure Marks (m : Matcher) (k : Category) (place : Placement)
    (ready : Text → Text → Prop) : Prop where
  sound : m.Sound
  word_ne_nil : ∀ {front word behind}, place front word behind → word ≠ []
  miss : ∀ {front c t}, ready front (c :: t) → m front.getLast? (c :: t) = none →
    ready (front ++ [c]) t ∧ ∀ word behind, c :: t = word ++ behind → ¬ place front word behind
  hit : ∀ {front pieces rest}, ready front (matchedText pieces ++ rest) →
    m front.getLast? (matchedText pieces ++ rest) = some pieces →
    ∃ found, pieces = [⟨k, found⟩] ∧ ready (front ++ found) rest ∧
      ∀ before word, place.BeginsIn front found rest before word ↔ before = [] ∧ word = found

/-- A scan finds what is placed in the text. -/
theorem Marks.mem_scan_iff (h : m.Marks k place ready) {front t : Text} (hready : ready front t)
    (offset : Nat) {s : Span} :
    s ∈ m.scan offset front.getLast? 0 t ↔ place.HasSpan k offset front t s := by
  have hscan := scan_induction h.sound
    (motive := fun offset before t spans => ∀ front, before = front.getLast? → ready front t →
      ∀ s, s ∈ spans ↔ place.HasSpan k offset front t s)
  refine hscan ?_ ?_ ?_ offset front.getLast? t front rfl hready s
  · rintro offset before front - - s
    rw [List.mem_nil_iff, false_iff]
    rintro ⟨before, word, behind, hnil, hplace, -⟩
    obtain ⟨-, hword⟩ := List.append_eq_nil_iff.1 hnil.symm
    exact h.word_ne_nil hplace (List.append_eq_nil_iff.1 hword).1
  · rintro offset - c t hmiss ih front rfl hready s
    obtain ⟨hready', hnone⟩ := h.miss hready hmiss
    have hsize : Text.byteSize [c] = c.utf8Size := Nat.add_zero c.utf8Size
    change _ ↔ place.HasSpan k offset front ([c] ++ t) s
    rw [ih (front ++ [c]) (by simp) hready', Placement.hasSpan_append, hsize, or_iff_right]
    rintro ⟨before, word, ⟨after, behind, hc, hafter, hrest, hplace⟩, -⟩
    obtain ⟨rfl, rfl⟩ := eq_nil_of_singleton_eq_append hc hafter
    rw [List.append_nil] at hplace
    exact hnone word behind hrest hplace
  · rintro offset - pieces rest spans hmatch ih front rfl hready s
    obtain ⟨found, rfl, hready', honly⟩ := h.hit hready hmatch
    have hfound : matchedText [⟨k, found⟩] = found := by simp [matchedText]
    rw [hfound] at ih ⊢
    rw [List.mem_append, ih (front ++ found) List.getLast?_append.symm hready',
      Placement.hasSpan_append]
    refine or_congr_left ?_
    simp only [honly, spansOf, List.mem_singleton]
    constructor
    · rintro rfl
      exact ⟨[], found, ⟨rfl, rfl⟩, rfl⟩
    · rintro ⟨before, word, ⟨rfl, rfl⟩, rfl⟩
      rfl

end Matcher

/-- The spans of a category whose pass keeps to lines are what one scan over the fragment finds. -/
theorem Fragment.filter_classify_eq_scan {f : Fragment} (hopens : f.opensWithComment = false)
    {k : Category} (hk : k.pass.isLineLocal = true) :
    f.classify.filter (·.category == k) = k.pass.matcher.scan f.start none 0 f.text := by
  rw [filter_classify_of_isLineLocal f hk, if_neg (by simp [hopens]), Pass.spans_eq_scan hk]

/-- The spans of a category whose matcher marks what is placed. -/
theorem Fragment.mem_filter_classify_iff {f : Fragment} (hopens : f.opensWithComment = false)
    {k : Category} {place : Placement} {ready : Text → Text → Prop}
    (h : k.pass.matcher.Marks k place ready) (hk : k.pass.isLineLocal = true)
    (hready : ready [] f.text) {s : Span} :
    s ∈ f.classify.filter (·.category == k) ↔
      ∃ before word behind, f.text = before ++ (word ++ behind) ∧ place before word behind ∧
        s = ⟨k, f.start + Text.byteSize before, Text.byteSize word⟩ := by
  rw [filter_classify_eq_scan hopens hk]
  exact h.mem_scan_iff hready f.start

end BmakeHighlight
