/-
What a rendered text looks like on a terminal.  The runs of a layering begin and
end at boundaries when the spans do, so that each of them is drawn.  The terminal
then shows exactly the text, every character in the style of the last span over
it, and is left without attributes.
-/
import BmakeHighlight.Text.Boundaries
import BmakeHighlight.Proofs.RunDecomposition
import BmakeHighlight.Proofs.StyledText

namespace BmakeHighlight

/-- The table after styles have been set one after the other. -/
def StyleTable.setAll (table : StyleTable) (sets : List (Category × Style)) : StyleTable :=
  sets.foldl (fun table (k, s) => table.set k s) table

/-- The style that has been set last for a category, or the one that it has at first. -/
def lastStyle (sets : List (Category × Style)) (k : Category) : Style :=
  ((sets.filter (·.1 = k)).getLast?.map Prod.snd).getD (Style.standard k)

theorem StyleTable.get_setAll (sets : List (Category × Style)) (k : Category) :
    (StyleTable.standard.setAll sets).get k = lastStyle sets k := by
  induction sets using List.reverseRecOn with
  | nil => rfl
  | append_singleton sets set ih =>
      rw [setAll, List.foldl_append, List.foldl_cons, List.foldl_nil, ← setAll, get_set, ih,
        lastStyle, lastStyle, List.filter_append]
      by_cases h : k = set.1
      · simp [h]
      · simp [h, Ne.symm h]

/-- Do all spans begin and end at boundaries, or past the end? -/
def Text.Carries (t : Text) (spans : List Span) : Prop :=
  ∀ s ∈ spans, t.isBoundary (min s.start t.byteSize) = true ∧
    t.isBoundary (min s.stop t.byteSize) = true

instance (t : Text) (spans : List Span) : Decidable (t.Carries spans) :=
  inferInstanceAs (Decidable (∀ s ∈ spans, _))

namespace Text.Carries

variable {t : Text} {spans : List Span}

/-- Where the category over the bytes changes there is a boundary. -/
theorem isBoundary_of_ne (h : t.Carries spans) {offset : Nat} (hoffset : offset < t.byteSize)
    (hne : lastCover spans offset ≠ lastCover spans (offset + 1)) :
    t.isBoundary (offset + 1) = true := by
  by_contra hinside
  have hends : ∀ n, t.isBoundary (min n t.byteSize) = true → n ≠ offset + 1 := by
    rintro n hn rfl
    rw [Nat.min_eq_left hoffset] at hn
    exact hinside hn
  have hcovers : ∀ s ∈ spans, s.covers offset = s.covers (offset + 1) := by
    intro s hs
    have hstart := hends s.start (h s hs).1
    have hstop := hends s.stop (h s hs).2
    rw [Bool.eq_iff_iff]
    simp only [Span.covers, Bool.and_eq_true, decide_eq_true_eq]
    omega
  apply hne
  rw [lastCover, lastCover, List.filter_congr hcovers]

/-- All bytes of a character are under the same category. -/
theorem lastCover_eq (h : t.Carries spans) {front back : Text} {c : Char}
    (ht : t = front ++ c :: back) {offset : Nat} (hstart : byteSize front ≤ offset)
    (hstop : offset < byteSize front + c.utf8Size) :
    lastCover spans offset = lastCover spans (byteSize front) := by
  induction offset, hstart using Nat.le_induction with
  | base => rfl
  | succ offset hle ih =>
      rw [← ih (by omega)]
      by_contra hne
      have hoffset : offset < t.byteSize := by
        rw [ht, byteSize_append, byteSize_cons]
        omega
      have hinside := isBoundary_eq_false ht (Nat.lt_succ_of_le hle) hstop
      rw [h.isBoundary_of_ne hoffset (Ne.symm hne)] at hinside
      exact absurd hinside (by decide)

/-- Every run of a layering ends at a boundary. -/
theorem isBoundary_stop (h : t.Carries spans) {start stop : Nat} {runs : List Run}
    (htiles : Tiles start stop runs) (hstop : stop = t.byteSize)
    (hne : runs.IsChain fun a b => a.category? ≠ b.category?)
    (hcategory : ∀ r ∈ runs, ∀ offset, r.start ≤ offset → offset < r.stop →
      r.category? = lastCover spans offset) :
    ∀ r ∈ runs, t.isBoundary r.stop = true := by
  induction htiles with
  | nil => simp
  | @cons start stop rest r hr hlt hrest ih =>
      rw [List.forall_mem_cons] at hcategory ⊢
      rw [List.isChain_cons] at hne
      refine ⟨?_, ih hstop hne.2 hcategory.2⟩
      cases rest with
      | nil =>
          cases hrest
          rw [hstop]
          exact isBoundary_byteSize t
      | cons next rest =>
          obtain ⟨hnext, hnextlt, hbehind⟩ := hrest.of_cons
          obtain ⟨offset, hoffset⟩ : ∃ offset, r.stop = offset + 1 := ⟨r.stop - 1, by omega⟩
          have hlast := hcategory.1 offset (by omega) (by omega)
          have hfirst := hcategory.2 next List.mem_cons_self (offset + 1) (by omega) (by omega)
          have hle := hbehind.le
          rw [hoffset]
          apply h.isBoundary_of_ne (by omega)
          rw [← hlast, ← hfirst]
          exact hne.1 next rfl

end Text.Carries

namespace Terminal

/-- The cells of a text that begins at an offset, when the attributes depend on where a
character begins. -/
def cellsFrom (attributesAt : Nat → CharAttributes) (offset : Nat) : Text → List Cell
  | [] => []
  | c :: t => cell (attributesAt offset) c :: cellsFrom attributesAt (offset + c.utf8Size) t

section Cells

variable (attributesAt : Nat → CharAttributes) (offset : Nat)

theorem cellsFrom_append (s t : Text) :
    cellsFrom attributesAt offset (s ++ t) =
      cellsFrom attributesAt offset s ++ cellsFrom attributesAt (offset + s.byteSize) t := by
  induction s generalizing offset with
  | nil => rfl
  | cons c s ih =>
      rw [List.cons_append, cellsFrom, cellsFrom, ih, List.cons_append, Text.byteSize_cons,
        Nat.add_assoc]

theorem map_char_cellsFrom (t : Text) :
    (cellsFrom attributesAt offset t).map Cell.char = t := by
  induction t generalizing offset with
  | nil => rfl
  | cons c t ih => rw [cellsFrom, List.map_cons, ih, cell]

theorem length_cellsFrom (t : Text) : (cellsFrom attributesAt offset t).length = t.length := by
  conv_rhs => rw [← map_char_cellsFrom attributesAt offset t, List.length_map]

/-- The cell of a character is where the character is in the text. -/
theorem getElem?_cellsFrom (front : Text) (c : Char) (back : Text) :
    (cellsFrom attributesAt offset (front ++ c :: back))[front.length]? =
      some (cell (attributesAt (offset + front.byteSize)) c) := by
  rw [cellsFrom_append, List.getElem?_append_right (by rw [length_cellsFrom]), length_cellsFrom,
    Nat.sub_self, cellsFrom]
  rfl

/-- Characters with the same attributes. -/
theorem cellsFrom_eq_map {attributesAt : Nat → CharAttributes} {offset : Nat}
    {a : CharAttributes} {t : Text}
    (h : ∀ i, offset ≤ i → i < offset + t.byteSize → attributesAt i = a) :
    cellsFrom attributesAt offset t = t.map (cell a) := by
  induction t generalizing offset with
  | nil => rfl
  | cons c t ih =>
      have hc := c.utf8Size_pos
      rw [Text.byteSize_cons] at h
      rw [cellsFrom, List.map_cons, h offset (Nat.le_refl offset) (by omega),
        ih fun i hstart hstop => h i (by omega) (by omega)]

end Cells

/-- The attributes under a category, and those under none. -/
def attributesUnder (styleOf : Category → Style) : Option Category → CharAttributes
  | none => .plain
  | some k => (styleOf k).attributes

theorem display_run {t part : Text} (ht : BmakeHighlight.escape ∉ t) (styles : StyleTable)
    {r : Run} (hpart : t.slice? r.start r.stop = some part) :
    initial.display (r.draw t styles) =
      (part.map (cell (attributesUnder styles.get r.category?)), initial) := by
  have hescape : BmakeHighlight.escape ∉ part := fun h => ht (Text.mem_of_slice?_eq_some hpart h)
  rw [Run.draw, hpart]
  cases r.category? with
  | none =>
      rw [initial, display_text _ hescape]
      simp [cell, attributesUnder]
  | some k => exact display_draw (styles.get k) hescape

/-- Runs without a gap between them, all of them ending at boundaries. -/
theorem display_runs {t : Text} (ht : BmakeHighlight.escape ∉ t) (styles : StyleTable)
    {categoryAt : Nat → Option Category} {start stop : Nat} {runs : List Run}
    (htiles : Tiles start stop runs) (hstart : t.isBoundary start = true)
    (hends : ∀ r ∈ runs, t.isBoundary r.stop = true)
    (hcategory : ∀ r ∈ runs, ∀ offset, r.start ≤ offset → offset < r.stop →
      r.category? = categoryAt offset) :
    ∃ part, t.slice? start stop = some part ∧
      initial.display (runs.flatMap (Run.draw t styles)) =
        (cellsFrom (fun offset => attributesUnder styles.get (categoryAt offset)) start part,
          initial) := by
  induction htiles with
  | nil start =>
      obtain ⟨front, back, hfront, hsize⟩ := Text.isBoundary_iff.1 hstart
      exact ⟨[], Text.slice?_eq_some_iff.2 ⟨front, back, by simpa using hfront, hsize, rfl⟩, rfl⟩
  | @cons start stop rest r hr hlt hrest ih =>
      rw [List.forall_mem_cons] at hends hcategory
      obtain ⟨part', hpart', hdisplay'⟩ := ih hends.1 hends.2 hcategory.2
      obtain ⟨part, hpart⟩ := Option.isSome_iff_exists.1
        (Text.slice?_isSome_iff.2 ⟨Nat.le_of_lt hlt, hstart, hends.1⟩)
      rw [← hr] at hpart
      have hdisplay := display_run ht styles hpart
      obtain ⟨-, -, -, -, hsize⟩ := Text.slice?_eq_some_iff.1 hpart
      have hsame : ∀ i, start ≤ i → i < start + part.byteSize →
          attributesUnder styles.get (categoryAt i) =
            attributesUnder styles.get r.category? := by
        intro i hstart hstop
        rw [hcategory.1 i (by omega) (by omega)]
      rw [← cellsFrom_eq_map hsame] at hdisplay
      refine ⟨part ++ part', hr ▸ Text.slice?_append hpart hpart', ?_⟩
      rw [List.flatMap_cons, display_append hdisplay hdisplay', cellsFrom_append]
      rw [hr] at hsize
      rw [hsize]

/-- A rendered text on a terminal that nothing has been sent to.  The characters shown are
those of the text, in order.  All bytes of a character have the same last span over them.
It is shown with the attributes of the style set last for the category of that span, and
without attributes when there is no span or it is a line feed.  The terminal ends as it
began. -/
theorem display_render {t : Text} {spans : List Span} (sets : List (Category × Style))
    (hescape : BmakeHighlight.escape ∉ t) (hspans : t.Carries spans) :
    ∃ cells,
      initial.display (t.render spans (StyleTable.standard.setAll sets)) = (cells, initial) ∧
        cells.map Cell.char = t ∧
        ∀ front c back, t = front ++ c :: back →
          ∃ category? : Option Category,
            (∀ offset, Text.byteSize front ≤ offset →
              offset < Text.byteSize front + c.utf8Size →
                lastCover spans offset = category?) ∧
            cells[front.length]? = some ⟨c,
              if c = '\n' then .plain else attributesUnder (lastStyle sets) category?⟩ := by
  have hlayering := layer_isLayering t.byteSize spans
  have hends := hspans.isBoundary_stop hlayering.tiles rfl hlayering.neighbours_ne
    hlayering.category?_eq
  obtain ⟨part, hpart, hdisplay⟩ := display_runs hescape (StyleTable.standard.setAll sets)
    hlayering.tiles t.isBoundary_zero hends hlayering.category?_eq
  rw [Text.slice?_zero_byteSize, Option.some.injEq] at hpart
  subst hpart
  have hstyles : (StyleTable.standard.setAll sets).get = lastStyle sets :=
    funext (StyleTable.get_setAll sets)
  rw [hstyles] at hdisplay
  refine ⟨_, hdisplay, map_char_cellsFrom _ 0 t, ?_⟩
  rintro front c back ht
  refine ⟨lastCover spans (Text.byteSize front), ?_, ?_⟩
  · intro offset hstart hstop
    exact hspans.lastCover_eq ht hstart hstop
  · have hcell := getElem?_cellsFrom
      (fun offset => attributesUnder (lastStyle sets) (lastCover spans offset)) 0 front c back
    rw [← ht, Nat.zero_add] at hcell
    exact hcell

/-- A comment over two lines, and a keyword over the end of it that runs past the text.  The
keyword has been given another style, which shows on a character of two bytes. -/
theorem display_render_keyword_over_comment :
    let t : Text := "aé\nb".toList
    let spans : List Span := [⟨.comment, 0, 5⟩, ⟨.keyword, 1, 9⟩, ⟨.operator, 4, 0⟩]
    let underlined : Style := ⟨[], none, some Color.blueViolet, false, true⟩
    BmakeHighlight.escape ∉ t ∧ t.Carries spans ∧
      ∃ cells,
        initial.display (t.render spans (StyleTable.standard.setAll [(.keyword, underlined)])) =
            (cells, initial) ∧
          cells.map Cell.char = t ∧
          cells[1]? = some ⟨'é', none, some Color.blueViolet, false, true⟩ := by
  intro t spans underlined
  have hescape : BmakeHighlight.escape ∉ t := by decide
  have hspans : t.Carries spans := by decide
  obtain ⟨cells, hdisplay, hchars, hcells⟩ :=
    display_render [(.keyword, underlined)] hescape hspans
  refine ⟨hescape, hspans, cells, hdisplay, hchars, ?_⟩
  obtain ⟨category?, hcategory, hcell⟩ := hcells ['a'] 'é' "\nb".toList rfl
  have hkeyword : some Category.keyword = category? :=
    hcategory 1 (by decide) (by decide)
  rw [← hkeyword] at hcell
  exact hcell

end Terminal

end BmakeHighlight
