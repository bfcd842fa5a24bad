/-
Rendering of texts one behind the other.  The runs of two stretches of painted
bytes are joined where the stretches meet; nothing else about them changes.  A
joined run without category is drawn like its two parts, so a text can be cut at
any place that is not painted on both sides, and its parts rendered on their own.
-/
import BmakeHighlight.Proofs.RenderingFidelity

namespace BmakeHighlight

/-- The same run in a text with `n` more bytes in front. -/
def Run.shift (n : Nat) (r : Run) : Run :=
  ⟨r.start + n, r.stop + n, r.category?⟩

/-- A run in front of others.  It takes up the one behind it when they are alike. -/
def Run.join (r : Run) : List Run → List Run
  | [] => [r]
  | next :: rest =>
      if next.category? = r.category? then ⟨r.start, next.stop, r.category?⟩ :: rest
      else r :: next :: rest

theorem Run.category?_of_mem_head?_join {r first : Run} {rest : List Run}
    (h : first ∈ (r.join rest).head?) : first.category? = r.category? := by
  cases rest with
  | nil =>
      obtain rfl : r = first := by simpa [join] using h
      rfl
  | cons next rest =>
      rw [join] at h
      split at h
      · obtain rfl := Option.some.inj h
        rfl
      · obtain rfl := Option.some.inj h
        rfl

/-- Taking up a run that is alike, and then what is behind it, is the same in either order. -/
theorem Run.join_join {r next : Run} (h : next.category? = r.category?) (rest : List Run) :
    r.join (next.join rest) = Run.join ⟨r.start, next.stop, r.category?⟩ rest := by
  cases rest with
  | nil => simp [join, h]
  | cons last rest =>
      by_cases hlast : last.category? = r.category?
      · simp [join, h, hlast]
      · simp [join, h, hlast]

theorem Run.foldr_join_join (r : Run) (first second : List Run) :
    (r.join first).foldr Run.join second = r.join (first.foldr Run.join second) := by
  cases first with
  | nil => rfl
  | cons next first =>
      rw [join]
      split
      · rename_i h
        rw [List.foldr_cons, List.foldr_cons, join_join h]
      · rfl

namespace Paint

theorem runs_eq_join (offset : Nat) (k : Option Category) (paint : Paint) :
    runs offset (k :: paint) = Run.join ⟨offset, offset + 1, k⟩ (runs (offset + 1) paint) := by
  rw [runs]
  cases runs (offset + 1) paint <;> rfl

/-- The runs of two stretches of bytes are joined where they meet. -/
theorem runs_append (offset : Nat) (first second : Paint) :
    runs offset (first ++ second) =
      (runs offset first).foldr Run.join (runs (offset + first.length) second) := by
  induction first generalizing offset with
  | nil => rfl
  | cons k first ih =>
      rw [List.cons_append, runs_eq_join, ih, runs_eq_join, Run.foldr_join_join,
        List.length_cons, Nat.add_right_comm, Nat.add_assoc]

theorem runs_shift (n offset : Nat) (paint : Paint) :
    runs (offset + n) paint = (runs offset paint).map (Run.shift n) := by
  induction paint generalizing offset with
  | nil => rfl
  | cons k paint ih =>
      rw [runs_eq_join, runs_eq_join, Nat.add_right_comm, ih]
      cases runs (offset + 1) paint with
      | nil => simp [Run.join, Run.shift, Nat.add_right_comm]
      | cons r rest =>
          by_cases h : r.category? = k
          · simp [Run.join, Run.shift, h]
          · simp [Run.join, Run.shift, h, Nat.add_right_comm]

end Paint

section Covers

variable {first second : List Span} {n offset : Nat}

theorem Span.covers_shift (n offset : Nat) (s : Span) :
    (s.shift n).covers (offset + n) = s.covers offset := by
  simp [covers]

theorem lastCover_eq_none (h : ∀ s ∈ first, s.stop ≤ offset) : lastCover first offset = none := by
  have hfilter : first.filter (·.covers offset) = [] := by
    rw [List.filter_eq_nil_iff]
    intro s hs hcovers
    have hstop := h s hs
    have hin := Span.covers_iff.1 hcovers
    omega
  rw [lastCover, hfilter]
  rfl

/-- Below the second list of spans only the first one counts. -/
theorem lastCover_append_shift_of_lt (h : offset < n) :
    lastCover (first ++ second.map (Span.shift n)) offset = lastCover first offset := by
  have hfilter : (second.map (Span.shift n)).filter (·.covers offset) = [] := by
    rw [List.filter_eq_nil_iff]
    intro s hs hcovers
    obtain ⟨s, -, rfl⟩ := List.mem_map.1 hs
    have hin := Span.covers_iff.1 hcovers
    rw [Span.start_shift] at hin
    omega
  rw [lastCover, List.filter_append, hfilter, List.append_nil, lastCover]

/-- Behind the first list of spans only the second one counts. -/
theorem lastCover_append_shift_add (h : ∀ s ∈ first, s.stop ≤ n) :
    lastCover (first ++ second.map (Span.shift n)) (offset + n) = lastCover second offset := by
  have hfirst : first.filter (·.covers (offset + n)) = [] := by
    rw [List.filter_eq_nil_iff]
    intro s hs hcovers
    have hstop := h s hs
    have hin := Span.covers_iff.1 hcovers
    omega
  have hsecond : (second.map (Span.shift n)).filter (·.covers (offset + n)) =
      (second.filter (·.covers offset)).map (Span.shift n) := by
    rw [List.filter_map]
    congr 1
    apply List.filter_congr
    intro s _
    exact s.covers_shift n offset
  rw [lastCover, List.filter_append, hfirst, List.nil_append, hsecond, List.getLast?_map,
    Option.map_map, lastCover]
  rfl

theorem Paint.ofSpans_append (h : ∀ s ∈ first, s.stop ≤ n) (m : Nat) :
    ofSpans (n + m) (first ++ second.map (Span.shift n)) = ofSpans n first ++ ofSpans m second := by
  apply List.ext_getElem?
  intro offset
  by_cases hfirst : offset < n
  · rw [List.getElem?_append_left (by rwa [length_ofSpans]), getElem?_ofSpans _ hfirst,
      getElem?_ofSpans _ (by omega), lastCover_append_shift_of_lt hfirst]
  · obtain ⟨offset, rfl⟩ := Nat.exists_eq_add_of_le' (Nat.le_of_not_lt hfirst)
    rw [List.getElem?_append_right (by rw [length_ofSpans]; omega), length_ofSpans,
      Nat.add_sub_cancel]
    by_cases hsecond : offset < m
    · rw [getElem?_ofSpans _ hsecond, getElem?_ofSpans _ (by omega),
        lastCover_append_shift_add h]
    · rw [List.getElem?_eq_none, List.getElem?_eq_none]
      · rw [length_ofSpans]
        omega
      · rw [length_ofSpans]
        omega

end Covers

section Slices

variable {s t part : Text} {start stop : Nat}

theorem Text.slice?_append_right (h : s.slice? start stop = some part) (t : Text) :
    Text.slice? (s ++ t) start stop = some part := by
  obtain ⟨front, back, rfl, hfront, hpart⟩ := slice?_eq_some_iff.1 h
  exact slice?_eq_some_iff.2 ⟨front, back ++ t, by simp, hfront, hpart⟩

theorem Text.slice?_append_left (h : t.slice? start stop = some part) (s : Text) :
    Text.slice? (s ++ t) (start + s.byteSize) (stop + s.byteSize) = some part := by
  obtain ⟨front, back, rfl, hfront, hpart⟩ := slice?_eq_some_iff.1 h
  refine slice?_eq_some_iff.2 ⟨s ++ front, back, by simp, ?_, ?_⟩
  · rw [byteSize_append, hfront, Nat.add_comm]
  · rw [Nat.add_right_comm, hpart]

end Slices

namespace Tiles

variable {start stop : Nat} {runs : List Run} {r : Run}

theorem stop_of_mem_getLast? (h : Tiles start stop runs) (hr : r ∈ runs.getLast?) :
    r.stop = stop := by
  induction h with
  | nil => simp at hr
  | @cons start stop rest first hfirst hlt hrest ih =>
      cases rest with
      | nil =>
          cases hrest
          obtain rfl := Option.some.inj hr
          rfl
      | cons next rest => exact ih (by simpa using hr)

theorem lt_stop (h : Tiles start stop runs) (hr : r ∈ runs) : r.start < r.stop := by
  induction h with
  | nil => simp at hr
  | cons first hfirst hlt _ ih =>
      rcases List.mem_cons.1 hr with rfl | hr
      · omega
      · exact ih hr

/-- Runs between boundaries begin at boundaries too. -/
theorem isBoundary_start {t : Text} (h : Tiles start stop runs)
    (hstart : t.isBoundary start = true) (hends : ∀ r ∈ runs, t.isBoundary r.stop = true)
    (hr : r ∈ runs) : t.isBoundary r.start = true := by
  induction h with
  | nil => simp at hr
  | cons first hfirst _ _ ih =>
      rw [List.forall_mem_cons] at hends
      rcases List.mem_cons.1 hr with rfl | hr
      · rwa [hfirst]
      · exact ih hends.1 hends.2 hr

end Tiles

/-- There is a text under every run of a layering. -/
theorem Text.Carries.exists_slice {t : Text} {spans : List Span} (h : t.Carries spans) {r : Run}
    (hr : r ∈ layer t.byteSize spans) : ∃ part, t.slice? r.start r.stop = some part := by
  have hlayering := layer_isLayering t.byteSize spans
  have hends := h.isBoundary_stop hlayering.tiles rfl hlayering.neighbours_ne
    hlayering.category?_eq
  have hstart := hlayering.tiles.isBoundary_start t.isBoundary_zero hends hr
  have hle := Nat.le_of_lt (hlayering.tiles.lt_stop hr)
  exact Option.isSome_iff_exists.1 (slice?_isSome_iff.2 ⟨hle, hstart, hends r hr⟩)

section Drawing

variable (styles : StyleTable)

theorem Run.draw_of_slice {t part : Text} {r : Run} (h : t.slice? r.start r.stop = some part) :
    r.draw t styles = (r.category?.map styles.get).elim part (Style.draw · part) := by
  rw [draw, h]
  cases r.category? <;> rfl

/-- Joining a run to others changes nothing in the drawing, when it takes up a run only if both
have no category and there is a text under each. -/
theorem Run.flatMap_draw_join {t : Text} {r : Run} {rest : List Run}
    (h : ∀ next ∈ rest.head?, next.category? = r.category? →
      r.category? = none ∧ next.start = r.stop ∧
        (∃ part, t.slice? r.start r.stop = some part) ∧
          ∃ part, t.slice? next.start next.stop = some part) :
    (r.join rest).flatMap (Run.draw t styles) =
      r.draw t styles ++ rest.flatMap (Run.draw t styles) := by
  cases rest with
  | nil => simp [join]
  | cons next rest =>
      rw [join]
      split
      · rename_i halike
        obtain ⟨hnone, hstart, ⟨part, hpart⟩, part', hpart'⟩ := h next rfl halike
        have hjoined : t.slice? r.start next.stop = some (part ++ part') :=
          Text.slice?_append hpart (hstart ▸ hpart')
        rw [List.flatMap_cons, List.flatMap_cons, draw_of_slice styles hpart,
          draw_of_slice styles hpart', draw_of_slice styles hjoined, halike, hnone,
          ← List.append_assoc]
        rfl
      · rfl

/-- The same for all runs of a layering, which can only take up a run at their end. -/
theorem Run.flatMap_draw_foldr_join {t : Text} {first second : List Run}
    (hne : first.IsChain fun a b => a.category? ≠ b.category?)
    (h : ∀ r ∈ first.getLast?, ∀ next ∈ second.head?, next.category? = r.category? →
      r.category? = none ∧ next.start = r.stop ∧
        (∃ part, t.slice? r.start r.stop = some part) ∧
          ∃ part, t.slice? next.start next.stop = some part) :
    (first.foldr Run.join second).flatMap (Run.draw t styles) =
      first.flatMap (Run.draw t styles) ++ second.flatMap (Run.draw t styles) := by
  induction first with
  | nil => rfl
  | cons r first ih =>
      rw [List.isChain_cons] at hne
      cases first with
      | nil => simpa using flatMap_draw_join styles (h r rfl)
      | cons next first =>
          have hrest := ih hne.2 (by simpa using h)
          rw [List.foldr_cons, flatMap_draw_join styles, hrest, ← List.append_assoc]
          · rfl
          · intro head hhead halike
            have hnext := category?_of_mem_head?_join hhead
            exact absurd (halike.symm.trans hnext) (hne.1 next rfl)

end Drawing

/-- Texts with their spans one behind the other can be rendered one by one, when no byte is
painted on one side of the place where they meet. -/
theorem Text.render_append {s t : Text} {first second : List Span} (styles : StyleTable)
    (hfirst : ∀ x ∈ first, x.stop ≤ s.byteSize) (hs : s.Carries first) (ht : t.Carries second)
    (hseam : lastCover first (s.byteSize - 1) = none ∨ lastCover second 0 = none) :
    Text.render (s ++ t) (first ++ second.map (Span.shift s.byteSize)) styles =
      s.render first styles ++ t.render second styles := by
  have hlayer : layer (byteSize (s ++ t)) (first ++ second.map (Span.shift s.byteSize)) =
      (layer s.byteSize first).foldr Run.join
        ((layer t.byteSize second).map (Run.shift s.byteSize)) := by
    rw [layer, byteSize_append, Paint.ofSpans_append hfirst, Paint.runs_append,
      Paint.length_ofSpans, Paint.runs_shift]
    rfl
  have hleft : ∀ r ∈ layer s.byteSize first,
      ∃ part, s.slice? r.start r.stop = some part ∧
        Text.slice? (s ++ t) r.start r.stop = some part := by
    intro r hr
    obtain ⟨part, hpart⟩ := hs.exists_slice hr
    exact ⟨part, hpart, slice?_append_right hpart t⟩
  have hright : ∀ r ∈ layer t.byteSize second,
      ∃ part, t.slice? r.start r.stop = some part ∧
        Text.slice? (s ++ t) (r.shift s.byteSize).start (r.shift s.byteSize).stop = some part := by
    intro r hr
    obtain ⟨part, hpart⟩ := ht.exists_slice hr
    exact ⟨part, hpart, slice?_append_left hpart s⟩
  have hs' := layer_isLayering s.byteSize first
  have ht' := layer_isLayering t.byteSize second
  rw [render, hlayer, Run.flatMap_draw_foldr_join styles hs'.neighbours_ne]
  · congr 1
    · apply List.flatMap_congr
      intro r hr
      obtain ⟨part, hpart, hwhole⟩ := hleft r hr
      rw [Run.draw_of_slice styles hpart, Run.draw_of_slice styles hwhole]
    · rw [List.flatMap_map]
      apply List.flatMap_congr
      intro r hr
      obtain ⟨part, hpart, hwhole⟩ := hright r hr
      rw [Run.draw_of_slice styles hpart, Run.draw_of_slice styles hwhole]
      rfl
  · intro r hr next hnext halike
    have hmem := List.mem_of_getLast? hr
    have hstop := hs'.tiles.stop_of_mem_getLast? hr
    have hlt := hs'.tiles.lt_stop hmem
    rw [List.head?_map] at hnext
    obtain ⟨head, hhead, rfl⟩ := Option.map_eq_some_iff.1 hnext
    obtain ⟨rest, hlayer'⟩ : ∃ rest, layer t.byteSize second = head :: rest :=
      List.head?_eq_some_iff.1 hhead
    have hmem' : head ∈ layer t.byteSize second := List.mem_of_head? hhead
    obtain ⟨hstart, hlt', -⟩ := (hlayer' ▸ ht'.tiles).of_cons
    have hlast := hs'.category?_eq r hmem (s.byteSize - 1) (by omega) (by omega)
    have hzero := ht'.category?_eq head hmem' 0 (by omega) hlt'
    have hnone : r.category? = none := by
      rcases hseam with h | h
      · rw [hlast, h]
      · rw [← halike]
        exact hzero.trans h
    obtain ⟨part, -, hpart⟩ := hleft r hmem
    obtain ⟨part', -, hpart'⟩ := hright head hmem'
    refine ⟨hnone, ?_, ⟨part, hpart⟩, part', hpart'⟩
    rw [Run.shift, hstart, hstop, Nat.zero_add]

/-- Without spans a text is left as it is. -/
theorem Text.render_nil (t : Text) (styles : StyleTable) : t.render [] styles = t := by
  have hslice := slice?_zero_byteSize t
  rw [render, layer, Paint.ofSpans, List.foldl_nil]
  cases hsize : t.byteSize with
  | zero =>
      rw [byteSize_eq_zero_iff.1 hsize]
      rfl
  | succ n =>
      have hruns : Paint.runs 0 (List.replicate (n + 1) none ++ []) = [⟨0, 0 + (n + 1), none⟩] :=
        Paint.runs_replicate_append (by simp [Paint.runs])
      rw [List.append_nil, Nat.zero_add] at hruns
      rw [hsize] at hslice
      rw [hruns, List.flatMap_cons, Run.draw_of_slice styles hslice]
      exact List.append_nil t

end BmakeHighlight
