/-
Layering as a decomposition into runs.  The runs of a layering tile the bytes,
neighbours differ in category, and every byte has the category of the last span
over it.  There is exactly one such list of runs, and it is the one that is
computed: painting gives every byte its category, and collecting equal
neighbours and laying out runs undo each other.
-/
import Mathlib.Data.List.Chain
import Mathlib.Data.List.Induction
import BmakeHighlight.Layer

namespace BmakeHighlight

/-- The category of the last span in the list that covers a byte. -/
def lastCover (spans : List Span) (offset : Nat) : Option Category :=
  ((spans.filter (·.covers offset)).getLast?).map Span.category

@[simp] theorem lastCover_nil (offset : Nat) : lastCover [] offset = none := rfl

theorem lastCover_append (spans : List Span) (s : Span) (offset : Nat) :
    lastCover (spans ++ [s]) offset =
      if s.covers offset then some s.category else lastCover spans offset := by
  by_cases h : s.covers offset = true <;> simp [lastCover, List.filter_append, h]

/-- Runs that follow each other without a gap from one offset up to another, none of them
empty. -/
inductive Tiles : Nat → Nat → List Run → Prop where
  | nil (start : Nat) : Tiles start start []
  | cons {start stop : Nat} {rest : List Run} (r : Run) :
      r.start = start → start < r.stop → Tiles r.stop stop rest →
        Tiles start stop (r :: rest)

theorem Tiles.of_cons {start stop : Nat} {r : Run} {rest : List Run}
    (h : Tiles start stop (r :: rest)) :
    r.start = start ∧ start < r.stop ∧ Tiles r.stop stop rest := by
  cases h with
  | cons _ hstart hr hrest => exact ⟨hstart, hr, hrest⟩

/-- What the runs of some bytes under a list of spans have to be. -/
structure IsLayering (len : Nat) (spans : List Span) (runs : List Run) : Prop where
  tiles : Tiles 0 len runs
  neighbours_ne : runs.IsChain fun a b => a.category? ≠ b.category?
  category?_eq : ∀ r ∈ runs, ∀ offset, r.start ≤ offset → offset < r.stop →
    r.category? = lastCover spans offset

namespace Paint

theorem getElem?_add (paint : Paint) (s : Span) (offset : Nat) :
    (paint.add s)[offset]? =
      paint[offset]?.map fun k => if s.covers offset then some s.category else k := by
  rw [add, List.getElem?_mapIdx]

@[simp] theorem length_ofSpans (len : Nat) (spans : List Span) :
    (ofSpans len spans).length = len := by
  induction spans using List.reverseRecOn with
  | nil => simp [ofSpans]
  | append_singleton spans s ih =>
      rw [ofSpans, List.foldl_append] at *
      simpa [add] using ih

/-- Painting gives every byte the category of the last span over it. -/
theorem getElem?_ofSpans {len offset : Nat} (spans : List Span) (h : offset < len) :
    (ofSpans len spans)[offset]? = some (lastCover spans offset) := by
  induction spans using List.reverseRecOn with
  | nil => simp [ofSpans, h]
  | append_singleton spans s ih =>
      rw [ofSpans] at ih
      rw [ofSpans, List.foldl_append, List.foldl_cons, List.foldl_nil, getElem?_add, ih,
        Option.map_some, lastCover_append]

/-- The first byte begins a run of its own or lengthens the one behind it. -/
theorem runs_cons (offset : Nat) (k : Option Category) (paint : Paint) :
    (∃ r rest, runs (offset + 1) paint = r :: rest ∧ r.category? = k ∧
        runs offset (k :: paint) = ⟨offset, r.stop, k⟩ :: rest) ∨
      (∀ r ∈ (runs (offset + 1) paint).head?, k ≠ r.category?) ∧
        runs offset (k :: paint) = ⟨offset, offset + 1, k⟩ :: runs (offset + 1) paint := by
  rw [runs]
  cases runs (offset + 1) paint with
  | nil => exact .inr ⟨by simp, rfl⟩
  | cons r rest =>
      by_cases h : r.category? = k
      · exact .inl ⟨r, rest, rfl, h, if_pos h⟩
      · exact .inr ⟨by simpa using Ne.symm h, if_neg h⟩

theorem tiles_runs (offset : Nat) (paint : Paint) :
    Tiles offset (offset + paint.length) (runs offset paint) := by
  induction paint generalizing offset with
  | nil => exact .nil offset
  | cons k paint ih =>
      have hrest := ih (offset + 1)
      rw [List.length_cons, Nat.add_comm paint.length, ← Nat.add_assoc]
      rcases runs_cons offset k paint with ⟨r, rest, hruns, -, heq⟩ | ⟨-, heq⟩
      · rw [hruns] at hrest
        rw [heq]
        obtain ⟨-, hr, hrest⟩ := hrest.of_cons
        exact .cons ⟨offset, r.stop, k⟩ rfl (Nat.lt_of_succ_lt hr) hrest
      · rw [heq]
        exact .cons ⟨offset, offset + 1, k⟩ rfl (Nat.lt_succ_self offset) hrest

theorem isChain_runs (offset : Nat) (paint : Paint) :
    (runs offset paint).IsChain fun a b => a.category? ≠ b.category? := by
  induction paint generalizing offset with
  | nil => exact .nil
  | cons k paint ih =>
      have hrest := ih (offset + 1)
      rcases runs_cons offset k paint with ⟨r, rest, hruns, hk, heq⟩ | ⟨hne, heq⟩
      · rw [hruns, List.isChain_cons] at hrest
        rw [heq, List.isChain_cons]
        exact ⟨by simpa [hk] using hrest.1, hrest.2⟩
      · rw [heq, List.isChain_cons]
        exact ⟨hne, hrest⟩

/-- The bytes of runs laid end to end. -/
def ofRuns (runs : List Run) : Paint :=
  runs.flatMap fun r => List.replicate (r.stop - r.start) r.category?

theorem ofRuns_cons (r : Run) (rest : List Run) :
    ofRuns (r :: rest) = List.replicate (r.stop - r.start) r.category? ++ ofRuns rest :=
  rfl

/-- Equal bytes in front of bytes that do not begin alike are one run. -/
theorem runs_replicate_append {k : Option Category} {n offset : Nat} {paint : Paint}
    (hne : ∀ r ∈ (runs (offset + (n + 1)) paint).head?, k ≠ r.category?) :
    runs offset (List.replicate (n + 1) k ++ paint) =
      ⟨offset, offset + (n + 1), k⟩ :: runs (offset + (n + 1)) paint := by
  induction n generalizing offset with
  | zero =>
      rcases runs_cons offset k paint with ⟨r, rest, hruns, hk, -⟩ | ⟨-, heq⟩
      · exact absurd hk.symm (hne r (by simp [hruns]))
      · exact heq
  | succ n ih =>
      have hoffset : offset + (n + 1 + 1) = offset + 1 + (n + 1) := by omega
      rw [hoffset] at hne ⊢
      have hrest := ih hne
      rw [List.replicate_succ, List.cons_append]
      rcases runs_cons offset k (List.replicate (n + 1) k ++ paint) with
        ⟨r, rest, hruns, -, heq⟩ | ⟨hhead, -⟩
      · rw [heq]
        rw [hrest, List.cons.injEq] at hruns
        rw [← hruns.1, ← hruns.2]
      · exact absurd rfl (hhead _ (by rw [hrest]; rfl))

/-- Collecting the bytes of runs gives the runs back, when neighbours differ. -/
theorem runs_ofRuns {start stop : Nat} {runs : List Run} (htiles : Tiles start stop runs)
    (hne : runs.IsChain fun a b => a.category? ≠ b.category?) :
    Paint.runs start (ofRuns runs) = runs := by
  induction htiles with
  | nil start => rfl
  | @cons start stop rest r hstart hr _ ih =>
      rw [List.isChain_cons] at hne
      have hrest := ih hne.2
      obtain ⟨n, hn⟩ : ∃ n, r.stop = start + (n + 1) := ⟨r.stop - start - 1, by omega⟩
      rw [ofRuns_cons, hstart, hn, Nat.add_sub_cancel_left]
      rw [hn] at hrest
      rw [runs_replicate_append (by rw [hrest]; exact hne.1), hrest, ← hn, ← hstart]

/-- The runs that are collected hold all bytes. -/
theorem ofRuns_runs (offset : Nat) (paint : Paint) :
    ofRuns (runs offset paint) = paint := by
  induction paint generalizing offset with
  | nil => rfl
  | cons k paint ih =>
      have hrest := ih (offset + 1)
      rcases runs_cons offset k paint with ⟨r, rest, hruns, hk, heq⟩ | ⟨-, heq⟩
      · have htiles := tiles_runs (offset + 1) paint
        rw [hruns] at htiles hrest
        obtain ⟨hstart, hr, -⟩ := htiles.of_cons
        have hlen : r.stop - offset = r.stop - r.start + 1 := by omega
        rw [heq, ofRuns_cons]
        dsimp only
        rw [hlen, List.replicate_succ, List.cons_append, ← hk, ← ofRuns_cons, hrest]
      · rw [heq, ofRuns_cons, hrest]
        simp

end Paint

namespace Tiles

variable {start stop : Nat} {runs : List Run} {r : Run} {offset : Nat}

theorem le (h : Tiles start stop runs) : start ≤ stop := by
  induction h with
  | nil start => exact Nat.le_refl start
  | cons _ _ hr _ ih => exact Nat.le_trans (Nat.le_of_lt hr) ih

theorem start_ge (h : Tiles start stop runs) (hr : r ∈ runs) : start ≤ r.start := by
  induction h with
  | nil start => simp at hr
  | cons first hstart hfirst _ ih =>
      rcases List.mem_cons.1 hr with rfl | hr
      · exact Nat.le_of_eq hstart.symm
      · exact Nat.le_trans (Nat.le_of_lt hfirst) (ih hr)

/-- Every offset falls into a run. -/
theorem exists_run (h : Tiles start stop runs) (hstart : start ≤ offset)
    (hstop : offset < stop) : ∃ r ∈ runs, r.start ≤ offset ∧ offset < r.stop := by
  induction h with
  | nil start => omega
  | cons r hr _ _ ih =>
      by_cases hoffset : offset < r.stop
      · exact ⟨r, List.mem_cons_self, by omega, hoffset⟩
      · obtain ⟨found, hfound, hin⟩ := ih (Nat.le_of_not_lt hoffset) hstop
        exact ⟨found, List.mem_cons_of_mem r hfound, hin⟩

theorem length_ofRuns (h : Tiles start stop runs) :
    (Paint.ofRuns runs).length = stop - start := by
  induction h with
  | nil start => simp [Paint.ofRuns]
  | cons r hstart hr hrest ih =>
      have hle := hrest.le
      rw [Paint.ofRuns_cons, List.length_append, List.length_replicate, ih]
      omega

/-- Each byte has the category of the run that it falls into. -/
theorem getElem?_ofRuns (h : Tiles start stop runs) (hr : r ∈ runs)
    (hstart : r.start ≤ offset) (hstop : offset < r.stop) :
    (Paint.ofRuns runs)[offset - start]? = some r.category? := by
  induction h with
  | nil start => simp at hr
  | @cons start stop rest first hfirst hlt hrest ih =>
      rw [Paint.ofRuns_cons]
      rcases List.mem_cons.1 hr with rfl | hr
      · rw [List.getElem?_append_left (by rw [List.length_replicate]; omega),
          List.getElem?_replicate_of_lt (by omega)]
      · have hge := hrest.start_ge hr
        rw [List.getElem?_append_right (by rw [List.length_replicate]; omega),
          List.length_replicate, ← ih hr]
        congr 1
        omega

end Tiles

/-- The bytes of the runs of a layering are the painted ones. -/
theorem IsLayering.ofRuns_eq {len : Nat} {spans : List Span} {runs : List Run}
    (h : IsLayering len spans runs) : Paint.ofRuns runs = Paint.ofSpans len spans := by
  apply List.ext_getElem?
  intro offset
  by_cases hoffset : offset < len
  · obtain ⟨r, hr, hstart, hstop⟩ := h.tiles.exists_run (Nat.zero_le offset) hoffset
    have hrun := h.tiles.getElem?_ofRuns hr hstart hstop
    rw [Nat.sub_zero] at hrun
    rw [hrun, h.category?_eq r hr offset hstart hstop, Paint.getElem?_ofSpans spans hoffset]
  · rw [List.getElem?_eq_none, List.getElem?_eq_none]
    · simpa using hoffset
    · rw [h.tiles.length_ofRuns]
      omega

/-- All that layering sees of spans is the last one over each byte. -/
theorem layer_congr {len : Nat} {spans spans' : List Span}
    (h : ∀ offset < len, lastCover spans offset = lastCover spans' offset) :
    layer len spans = layer len spans' := by
  have hpaint : Paint.ofSpans len spans = Paint.ofSpans len spans' := by
    apply List.ext_getElem?
    intro offset
    by_cases hoffset : offset < len
    · rw [Paint.getElem?_ofSpans spans hoffset, Paint.getElem?_ofSpans spans' hoffset,
        h offset hoffset]
    · rw [List.getElem?_eq_none, List.getElem?_eq_none] <;> simpa using hoffset
  rw [layer, layer, hpaint]

theorem layer_isLayering (len : Nat) (spans : List Span) :
    IsLayering len spans (layer len spans) := by
  have htiles := Paint.tiles_runs 0 (Paint.ofSpans len spans)
  rw [Paint.length_ofSpans, Nat.zero_add] at htiles
  refine ⟨htiles, Paint.isChain_runs 0 _, ?_⟩
  intro r hr offset hstart hstop
  have hrun := htiles.getElem?_ofRuns hr hstart hstop
  rw [Nat.sub_zero, Paint.ofRuns_runs] at hrun
  obtain ⟨hoffset, -⟩ := List.getElem?_eq_some_iff.1 hrun
  rw [Paint.length_ofSpans] at hoffset
  rw [Paint.getElem?_ofSpans spans hoffset] at hrun
  exact (Option.some.inj hrun).symm

/-- The runs of a layering are determined: they are the ones that `layer` computes, and
over no bytes there are none. -/
theorem isLayering_iff_eq_layer (len : Nat) (spans : List Span) :
    (∀ runs, IsLayering len spans runs ↔ runs = layer len spans) ∧ layer 0 spans = [] := by
  constructor
  · intro runs
    constructor
    · intro h
      rw [layer, ← h.ofRuns_eq, Paint.runs_ofRuns h.tiles h.neighbours_ne]
    · rintro rfl
      exact layer_isLayering len spans
  · have hpaint : Paint.ofSpans 0 spans = [] :=
      List.length_eq_zero_iff.1 (Paint.length_ofSpans 0 spans)
    rw [layer, hpaint]
    rfl

end BmakeHighlight
