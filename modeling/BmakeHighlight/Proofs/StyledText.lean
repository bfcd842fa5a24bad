/-
Styled texts on a terminal.  A line in a style is shown in the attributes of the
style, and a text in a style likewise, but for its line feeds.  The terminal has no
attributes left behind either of them.
-/
import BmakeHighlight.Proofs.Terminal

namespace BmakeHighlight

/-- Putting separators between the members of two lists, and one between the lists. -/
theorem intercalate_append {α : Type} (sep : List α) {l l' : List (List α)} (hl : l ≠ [])
    (hl' : l' ≠ []) :
    List.intercalate sep (l ++ l') =
      List.intercalate sep l ++ sep ++ List.intercalate sep l' := by
  induction l with
  | nil => exact absurd rfl hl
  | cons a l ih =>
      cases l with
      | nil =>
          rw [List.singleton_append, List.intercalate_cons_of_ne_nil hl',
            List.intercalate_singleton]
      | cons b l =>
          rw [List.cons_append, List.cons_append, List.intercalate_cons_cons, ← List.cons_append,
            ih (List.cons_ne_nil b l), List.intercalate_cons_cons]
          simp only [List.append_assoc]

/-- Members that are made up with separators themselves are no different from their parts. -/
theorem intercalate_map_intercalate {α : Type} (sep : List α) {groups : List (List (List α))}
    (h : ∀ g ∈ groups, g ≠ []) :
    List.intercalate sep (groups.map (List.intercalate sep)) =
      List.intercalate sep groups.flatten := by
  induction groups with
  | nil => rfl
  | cons g groups ih =>
      rw [List.forall_mem_cons] at h
      cases groups with
      | nil => simp
      | cons g' groups =>
          have hrest : (g' :: groups).flatten ≠ [] := by simp [h.2 g' List.mem_cons_self]
          rw [List.flatten_cons, intercalate_append sep h.1 hrest, ← ih h.2, List.map_cons,
            List.intercalate_cons_of_ne_nil (by simp)]

/-- The numbers that choose a colour, after the one that says what for. -/
def Color.parameters (purpose : Nat) (c : Color) : List Nat :=
  [purpose, 2, c.red.toNat, c.green.toNat, c.blue.toNat]

/-- The numbers for each attribute of a style. -/
def Style.parameters (s : Style) : List (List Nat) :=
  (if s.bold then [[1]] else []) ++
    (if s.underline then [[4]] else []) ++
    (s.foreground?.map (Color.parameters 38)).toList ++
    (s.background?.map (Color.parameters 48)).toList

namespace Style

theorem parameters_ne_nil {s : Style} {numbers : List Nat} (h : numbers ∈ s.parameters) :
    numbers ≠ [] := by
  rintro rfl
  simp [parameters, Color.parameters] at h

theorem codes_eq (s : Style) :
    s.codes = (s.parameters.map (List.map decimal)).map (List.intercalate [';']) := by
  rcases s with ⟨_, foreground?, background?, bold, underline⟩
  cases foreground? <;> cases background? <;> cases bold <;> cases underline <;> rfl

/-- The numbers of a style ask for its attributes. -/
theorem apply_parameters (s : Style) :
    CharAttributes.apply s.parameters.flatten .plain = s.attributes := by
  rcases s with ⟨_, foreground?, background?, bold, underline⟩
  cases foreground? <;> cases background? <;> cases bold <;> cases underline <;>
    simp [parameters, Color.parameters, attributes, CharAttributes.apply, CharAttributes.plain]

theorem isPlain_iff {s : Style} : s.isPlain = true ↔ s.attributes = .plain := by
  simp [isPlain, attributes, CharAttributes.plain, and_assoc]

theorem flatten_parameters_ne_nil {s : Style} (h : s.isPlain = false) :
    s.parameters.flatten ≠ [] := by
  intro hnil
  have happly := s.apply_parameters
  rw [hnil] at happly
  rw [isPlain_iff.2 happly.symm] at h
  exact absurd h (by decide)

end Style

namespace Terminal

theorem display_resetSequence (a : CharAttributes) :
    (idle a).display resetSequence = ([], initial) := by
  have hsequence : resetSequence = attributeSequence ([0].map decimal) := rfl
  rw [hsequence, display_attributeSequence a (List.cons_ne_nil 0 []), CharAttributes.apply,
    CharAttributes.apply]
  rfl

/-- The sequence of a style changes a terminal without attributes to those of the style. -/
theorem display_codes_of_style {s : Style} (h : s.isPlain = false) :
    initial.display (attributeSequence s.codes) = ([], idle s.attributes) := by
  have hsequence : attributeSequence s.codes =
      attributeSequence (s.parameters.flatten.map decimal) := by
    have hne : ∀ texts ∈ s.parameters.map (List.map decimal), texts ≠ [] := by
      intro texts htexts
      obtain ⟨numbers, hnumbers, rfl⟩ := List.mem_map.1 htexts
      simpa using Style.parameters_ne_nil hnumbers
    rw [attributeSequence, attributeSequence, s.codes_eq, intercalate_map_intercalate _ hne,
      List.map_flatten]
  rw [hsequence, initial, display_attributeSequence _ (Style.flatten_parameters_ne_nil h),
    s.apply_parameters]

/-- A line in a style. -/
theorem display_drawLine {s : Style} (h : s.isPlain = false) {line : Text}
    (hline : BmakeHighlight.escape ∉ line) :
    initial.display (s.drawLine line) = (line.map (⟨·, s.attributes⟩), initial) := by
  rw [Style.drawLine]
  split
  · rename_i hnil
    rw [List.isEmpty_iff.1 hnil]
    rfl
  · have hset := display_append (display_codes_of_style h) (display_text s.attributes hline)
    rw [Text.withAttributes, display_append hset (display_resetSequence s.attributes)]
    simp

/-- How a character comes out in given attributes.  A line feed never has any. -/
def cell (a : CharAttributes) (c : Char) : Cell :=
  ⟨c, if c = '\n' then .plain else a⟩

theorem map_cell_of_not_mem (a : CharAttributes) {line : Text} (h : '\n' ∉ line) :
    line.map (cell a) = line.map (⟨·, a⟩) := by
  apply List.map_congr_left
  intro c hc
  rw [cell, if_neg (ne_of_mem_of_not_mem hc h)]

/-- Lines in a style, with line feeds between them. -/
theorem display_drawLines {s : Style} (h : s.isPlain = false) {lines : List Text}
    (hlines : ∀ line ∈ lines, BmakeHighlight.escape ∉ line ∧ '\n' ∉ line) :
    initial.display (List.intercalate ['\n'] (lines.map s.drawLine)) =
      ((List.intercalate ['\n'] lines).map (cell s.attributes), initial) := by
  induction lines with
  | nil => rfl
  | cons line lines ih =>
      rw [List.forall_mem_cons] at hlines
      have hline := display_drawLine h hlines.1.1
      rw [← map_cell_of_not_mem s.attributes hlines.1.2] at hline
      cases lines with
      | nil => simpa using hline
      | cons next lines =>
          rw [List.map_cons, List.map_cons, List.intercalate_cons_cons, ← List.map_cons,
            List.intercalate_cons_cons, List.map_append, List.map_append]
          have hfeed : initial.display ['\n'] = (['\n'].map (cell s.attributes), initial) := rfl
          exact display_append (display_append hline hfeed) (ih hlines.2)

/-- A text in a style. -/
theorem display_draw (s : Style) {t : Text} (ht : BmakeHighlight.escape ∉ t) :
    initial.display (s.draw t) = (t.map (cell s.attributes), initial) := by
  rw [Style.draw]
  split
  · rename_i hplain
    rw [initial, display_text _ ht, Style.isPlain_iff.1 hplain]
    simp [cell]
  · rename_i hplain
    have hlines : ∀ line ∈ fieldsOf '\n' t, BmakeHighlight.escape ∉ line ∧ '\n' ∉ line := by
      intro line hline
      exact ⟨fun h => ht (mem_of_mem_fieldsOf hline h).1,
        fun h => (mem_of_mem_fieldsOf hline h).2 rfl⟩
    rw [display_drawLines (Bool.not_eq_true _ ▸ hplain) hlines, intercalate_fieldsOf]

end Terminal

end BmakeHighlight
