/-
Source text as a list of characters, measured and cut in UTF-8 bytes.  A byte
offset is a boundary of a text when it does not fall inside a character; only
there can the text be cut.
-/

namespace BmakeHighlight

/-- A text, character by character.  Offsets into it count UTF-8 bytes. -/
abbrev Text := List Char

/-- The length in bytes. -/
def Text.byteSize : Text → Nat
  | [] => 0
  | c :: t => c.utf8Size + Text.byteSize t

@[simp] theorem Text.byteSize_nil : Text.byteSize [] = 0 := rfl

@[simp] theorem Text.byteSize_cons (c : Char) (t : Text) :
    Text.byteSize (c :: t) = c.utf8Size + Text.byteSize t := rfl

@[simp] theorem Text.byteSize_append (s t : Text) :
    Text.byteSize (s ++ t) = Text.byteSize s + Text.byteSize t := by
  induction s with
  | nil => simp
  | cons c s ih =>
      rw [List.cons_append, Text.byteSize_cons, Text.byteSize_cons, ih]
      omega

theorem Text.byteSize_eq_zero_iff {t : Text} : Text.byteSize t = 0 ↔ t = [] := by
  cases t with
  | nil => simp
  | cons c t =>
      have := c.utf8Size_pos
      simp
      omega

/-- The two parts of a text around a byte offset; none past the end or inside a
character. -/
def Text.cutAt? : Text → Nat → Option (Text × Text)
  | t, 0 => some ([], t)
  | [], _ + 1 => none
  | c :: t, n + 1 =>
      if c.utf8Size ≤ n + 1 then
        (Text.cutAt? t (n + 1 - c.utf8Size)).map fun (front, back) => (c :: front, back)
      else none

/-- Cutting undoes putting together, at the right offset and nowhere else. -/
theorem Text.cutAt?_eq_some_iff {t front back : Text} {n : Nat} :
    Text.cutAt? t n = some (front, back) ↔ t = front ++ back ∧ Text.byteSize front = n := by
  induction t generalizing n front with
  | nil =>
      cases n with
      | zero =>
          simp only [Text.cutAt?, Option.some.injEq, Prod.mk.injEq, Text.byteSize_eq_zero_iff]
          constructor
          · rintro ⟨rfl, rfl⟩
            exact ⟨rfl, rfl⟩
          · rintro ⟨h, rfl⟩
            exact ⟨rfl, by simpa using h⟩
      | succ n =>
          simp only [Text.cutAt?, reduceCtorEq, false_iff, not_and]
          intro h
          have hf : front = [] := by simp_all
          simp [hf]
  | cons c t ih =>
      have hc := c.utf8Size_pos
      cases n with
      | zero =>
          simp only [Text.cutAt?, Option.some.injEq, Prod.mk.injEq, Text.byteSize_eq_zero_iff]
          constructor
          · rintro ⟨rfl, rfl⟩
            exact ⟨rfl, rfl⟩
          · rintro ⟨h, rfl⟩
            exact ⟨rfl, by simpa using h⟩
      | succ n =>
          cases front with
          | nil =>
              simp only [Text.cutAt?]
              split <;> simp
          | cons d front =>
              simp only [Text.cutAt?]
              split
              · simp only [Option.map_eq_some_iff, Prod.mk.injEq, List.cons.injEq, Prod.exists,
                  Text.byteSize_cons, List.cons_append]
                constructor
                · rintro ⟨f, b, h, ⟨rfl, rfl⟩, rfl⟩
                  obtain ⟨rfl, hn⟩ := ih.1 h
                  exact ⟨⟨rfl, rfl⟩, by omega⟩
                · rintro ⟨⟨rfl, ht⟩, hn⟩
                  exact ⟨front, back, ih.2 ⟨ht, by omega⟩, ⟨rfl, rfl⟩, rfl⟩
              · simp only [reduceCtorEq, List.cons_append, List.cons.injEq, Text.byteSize_cons,
                  false_iff, not_and, and_imp]
                rintro rfl _
                omega

/-- Is the offset the start or end of a character, or an end of the text? -/
def Text.isBoundary (t : Text) (n : Nat) : Bool :=
  (Text.cutAt? t n).isSome

theorem Text.isBoundary_iff {t : Text} {n : Nat} :
    t.isBoundary n = true ↔ ∃ front back, t = front ++ back ∧ Text.byteSize front = n := by
  simp only [Text.isBoundary, Option.isSome_iff_exists, Prod.exists, Text.cutAt?_eq_some_iff]

/-- The part of a text from one byte offset up to another. -/
def Text.slice? (t : Text) (start stop : Nat) : Option Text :=
  if start ≤ stop then do
    let (_, rest) ← Text.cutAt? t start
    let (part, _) ← Text.cutAt? rest (stop - start)
    some part
  else none

/-- A slice is a part of the text, and the offsets are those of its two ends. -/
theorem Text.slice?_eq_some_iff {t part : Text} {start stop : Nat} :
    t.slice? start stop = some part ↔
      ∃ front back, t = front ++ part ++ back ∧ Text.byteSize front = start ∧
        start + Text.byteSize part = stop := by
  unfold Text.slice?
  constructor
  · intro h
    split at h
    · rename_i hle
      simp only [bind, Option.bind_eq_some_iff, Prod.exists, Option.some.injEq,
        Text.cutAt?_eq_some_iff] at h
      obtain ⟨front, rest, ⟨rfl, hfront⟩, middle, back, ⟨rfl, hmiddle⟩, rfl⟩ := h
      exact ⟨front, back, by simp, hfront, by omega⟩
    · simp at h
  · rintro ⟨front, back, rfl, hstart, hstop⟩
    have hle : start ≤ stop := by omega
    simp only [hle, if_true, bind, Option.bind_eq_some_iff, Prod.exists, Option.some.injEq,
      Text.cutAt?_eq_some_iff]
    exact ⟨front, part ++ back, ⟨by simp, hstart⟩, part, back, ⟨rfl, by omega⟩, rfl⟩

/-- What follows `w`, when the text begins with `w`. -/
def Text.after? : (w t : Text) → Option Text
  | [], t => some t
  | _ :: _, [] => none
  | a :: w, b :: t => if a = b then Text.after? w t else none

theorem Text.after?_eq_some_iff {w t rest : Text} :
    Text.after? w t = some rest ↔ t = w ++ rest := by
  induction w generalizing t with
  | nil => simp [Text.after?]
  | cons a w ih =>
      cases t with
      | nil => simp [Text.after?]
      | cons b t =>
          by_cases h : a = b
          · simp [Text.after?, h, ih]
          · simp [Text.after?, h, Ne.symm h]

/-- The stretches between the separators.  There is always at least one. -/
def fieldsOf {α : Type} [DecidableEq α] (sep : α) : List α → List (List α)
  | [] => [[]]
  | a :: l =>
      if a = sep then [] :: fieldsOf sep l
      else
        match fieldsOf sep l with
        | [] => [[a]]
        | f :: fs => (a :: f) :: fs

theorem fieldsOf_ne_nil {α : Type} [DecidableEq α] (sep : α) (l : List α) :
    fieldsOf sep l ≠ [] := by
  cases l with
  | nil => simp [fieldsOf]
  | cons a l =>
      simp only [fieldsOf]
      split
      · simp
      · split <;> simp

theorem fieldsOf_of_not_mem {α : Type} [DecidableEq α] {sep : α} {l : List α} (h : sep ∉ l) :
    fieldsOf sep l = [l] := by
  induction l with
  | nil => rfl
  | cons a l ih =>
      simp only [List.mem_cons, not_or] at h
      rw [fieldsOf, if_neg (Ne.symm h.1), ih h.2]

theorem fieldsOf_append_cons {α : Type} [DecidableEq α] {sep : α} {l : List α} (h : sep ∉ l)
    (l' : List α) : fieldsOf sep (l ++ sep :: l') = l :: fieldsOf sep l' := by
  induction l with
  | nil => rw [List.nil_append, fieldsOf, if_pos rfl]
  | cons a l ih =>
      simp only [List.mem_cons, not_or] at h
      rw [List.cons_append, fieldsOf, if_neg (Ne.symm h.1), ih h.2]

section Fields

variable {α : Type} [DecidableEq α] {sep : α}

/-- A separator ends the first field, and any other element begins it. -/
theorem fieldsOf_cons (sep a : α) (l : List α) :
    a = sep ∧ fieldsOf sep (a :: l) = [] :: fieldsOf sep l ∨
      a ≠ sep ∧ ∃ f fs, fieldsOf sep l = f :: fs ∧ fieldsOf sep (a :: l) = (a :: f) :: fs := by
  by_cases h : a = sep
  · exact .inl ⟨h, if_pos h⟩
  · obtain ⟨f, fs, hl⟩ := List.exists_cons_of_ne_nil (fieldsOf_ne_nil sep l)
    refine .inr ⟨h, f, fs, hl, ?_⟩
    rw [fieldsOf, if_neg h, hl]

theorem intercalate_fieldsOf (sep : α) (l : List α) :
    List.intercalate [sep] (fieldsOf sep l) = l := by
  induction l with
  | nil => rfl
  | cons a l ih =>
      rcases fieldsOf_cons sep a l with ⟨rfl, heq⟩ | ⟨-, f, fs, hl, heq⟩
      · rw [heq, List.intercalate_cons_of_ne_nil (fieldsOf_ne_nil a l), ih]
        rfl
      · rw [hl] at ih
        rw [heq, ← ih]
        cases fs <;> simp

/-- Fields without separators in them are the fields of what they make up. -/
theorem fieldsOf_intercalate {fields : List (List α)} (hne : fields ≠ [])
    (h : ∀ f ∈ fields, sep ∉ f) : fieldsOf sep (List.intercalate [sep] fields) = fields := by
  induction fields with
  | nil => exact absurd rfl hne
  | cons f fields ih =>
      rw [List.forall_mem_cons] at h
      by_cases hnil : fields = []
      · rw [hnil, List.intercalate_singleton, fieldsOf_of_not_mem h.1]
      · rw [List.intercalate_cons_of_ne_nil hnil, List.append_assoc, List.singleton_append,
          fieldsOf_append_cons h.1, ih hnil h.2]

/-- A field holds elements of the list, and no separators. -/
theorem mem_of_mem_fieldsOf {l f : List α} (hf : f ∈ fieldsOf sep l) {a : α} (ha : a ∈ f) :
    a ∈ l ∧ a ≠ sep := by
  induction l generalizing f with
  | nil =>
      rw [fieldsOf, List.mem_singleton] at hf
      simp [hf] at ha
  | cons b l ih =>
      have hbehind : ∀ g ∈ fieldsOf sep l, a ∈ g → a ∈ b :: l ∧ a ≠ sep := by
        intro g hg hag
        obtain ⟨hmem, hne⟩ := ih hg hag
        exact ⟨List.mem_cons_of_mem b hmem, hne⟩
      rcases fieldsOf_cons sep b l with ⟨-, heq⟩ | ⟨hb, first, fs, hl, heq⟩
      · rw [heq, List.mem_cons] at hf
        rcases hf with rfl | hf
        · simp at ha
        · exact hbehind f hf ha
      · rw [hl] at hbehind
        rw [heq, List.mem_cons] at hf
        rcases hf with rfl | hf
        · rcases List.mem_cons.1 ha with rfl | ha
          · exact ⟨List.mem_cons_self, hb⟩
          · exact hbehind first List.mem_cons_self ha
        · exact hbehind f (List.mem_cons_of_mem first hf) ha

end Fields

/-- The lines of a text, each with the line feed that ends it.  The last one has none
when the text does not end in a line feed. -/
def Text.rawLines : Text → List Text
  | [] => []
  | c :: t =>
      if c = '\n' then [c] :: Text.rawLines t
      else
        match Text.rawLines t with
        | [] => [[c]]
        | line :: rest => (c :: line) :: rest

/-- The lines make up the whole text. -/
theorem Text.flatten_rawLines (t : Text) : (Text.rawLines t).flatten = t := by
  induction t with
  | nil => rfl
  | cons c t ih =>
      simp only [Text.rawLines]
      split
      · simp [ih]
      · split <;> simp_all

/-- The text without one `c` at its end, if it ends so. -/
def Text.stripLast (c : Char) (t : Text) : Text :=
  if t.getLast? = some c then t.dropLast else t

/-- A number in decimal digits. -/
def decimal (n : Nat) : Text :=
  Nat.toDigits 10 n

/-- The text set flush right in a field at least `width` characters wide. -/
def Text.padLeft (fill : Char) (width : Nat) (t : Text) : Text :=
  List.replicate (width - t.length) fill ++ t

end BmakeHighlight
