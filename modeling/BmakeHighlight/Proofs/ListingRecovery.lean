/-
Listings read back.  A row has four fields with tabs between them: the place where
its span begins, the category, the length and the quoted text.  For a given text
they determine the span.  So a listing has one row for each span, in order, and
different spans have different listings.
-/
import Mathlib.Data.List.Forall2
import BmakeHighlight.CommandLine.Answer
import BmakeHighlight.Proofs.CommandOutcome
import BmakeHighlight.Proofs.Decimals
import BmakeHighlight.Proofs.LinePlaces
import BmakeHighlight.Proofs.QuotedText
import BmakeHighlight.Proofs.SpanBounds

namespace BmakeHighlight

/-- The category with a given name. -/
def Category.ofName? (name : Text) : Option Category :=
  Category.all.find? (·.name == name)

/-- A row of a listing by its fields.  Lines and columns are counted from one. -/
structure ListingRow where
  number : Nat
  column : Nat
  category : Category
  len : Nat
  text : Text
deriving DecidableEq, Repr

namespace ListingRow

/-- The row as it is written, without the line feed that ends it. -/
def line (row : ListingRow) : Text :=
  (decimal row.number ++ ':' :: decimal row.column) ++ '\t' :: (row.category.name ++
    '\t' :: (decimal row.len ++ '\t' :: row.text.quoted))

/-- Reads a row, without the line feed that ends it. -/
def ofLine? (line : Text) : Option ListingRow :=
  match fieldsOf '\t' line with
  | [place, category, len, quoted] =>
      match fieldsOf ':' place with
      | [number, column] => do
          some
            { number := ← Text.number? number
              column := ← Text.number? column
              category := ← Category.ofName? category
              len := ← Text.number? len
              text := ← Text.unquoted? quoted }
      | _ => none
  | _ => none

/-- The span that a row of the listing of `t` is about. -/
def span? (row : ListingRow) (t : Text) : Option Span :=
  t.lineFragments[row.number - 1]?.map fun line =>
    ⟨row.category, line.start + (row.column - 1), row.len⟩

/-- A row of the listing of `t` says where the span begins, as a line and a column in it, and what
its category and its length are. -/
structure Locates (row : ListingRow) (t : Text) (s : Span) : Prop where
  number_pos : 0 < row.number
  column_pos : 0 < row.column
  start : ∃ line, t.lineFragments[row.number - 1]? = some line ∧
    line.start + (row.column - 1) = s.start
  category : row.category = s.category
  len : row.len = s.len

/-- It also gives the text under the span, which is not empty. -/
structure Describes (row : ListingRow) (t : Text) (s : Span) : Prop extends
    row.Locates t s where
  text : s.text? t = some row.text
  text_ne_nil : row.text ≠ []

end ListingRow

section Fields

variable {c : Char}

theorem Category.ofName?_name (k : Category) : Category.ofName? k.name = some k := by
  cases k <;> decide

theorem Category.not_mem_name (hc : c = '\t' ∨ c = '\n') (k : Category) : c ∉ k.name := by
  rcases hc with rfl | rfl <;> cases k <;> decide

end Fields

namespace ListingRow

theorem fieldsOf_line (row : ListingRow) :
    fieldsOf '\t' row.line =
      [decimal row.number ++ ':' :: decimal row.column, row.category.name, decimal row.len,
        row.text.quoted] := by
  have hnumber : ∀ n, '\t' ∉ decimal n := not_mem_decimal rfl
  have hplace : '\t' ∉ decimal row.number ++ ':' :: decimal row.column := by
    simp [hnumber]
  have hname : '\t' ∉ row.category.name := row.category.not_mem_name (.inl rfl)
  have hquoted : '\t' ∉ row.text.quoted := row.text.not_mem_quoted (.inl rfl)
  rw [line, fieldsOf_append_cons hplace, fieldsOf_append_cons hname,
    fieldsOf_append_cons (hnumber row.len), fieldsOf_of_not_mem hquoted]

/-- Every row is read as it was written. -/
theorem ofLine?_line (row : ListingRow) : ofLine? row.line = some row := by
  have hnumber : ∀ n, ':' ∉ decimal n := not_mem_decimal rfl
  have hplace : fieldsOf ':' (decimal row.number ++ ':' :: decimal row.column) =
      [decimal row.number, decimal row.column] := by
    rw [fieldsOf_append_cons (hnumber row.number), fieldsOf_of_not_mem (hnumber row.column)]
  simp only [ofLine?, fieldsOf_line, hplace, Text.number?_decimal, Category.ofName?_name,
    Text.unquoted?_quoted]
  rfl

theorem count_tab_line (row : ListingRow) : row.line.count '\t' = 3 := by
  have hnumber : ∀ n, (decimal n).count '\t' = 0 :=
    fun n => List.count_eq_zero.2 (not_mem_decimal rfl n)
  have hname := List.count_eq_zero.2 (row.category.not_mem_name (.inl rfl))
  have hquoted := List.count_eq_zero.2 (row.text.not_mem_quoted (.inl rfl))
  simp [line, hnumber, hname, hquoted]

theorem lf_not_mem_line (row : ListingRow) : '\n' ∉ row.line := by
  have hnumber : ∀ n, '\n' ∉ decimal n := not_mem_decimal rfl
  simp [line, hnumber, row.category.not_mem_name (.inr rfl), row.text.not_mem_quoted (.inr rfl)]

/-- What a row says about a span determines the span. -/
theorem Locates.span?_eq {row : ListingRow} {t : Text} {s : Span} (h : row.Locates t s) :
    row.span? t = some s := by
  obtain ⟨line, hline, hstart⟩ := h.start
  rw [span?, hline, Option.map_some, hstart, h.category, h.len]

end ListingRow

/-- A span that begins inside a text has a row in its listing. -/
theorem Span.exists_row {t : Text} {s : Span} (h : s.start < t.byteSize) :
    ∃ row : ListingRow, s.row t = row.line ++ ['\n'] ∧ row.Locates t s ∧
      row.text = (s.text? t).getD [] := by
  obtain ⟨place, line, hplace, hnumber, hline, hstart⟩ := Text.exists_placeAt? h
  refine ⟨⟨place.number, place.column + 1, s.category, s.len, (s.text? t).getD []⟩, ?_,
    ⟨hnumber, Nat.succ_pos _, ⟨line, hline, hstart⟩, rfl, rfl⟩, rfl⟩
  rw [Span.row, hplace, ListingRow.line]
  simp

/-- The spans that a listing of `t` is about. -/
def Text.readListing? (t listing : Text) : Option (List Span) :=
  listing.rawLines.mapM fun line =>
    (ListingRow.ofLine? (Text.stripLast '\n' line)).bind (·.span? t)

section Listing

variable {t : Text} {spans : List Span}

/-- The lines of a listing are its rows. -/
theorem Text.rawLines_listing (h : ∀ s ∈ spans, s.start < t.byteSize) :
    (t.listing spans).rawLines = spans.map (Span.row t) := by
  refine Text.rawLines_flatMap ?_
  intro s hs
  obtain ⟨row, hrow, -⟩ := Span.exists_row (h s hs)
  exact ⟨row.line, hrow, row.lf_not_mem_line⟩

/-- A listing of spans that begin inside the text is read as these spans. -/
theorem Text.readListing?_listing (h : ∀ s ∈ spans, s.start < t.byteSize) :
    t.readListing? (t.listing spans) = some spans := by
  have hread : ∀ s ∈ spans, (ListingRow.ofLine? (Text.stripLast '\n' (s.row t))).bind
      (·.span? t) = some s := by
    intro s hs
    obtain ⟨row, hrow, hlocates, -⟩ := Span.exists_row (h s hs)
    have hbody : Text.stripLast '\n' (row.line ++ ['\n']) = row.line := by
      simp [Text.stripLast]
    rw [hrow, hbody, ListingRow.ofLine?_line, Option.bind_some, hlocates.span?_eq]
  rw [Text.readListing?, Text.rawLines_listing h, List.mapM_map]
  exact (mapM_eq_pure hread).trans (congrArg some (List.map_id spans))

end Listing

namespace Options

variable {o : Options} {read : FileReader} {d : Document} {spans : List Span}

/-- There is a text under every span that the options ask for. -/
theorem exists_text_of_mem_spans (h : o.spans d = .ok spans) {s : Span} (hs : s ∈ spans) :
    ∃ part, s.text? d.text = some part ∧ part ≠ [] := by
  rcases spans_eq_ok_iff.1 h with ⟨start, stop, f, -, hwindow, rfl⟩ | ⟨-, -, rfl⟩
  · have hliesIn := (Document.window_eq_ok hwindow).1
    obtain ⟨part, htext, hpart, -⟩ := Fragment.exists_text_of_mem_classify hliesIn hs
    exact ⟨part, htext, hpart⟩
  · obtain ⟨-, -, -, -, part, htext, hpart, -⟩ := Document.exists_line_of_mem_classify hs
    exact ⟨part, htext, hpart⟩

theorem start_lt_of_mem_spans (h : o.spans d = .ok spans) {s : Span} (hs : s ∈ spans) :
    s.start < d.text.byteSize := by
  obtain ⟨part, htext, hpart⟩ := exists_text_of_mem_spans h hs
  obtain ⟨front, back, ht, hfront, -⟩ := Text.slice?_eq_some_iff.1 htext
  have hpos := Nat.pos_of_ne_zero (mt Text.byteSize_eq_zero_iff.1 hpart)
  rw [ht, Text.byteSize_append, Text.byteSize_append]
  omega

/-- Every span that the options ask for has a row, and the row gives the text under it. -/
theorem exists_row_of_mem_spans (h : o.spans d = .ok spans) {s : Span} (hs : s ∈ spans) :
    ∃ row : ListingRow, s.row d.text = row.line ++ ['\n'] ∧ row.Describes d.text s := by
  obtain ⟨part, htext, hpart⟩ := exists_text_of_mem_spans h hs
  obtain ⟨row, hrow, hlocates, hquoted⟩ := Span.exists_row (start_lt_of_mem_spans h hs)
  rw [htext, Option.getD_some] at hquoted
  subst hquoted
  exact ⟨row, hrow, hlocates, htext, hpart⟩

theorem answer_of_mode_spans (hload : Document.load read o.file = .ok d) (hmode : o.mode = .spans)
    (hspans : o.spans d = .ok spans) : o.answer read = .success (d.text.listing spans) := by
  rw [answer_of_spans_eq_ok hload hspans, hmode]
  rfl

end Options

/-- The listing of the spans that the options ask for has one line for each span, in order.  Each
has three tabs and is read as a row that describes its span; the whole listing is read as the
spans.  So options that ask for other spans of the file have another listing. -/
theorem Options.answer_listing {o : Options} {read : FileReader} {d : Document}
    {spans : List Span} (hload : Document.load read o.file = .ok d) (hmode : o.mode = .spans)
    (hspans : o.spans d = .ok spans) :
    let answer := o.answer read
    answer.exitCode = 0 ∧ answer.errors = [] ∧
      List.Forall₂ (fun line s => line.count '\t' = 3 ∧ ∃ row : ListingRow,
        line = row.line ++ ['\n'] ∧ ListingRow.ofLine? row.line = some row ∧
          row.Describes d.text s) answer.output.rawLines spans ∧
      d.text.readListing? answer.output = some spans ∧
      ∀ (o' : Options) (spans' : List Span), o'.file = o.file → o'.mode = .spans →
        o'.spans d = .ok spans' → (o'.answer read).output = answer.output → spans' = spans := by
  intro answer
  have hanswer : answer = .success (d.text.listing spans) :=
    answer_of_mode_spans hload hmode hspans
  rw [hanswer, Answer.success]
  have hread : d.text.readListing? (d.text.listing spans) = some spans :=
    Text.readListing?_listing fun s hs => start_lt_of_mem_spans hspans hs
  refine ⟨rfl, rfl, ?_, hread, ?_⟩
  · dsimp only
    rw [Text.rawLines_listing fun s hs => start_lt_of_mem_spans hspans hs,
      List.forall₂_map_left_iff, List.forall₂_same]
    intro s hs
    obtain ⟨row, hrow, hdescribes⟩ := exists_row_of_mem_spans hspans hs
    refine ⟨?_, row, hrow, row.ofLine?_line, hdescribes⟩
    rw [hrow, List.count_append, row.count_tab_line]
    rfl
  · intro o' spans' hfile hmode' hspans' houtput
    have hload' : Document.load read o'.file = .ok d := by rwa [hfile]
    rw [answer_of_mode_spans hload' hmode' hspans'] at houtput
    change d.text.listing spans' = d.text.listing spans at houtput
    have hread' : d.text.readListing? (d.text.listing spans') = some spans' :=
      Text.readListing?_listing fun s hs => start_lt_of_mem_spans hspans' hs
    rw [houtput, hread] at hread'
    exact (Option.some.inj hread').symm

/-- The value of a reference runs over the end of a line, in a window that begins in front of a
character of two bytes.  Line by line there is no such value. -/
theorem Options.answer_listing_value_over_lines :
    let o : Options := ⟨.ofText "a.mke".toList, .spans, 1, some (0, 12)⟩
    let o' : Options := { o with window? := none }
    let t : Text := "é $(A\n\tB) 1".toList
    let read := (FileTree.empty.addFile o.file (encodeUtf8 t)).read
    let spans : List Span := [⟨.referenceDelimiter, 3, 2⟩, ⟨.referenceValue, 5, 4⟩,
      ⟨.referenceDelimiter, 9, 1⟩, ⟨.number, 11, 1⟩]
    Document.load read o.file = .ok ⟨t, some o.file⟩ ∧ o.mode = .spans ∧
      o.spans ⟨t, some o.file⟩ = .ok spans ∧
      (o.answer read).output = ("1:4\tReferenceDelimiter\t2\t\"$(\"\n" ++
        "1:6\tReferenceValue\t4\t\"A\\n\\tB\"\n" ++
        "2:3\tReferenceDelimiter\t1\t\")\"\n" ++ "2:5\tNumber\t1\t\"1\"\n").toList ∧
      Text.readListing? t (o.answer read).output = some spans ∧
      (o'.answer read).output ≠ (o.answer read).output := by
  intro o o' t read spans
  have hload : Document.load read o.file = .ok ⟨t, some o.file⟩ := by decide +kernel
  have hspans : o.spans ⟨t, some o.file⟩ = .ok spans := by decide
  have hspans' : o'.spans ⟨t, some o.file⟩ = .ok [⟨.number, 11, 1⟩] := by decide
  obtain ⟨-, -, -, hread, hinjective⟩ := Options.answer_listing hload rfl hspans
  refine ⟨hload, rfl, hspans, by decide +kernel, hread, ?_⟩
  intro houtput
  exact absurd (hinjective o' _ rfl rfl hspans' houtput) (by decide)

end BmakeHighlight
