/-
The lines of a text as windows of it.  There is one line for each line feed, and one
more when the text goes on behind the last of them.  The fragments of the lines
follow each other in the text, with nothing but a line terminator between two, and
each of them is what the window over its own range gives.
-/
import Mathlib.Data.List.Chain
import BmakeHighlight.Proofs.Composition

namespace BmakeHighlight

/-- What can end a line. -/
def lineTerminators : List Text :=
  [['\n'], ['\r', '\n']]

section Lines

variable {body rest : Text}

theorem Text.endsLine_append_lf_iff :
    Text.EndsLine (body ++ '\n' :: rest) ↔ rest.EndsLine := by
  refine ⟨EndsLine.of_append_lf, ?_⟩
  rintro (rfl | hlast)
  · exact endsLine_append_lf body
  · right
    rw [List.append_cons, List.getLast?_append, hlast]
    rfl

theorem Text.not_endsLine_of_not_mem (hne : body ≠ []) (hbody : '\n' ∉ body) :
    ¬ body.EndsLine := by
  rintro (rfl | hlast)
  · exact hne rfl
  · exact hbody (List.mem_of_getLast? hlast)

theorem Text.length_rawLines (t : Text) :
    t.rawLines.length = t.count '\n' + if t.EndsLine then 0 else 1 := by
  induction t using Text.lines_induction with
  | nil => rfl
  | last body hne hbody =>
      rw [rawLines_of_not_mem hne hbody, List.count_eq_zero.2 hbody,
        if_neg (not_endsLine_of_not_mem hne hbody)]
      rfl
  | line body rest hbody ih =>
      rw [rawLines_append_lf hbody, List.length_cons, ih, List.count_append, List.count_cons_self,
        List.count_eq_zero.2 hbody]
      simp only [endsLine_append_lf_iff]
      omega

theorem Text.rawLines_ne_nil {t : Text} (h : t ≠ []) : t.rawLines ≠ [] := by
  intro hlines
  apply h
  rw [← t.flatten_rawLines, hlines]
  rfl

theorem length_fragmentsOf (offset : Nat) (lines : List Text) :
    (fragmentsOf offset lines).length = lines.length := by
  induction lines generalizing offset with
  | nil => rfl
  | cons line lines ih => rw [fragmentsOf, List.length_cons, List.length_cons, ih]

theorem fragmentsOf_ne_nil {offset : Nat} {lines : List Text} (h : lines ≠ []) :
    fragmentsOf offset lines ≠ [] := by
  rwa [ne_eq, ← List.length_eq_zero_iff, length_fragmentsOf, List.length_eq_zero_iff]

theorem start_of_mem_head?_fragmentsOf {offset : Nat} {lines : List Text} {f : Fragment}
    (hf : f ∈ (fragmentsOf offset lines).head?) : f.start = offset := by
  cases lines with
  | nil => simp [fragmentsOf] at hf
  | cons line lines =>
      rw [fragmentsOf, List.head?_cons, Option.mem_some_iff] at hf
      rw [← hf]

/-- A text that ends in the middle of a line has the same lines with a line feed behind it. -/
theorem fragmentsOf_append_lf {t : Text} (ht : ¬ t.EndsLine) (offset : Nat) :
    fragmentsOf offset (Text.rawLines (t ++ ['\n'])) = fragmentsOf offset t.rawLines := by
  induction t using Text.lines_induction generalizing offset with
  | nil => exact absurd (.inl rfl) ht
  | last body hne hbody =>
      rw [Text.rawLines_append_lf hbody, Text.rawLines_of_not_mem hne hbody, Text.rawLines,
        fragmentsOf, fragmentsOf, fragmentsOf, fragmentsOf, Text.stripTerminator_append_lf,
        Text.stripTerminator_of_not_mem hbody]
  | line body rest hbody ih =>
      rw [Text.endsLine_append_lf_iff] at ht
      rw [List.append_assoc, List.cons_append, Text.rawLines_append_lf hbody,
        Text.rawLines_append_lf hbody, fragmentsOf, fragmentsOf, ih ht]

end Lines

section Between

variable {front body rest : Text}

/-- A line that ends in a line feed is its fragment and a line terminator. -/
theorem Text.exists_lineTerminator (body : Text) :
    ∃ terminator ∈ lineTerminators,
      body ++ ['\n'] = Text.stripTerminator (body ++ ['\n']) ++ terminator := by
  rw [stripTerminator_append_lf]
  rcases body.eq_stripLast_or '\r' with hbody | hbody
  · exact ⟨['\n'], by simp [lineTerminators], by rw [← hbody]⟩
  · refine ⟨['\r', '\n'], by simp [lineTerminators], ?_⟩
    conv_lhs => rw [hbody]
    simp

/-- A line without a line feed can only lose a carriage return. -/
theorem Text.exists_behind_of_not_mem (hbody : '\n' ∉ body) :
    ∃ behind ∈ [] :: ['\r'] :: lineTerminators, body = Text.stripTerminator body ++ behind := by
  rw [stripTerminator_of_not_mem hbody]
  rcases body.eq_stripLast_or '\r' with h | h
  · exact ⟨[], by simp, by rwa [List.append_nil]⟩
  · exact ⟨['\r'], by simp, h⟩

/-- What stands in a text between the fragment of a line and the end of the line. -/
theorem Text.slice?_behind {line terminator : Text}
    (hline : line = line.stripTerminator ++ terminator) (front rest : Text) :
    Text.slice? (front ++ (line ++ rest)) (⟨line.stripTerminator, front.byteSize⟩ : Fragment).stop
      (front ++ line).byteSize = some terminator := by
  rw [slice?_eq_some_iff]
  refine ⟨front ++ line.stripTerminator, rest, ?_, ?_, ?_⟩
  · rw [List.append_assoc front, ← hline, List.append_assoc]
  · rw [byteSize_append, Fragment.stop]
  · rw [Fragment.stop, Nat.add_assoc, ← byteSize_append, ← hline, byteSize_append]

/-- Any two fragments that follow each other have a line terminator between them. -/
theorem fragmentsOf_isChain (front t : Text) :
    (fragmentsOf front.byteSize t.rawLines).IsChain fun f g =>
      ∃ terminator ∈ lineTerminators, (front ++ t).slice? f.stop g.start = some terminator := by
  induction t using Text.lines_induction generalizing front with
  | nil => exact List.isChain_nil
  | last body hne hbody =>
      rw [Text.rawLines_of_not_mem hne hbody]
      exact List.isChain_singleton _
  | line body rest hbody ih =>
      obtain ⟨terminator, hmem, hline⟩ := Text.exists_lineTerminator body
      have hrest := ih (front ++ (body ++ ['\n']))
      rw [List.append_assoc, Text.byteSize_append] at hrest
      rw [Text.rawLines_append_lf hbody, fragmentsOf, List.append_cons]
      refine hrest.cons ?_
      intro g hg
      refine ⟨terminator, hmem, ?_⟩
      rw [start_of_mem_head?_fragmentsOf hg, ← Text.byteSize_append]
      exact Text.slice?_behind hline front rest

/-- Behind the last fragment there is a line terminator, or none when the text ends in the middle
of a line; a carriage return at its very end is no part of the line either. -/
theorem slice?_of_mem_getLast?_fragmentsOf (front t : Text) :
    ∀ f ∈ (fragmentsOf front.byteSize t.rawLines).getLast?,
      ∃ behind ∈ [] :: ['\r'] :: lineTerminators,
        (front ++ t).slice? f.stop (front ++ t).byteSize = some behind := by
  induction t using Text.lines_induction generalizing front with
  | nil => simp [Text.rawLines, fragmentsOf]
  | last body hne hbody =>
      intro f hf
      rw [Text.rawLines_of_not_mem hne hbody, fragmentsOf, fragmentsOf, List.getLast?_singleton,
        Option.mem_some_iff] at hf
      obtain ⟨behind, hmem, hline⟩ := Text.exists_behind_of_not_mem hbody
      have hslice := Text.slice?_behind hline front []
      rw [List.append_nil] at hslice
      exact ⟨behind, hmem, hf ▸ hslice⟩
  | line body rest hbody ih =>
      intro f hf
      rw [Text.rawLines_append_lf hbody, fragmentsOf, ← Text.byteSize_append] at hf
      rw [List.append_cons, ← List.append_assoc]
      by_cases hnil : rest = []
      · subst hnil
        obtain ⟨terminator, hmem, hline⟩ := Text.exists_lineTerminator body
        have hslice := Text.slice?_behind hline front []
        rw [Text.rawLines, fragmentsOf, List.getLast?_singleton, Option.mem_some_iff] at hf
        rw [List.append_nil] at hslice ⊢
        exact ⟨terminator, by simp [hmem], hf ▸ hslice⟩
      · apply ih (front ++ (body ++ ['\n']))
        rw [List.getLast?_cons_of_ne_nil] at hf
        · exact hf
        · exact fragmentsOf_ne_nil (Text.rawLines_ne_nil hnil)

end Between

namespace Document

variable {d : Document}

/-- A fragment that lies in a document is the window over its own range. -/
theorem window_of_liesIn {f : Fragment} (hf : f.LiesIn d.text) :
    d.window f.start f.stop = .ok f := by
  obtain ⟨text, start⟩ := f
  obtain ⟨front, back, hsplit, rfl⟩ := hf
  exact window_of_append hsplit

end Document

/-- The lines of a document tile it.  Their number is that of the line feeds, with one more for
a text that goes on behind the last of them; the first starts at the start; none has a line feed
in it, and each is what the window over its own range gives, so that the windows, one after the
other, have the spans of the document.  A line terminator and nothing else stands between two
lines; behind the last one there is at most a line terminator or a carriage return.  To end the
last line changes no line. -/
theorem Document.lines_tile (d : Document) :
    d.lines.length = d.text.count '\n' + (if d.text.EndsLine then 0 else 1) ∧
      (∀ f ∈ d.lines.head?, f.start = 0) ∧
      (∀ f ∈ d.lines, '\n' ∉ f.text ∧ d.window f.start f.stop = .ok f) ∧
      (d.lines.mapM fun f => d.classifyWindow f.start f.stop).map List.flatten =
        .ok d.classify ∧
      (d.lines.IsChain fun f g =>
        ∃ terminator ∈ lineTerminators, d.text.slice? f.stop g.start = some terminator) ∧
      (∀ f ∈ d.lines.getLast?, ∃ behind ∈ [] :: ['\r'] :: lineTerminators,
        d.text.slice? f.stop d.size = some behind) ∧
      (¬ d.text.EndsLine → (ofText (d.text ++ ['\n'])).lines = d.lines) := by
  have hwindow : ∀ f ∈ d.lines, d.window f.start f.stop = .ok f :=
    fun f hf => window_of_liesIn (liesIn_of_mem_lines hf).1
  refine ⟨?_, fun f hf => start_of_mem_head?_fragmentsOf hf, ?_, ?_, fragmentsOf_isChain [] d.text,
    slice?_of_mem_getLast?_fragmentsOf [] d.text, fun hends => fragmentsOf_append_lf hends 0⟩
  · rw [lines, Text.lineFragments, length_fragmentsOf, Text.length_rawLines]
  · intro f hf
    exact ⟨(liesIn_of_mem_lines hf).2, hwindow f hf⟩
  · have hclassify : ∀ f ∈ d.lines, d.classifyWindow f.start f.stop = .ok f.classify := by
      intro f hf
      rw [classifyWindow, hwindow f hf]
      rfl
    rw [mapM_eq_pure hclassify]
    rfl

/-- Every kind of line end, with a repeated carriage return, and an unended last line. -/
theorem Document.lines_tile_carriage_returns :
    let d := ofText "\r\r\né\r\n\n1\r".toList
    ¬ d.text.EndsLine ∧ d.lines = [⟨['\r'], 0⟩, ⟨['é'], 3⟩, ⟨[], 7⟩, ⟨['1'], 8⟩] ∧
      d.lines.length = 3 + 1 ∧ (ofText (d.text ++ ['\n'])).lines = d.lines ∧
      d.window 8 9 = .ok ⟨['1'], 8⟩ ∧
      ∃ behind ∈ [] :: ['\r'] :: lineTerminators, d.text.slice? 9 10 = some behind := by
  intro d
  have hends : ¬ d.text.EndsLine := by decide
  have hlines : d.lines = [⟨['\r'], 0⟩, ⟨['é'], 3⟩, ⟨[], 7⟩, ⟨['1'], 8⟩] := by decide
  obtain ⟨hlength, -, hwindow, -, -, hlast, hended⟩ := d.lines_tile
  refine ⟨hends, hlines, hlength, hended hends, ?_, ?_⟩
  · exact (hwindow ⟨['1'], 8⟩ (by rw [hlines]; simp)).2
  · exact hlast ⟨['1'], 8⟩ (by rw [hlines]; rfl)

end BmakeHighlight
