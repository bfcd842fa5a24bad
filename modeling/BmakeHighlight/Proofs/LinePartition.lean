/-
How the lines of a text lie in it.  A text is nothing, one line without a line
feed, or a line with its line feed and a further text; what is done line by line
is proved by induction over these three.
-/
import BmakeHighlight.Document
import BmakeHighlight.Proofs.Matching

namespace BmakeHighlight

theorem Text.rawLines_append_lf {body : Text} (hbody : '\n' ∉ body) (rest : Text) :
    Text.rawLines (body ++ '\n' :: rest) = (body ++ ['\n']) :: Text.rawLines rest := by
  induction body with
  | nil => simp [Text.rawLines]
  | cons c body ih =>
      simp only [List.mem_cons, not_or] at hbody
      rw [List.cons_append, Text.rawLines, if_neg (Ne.symm hbody.1), ih hbody.2]
      rfl

theorem Text.rawLines_of_not_mem {body : Text} (hne : body ≠ []) (hbody : '\n' ∉ body) :
    Text.rawLines body = [body] := by
  induction body with
  | nil => exact absurd rfl hne
  | cons c body ih =>
      simp only [List.mem_cons, not_or] at hbody
      rw [Text.rawLines, if_neg (Ne.symm hbody.1)]
      by_cases hnil : body = []
      · rw [hnil]
        rfl
      · rw [ih hnil hbody.2]

/-- A text by its lines. -/
theorem Text.lines_induction {motive : Text → Prop} (nil : motive [])
    (last : ∀ body, body ≠ [] → '\n' ∉ body → motive body)
    (line : ∀ body rest, '\n' ∉ body → motive rest → motive (body ++ '\n' :: rest))
    (t : Text) : motive t := by
  induction hlen : t.length using Nat.strongRecOn generalizing t with
  | ind n ih =>
      by_cases hlf : '\n' ∈ t
      · obtain ⟨body, rest, rfl, hbody⟩ := List.eq_append_cons_of_mem hlf
        refine line body rest hbody (ih rest.length ?_ rest rfl)
        rw [List.length_append, List.length_cons] at hlen
        omega
      · by_cases hnil : t = []
        · rw [hnil]
          exact nil
        · exact last t hnil hlf

/-- Complete lines, one behind the other, are the lines of the text that they make up. -/
theorem Text.rawLines_flatMap {α : Type} {row : α → Text} {l : List α}
    (h : ∀ a ∈ l, ∃ body, row a = body ++ ['\n'] ∧ '\n' ∉ body) :
    Text.rawLines (l.flatMap row) = l.map row := by
  induction l with
  | nil => rfl
  | cons a l ih =>
      rw [List.forall_mem_cons] at h
      obtain ⟨⟨body, hrow, hbody⟩, hrest⟩ := h
      rw [List.flatMap_cons, List.map_cons, ← ih hrest, hrow, List.append_assoc,
        List.singleton_append, rawLines_append_lf hbody]

/-- What succeeds for every line, or any member of a list, succeeds for all of them. -/
theorem mapM_eq_pure {m : Type → Type} [Monad m] [LawfulMonad m] {α β : Type} {g : α → m β}
    {h : α → β} {l : List α} (hl : ∀ a ∈ l, g a = pure (h a)) : l.mapM g = pure (l.map h) := by
  induction l with
  | nil => rfl
  | cons a l ih =>
      rw [List.forall_mem_cons] at hl
      rw [List.mapM_cons, hl.1, ih hl.2]
      simp

/-- Stripping takes at most the one character off the end. -/
theorem Text.eq_stripLast_or (c : Char) (t : Text) :
    t = Text.stripLast c t ∨ t = Text.stripLast c t ++ [c] := by
  unfold Text.stripLast
  split
  · rename_i hlast
    obtain ⟨front, rfl⟩ := List.getLast?_eq_some_iff.1 hlast
    right
    rw [List.dropLast_concat]
  · exact .inl rfl

theorem Text.exists_stripLast (c : Char) (t : Text) :
    ∃ stripped, t = Text.stripLast c t ++ stripped := by
  rcases t.eq_stripLast_or c with h | h
  · exact ⟨[], by rwa [List.append_nil]⟩
  · exact ⟨[c], h⟩

/-- The terminator of a line is the rest behind what the fragment has of it. -/
theorem Text.exists_terminator (line : Text) :
    ∃ terminator, line = line.stripTerminator ++ terminator := by
  obtain ⟨feed, hfeed⟩ := exists_stripLast '\n' line
  obtain ⟨carriage, hcarriage⟩ := exists_stripLast '\r' (stripLast '\n' line)
  refine ⟨carriage ++ feed, ?_⟩
  rw [stripTerminator, ← List.append_assoc, ← hcarriage, ← hfeed]

theorem Text.not_mem_stripLast {b c : Char} {t : Text} (h : b ∉ t) : b ∉ t.stripLast c := by
  obtain ⟨stripped, hstripped⟩ := Text.exists_stripLast c t
  intro hmem
  rw [hstripped] at h
  exact h (List.mem_append_left stripped hmem)

/-- The line feed at the end of a line always goes. -/
theorem Text.stripTerminator_append_lf (body : Text) :
    Text.stripTerminator (body ++ ['\n']) = Text.stripLast '\r' body := by
  simp [Text.stripTerminator, Text.stripLast]

theorem Text.stripTerminator_of_not_mem {body : Text} (hbody : '\n' ∉ body) :
    Text.stripTerminator body = Text.stripLast '\r' body := by
  have hlast : body.getLast? ≠ some '\n' := fun h => hbody (List.mem_of_getLast? h)
  have hlf : Text.stripLast '\n' body = body := if_neg hlast
  rw [Text.stripTerminator, hlf]

/-- A fragment that is the part of the text at its own offset. -/
def Fragment.LiesIn (t : Text) (f : Fragment) : Prop :=
  ∃ front back, t = front ++ f.text ++ back ∧ f.start = Text.byteSize front

/-- What holds of the text of every line in a text that starts at `offset`: it is the part
at the offset of its fragment, and there is no line feed in it. -/
theorem mem_fragmentsOf_rawLines {t : Text} {offset : Nat} {f : Fragment}
    (hf : f ∈ fragmentsOf offset t.rawLines) :
    '\n' ∉ f.text ∧ ∃ front back, t = front ++ f.text ++ back ∧
      f.start = offset + Text.byteSize front := by
  induction t using Text.lines_induction generalizing offset with
  | nil => simp [Text.rawLines, fragmentsOf] at hf
  | last body hne hbody =>
      rw [Text.rawLines_of_not_mem hne hbody, fragmentsOf, fragmentsOf,
        Text.stripTerminator_of_not_mem hbody, List.mem_singleton] at hf
      obtain ⟨stripped, hstripped⟩ := Text.exists_stripLast '\r' body
      rw [hf]
      exact ⟨Text.not_mem_stripLast hbody, [], stripped, by simpa using hstripped, rfl⟩
  | line body rest hbody ih =>
      rw [Text.rawLines_append_lf hbody, fragmentsOf,
        Text.stripTerminator_append_lf, List.mem_cons] at hf
      rcases hf with rfl | hf
      · obtain ⟨stripped, hstripped⟩ := Text.exists_stripLast '\r' body
        refine ⟨Text.not_mem_stripLast hbody, [], stripped ++ '\n' :: rest, ?_, rfl⟩
        dsimp only
        rw [List.nil_append, ← List.append_assoc, ← hstripped]
      · obtain ⟨hlf, front, back, hsplit, hstart⟩ := ih hf
        refine ⟨hlf, body ++ '\n' :: front, back, by simp [hsplit], ?_⟩
        rw [hstart, Text.byteSize_append, Text.byteSize_append, Text.byteSize_cons,
          Text.byteSize_cons, Text.byteSize_nil]
        omega

theorem Document.liesIn_of_mem_lines {d : Document} {line : Fragment}
    (hline : line ∈ d.lines) : line.LiesIn d.text ∧ '\n' ∉ line.text := by
  obtain ⟨hlf, front, back, hsplit, hstart⟩ := mem_fragmentsOf_rawLines hline
  exact ⟨⟨front, back, hsplit, by simpa using hstart⟩, hlf⟩

/-- A line has no line feed in it, or only the one that ends it. -/
theorem Text.lf_not_mem_or_exists_body {t line : Text} (hline : line ∈ t.rawLines) :
    '\n' ∉ line ∨ ∃ body, line = body ++ ['\n'] ∧ '\n' ∉ body := by
  induction t using Text.lines_induction with
  | nil => simp [Text.rawLines] at hline
  | last body hne hbody =>
      rw [Text.rawLines_of_not_mem hne hbody, List.mem_singleton] at hline
      exact .inl (hline ▸ hbody)
  | line body rest hbody ih =>
      rw [Text.rawLines_append_lf hbody, List.mem_cons] at hline
      rcases hline with rfl | hline
      · exact .inr ⟨body, rfl, hbody⟩
      · exact ih hline

/-- A line is complete when its only line feed is its last character. -/
theorem Text.exists_body_of_mem_rawLines {t line : Text} (hline : line ∈ t.rawLines)
    (hlast : line.getLast? = some '\n') : ∃ body, line = body ++ ['\n'] ∧ '\n' ∉ body :=
  (lf_not_mem_or_exists_body hline).resolve_left fun hlf => hlf (List.mem_of_getLast? hlast)

theorem exists_of_mem_zip_fragmentsOf {lines : List Text} {offset : Nat} {line : Text}
    {f : Fragment} (h : (line, f) ∈ lines.zip (fragmentsOf offset lines)) :
    ∃ front back, lines = front ++ line :: back ∧
      f = ⟨Text.stripTerminator line, offset + Text.byteSize front.flatten⟩ := by
  induction lines generalizing offset with
  | nil => simp at h
  | cons first lines ih =>
      rw [fragmentsOf, List.zip_cons_cons, List.mem_cons] at h
      rcases h with h | h
      · obtain ⟨rfl, rfl⟩ := Prod.mk.inj h
        exact ⟨[], lines, rfl, rfl⟩
      · obtain ⟨front, back, rfl, rfl⟩ := ih h
        refine ⟨first :: front, back, rfl, ?_⟩
        rw [List.flatten_cons, Text.byteSize_append, Nat.add_assoc]

/-- A line in its document, and the fragment of the line. -/
theorem Document.exists_of_mem_zip_lines {d : Document} {line : Text} {f : Fragment}
    (h : (line, f) ∈ d.text.rawLines.zip d.lines) :
    ∃ front back, d.text = front ++ line ++ back ∧
      f = ⟨Text.stripTerminator line, Text.byteSize front⟩ := by
  obtain ⟨front, back, hlines, hf⟩ := exists_of_mem_zip_fragmentsOf h
  refine ⟨front.flatten, back.flatten, ?_, by rw [hf, Nat.zero_add]⟩
  rw [← Text.flatten_rawLines d.text, hlines]
  simp

section Windows

variable {d : Document} {start stop offset : Nat} {part : Text} {f : Fragment}

theorem Document.window_of_slice? (h : d.text.slice? start stop = some part) :
    d.window start stop = .ok ⟨part, start⟩ := by
  have hle := (Text.slice?_isSome_iff.1 (Option.isSome_of_eq_some h)).1
  have hstop := Text.le_byteSize_of_slice?_eq_some h
  rw [window, dif_neg (by rw [size]; omega)]
  split
  · rename_i offset hoffset
    rw [(Text.slice?_isSome_iff_splitEnd? hle).1 (Option.isSome_of_eq_some h)] at hoffset
    cases hoffset
  · simp only [Text.slice, h, Option.get_some]

/-- Every part of a document is a window of it. -/
theorem Document.window_of_append {front back : Text} (h : d.text = front ++ part ++ back) :
    d.window (Text.byteSize front) (Text.byteSize front + Text.byteSize part) =
      .ok ⟨part, Text.byteSize front⟩ :=
  window_of_slice? (Text.slice?_eq_some_iff.2 ⟨front, back, h, rfl, rfl⟩)

/-- A window is the slice between its ends. -/
theorem Document.window_eq_ok_iff :
    d.window start stop = .ok f ↔ d.text.slice? start stop = some f.text ∧ f.start = start := by
  constructor
  · intro h
    rw [window] at h
    split at h
    · cases h
    · split at h
      · cases h
      · obtain rfl := Except.ok.inj h
        exact ⟨(Option.some_get _).symm, rfl⟩
  · rintro ⟨h, rfl⟩
    exact window_of_slice? h

/-- A window of a document is the part at its offset, and nothing but it. -/
theorem Document.window_eq_ok (h : d.window start stop = .ok f) :
    f.LiesIn d.text ∧ f.start = start ∧ f.stop = stop := by
  obtain ⟨hslice, rfl⟩ := window_eq_ok_iff.1 h
  obtain ⟨front, back, htext, hfront, hstop⟩ := Text.slice?_eq_some_iff.1 hslice
  exact ⟨⟨front, back, htext, hfront.symm⟩, rfl, hstop⟩

end Windows

/-- The lines follow each other, with a terminator behind all but the last. -/
theorem Document.lines_pairwise_stop_lt (d : Document) :
    d.lines.Pairwise fun a b => a.stop < b.start := by
  suffices h : ∀ (t : Text) (offset : Nat),
      (fragmentsOf offset t.rawLines).Pairwise fun a b => a.stop < b.start from h d.text 0
  intro t
  induction t using Text.lines_induction with
  | nil => simp [Text.rawLines, fragmentsOf]
  | last body hne hlf =>
      simp [Text.rawLines_of_not_mem hne hlf, fragmentsOf]
  | line body rest hlf ih =>
      intro offset
      rw [Text.rawLines_append_lf hlf, fragmentsOf, Text.stripTerminator_append_lf,
        List.pairwise_cons]
      refine ⟨?_, ih _⟩
      intro f hf
      obtain ⟨-, front, -, -, hstart⟩ := mem_fragmentsOf_rawLines hf
      obtain ⟨stripped, hstripped⟩ := Text.exists_stripLast '\r' body
      have hsize := congrArg Text.byteSize hstripped
      have hpos := Char.utf8Size_pos '\n'
      rw [Text.byteSize_append] at hsize
      rw [hstart, Fragment.stop, Text.byteSize_append, Text.byteSize_cons]
      dsimp only
      omega

/-- Spans that are cut from every line are, line by line, cut from the text. -/
theorem CutFrom.flatMap_lines {spansIn : Fragment → List Span}
    (h : ∀ f, CutFrom f.start f.text (spansIn f)) (offset : Nat) (t : Text) :
    CutFrom offset t ((fragmentsOf offset t.rawLines).flatMap spansIn) := by
  have hbody : ∀ (offset : Nat) (body : Text),
      CutFrom offset body (spansIn ⟨Text.stripLast '\r' body, offset⟩) := by
    intro offset body
    obtain ⟨stripped, hstripped⟩ := Text.exists_stripLast '\r' body
    have hcut := (h ⟨Text.stripLast '\r' body, offset⟩).extend stripped
    rwa [← hstripped] at hcut
  induction t using Text.lines_induction generalizing offset with
  | nil => exact CutFrom.done
  | last body hne hlf =>
      rw [Text.rawLines_of_not_mem hne hlf, fragmentsOf, fragmentsOf,
        Text.stripTerminator_of_not_mem hlf, List.flatMap_cons, List.flatMap_nil,
        List.append_nil]
      exact hbody offset body
  | line body rest hlf ih =>
      rw [Text.rawLines_append_lf hlf, fragmentsOf, Text.stripTerminator_append_lf,
        List.flatMap_cons, List.append_cons]
      exact ((hbody offset body).extend ['\n']).append (ih _)

end BmakeHighlight
