/-
The seven patterns are sound: what each of them matches is read off the text,
and its pieces have the categories of its pass.  For every pattern one lemma
says what a match looks like; nothing else here opens the pattern.
-/
import Mathlib.Data.List.TakeWhile
import BmakeHighlight.Pass
import BmakeHighlight.Proofs.Matching

namespace BmakeHighlight

variable {before : Option Char} {t : Text} {pieces : List Piece}

/-- A comment is white space, a number sign and everything up to the end of the line. -/
theorem commentHere_eq_some (h : commentHere before t = some pieces) :
    ∃ blanks body rest, t = blanks ++ '#' :: (body ++ rest) ∧
      (∀ c ∈ blanks, isLineBlank c = true) ∧ body ≠ [] ∧ '\n' ∉ body ∧
      pieces = [⟨.comment, blanks ++ '#' :: body⟩] := by
  unfold commentHere at h
  have hsplit : t.takeWhile isLineBlank ++ t.dropWhile isLineBlank = t :=
    List.takeWhile_append_dropWhile
  split at h
  · rename_i rest hrest
    rw [hrest] at hsplit
    have hline : rest.takeWhile (· != '\n') ++ rest.dropWhile (· != '\n') = rest :=
      List.takeWhile_append_dropWhile
    split at h
    · simp at h
    · rename_i body hbody
      have hpieces := Option.some.inj h
      refine ⟨t.takeWhile isLineBlank, rest.takeWhile (· != '\n'),
        rest.dropWhile (· != '\n'), ?_, ?_, hbody, ?_, hpieces.symm⟩
      · rw [hline, hsplit]
      · intro c hc
        exact List.mem_takeWhile_imp hc
      · intro hmem
        simpa using List.mem_takeWhile_imp hmem
  · simp at h

/-- A keyword is one of the table that the text begins with. -/
theorem keywordHere_eq_some (h : keywordHere before t = some pieces) :
    ∃ k ∈ Keyword.all, ∃ rest, t = k.spelling ++ rest ∧
      (k.closed = true → startsWithWordChar rest = false) ∧
      pieces = [⟨.keyword, k.spelling⟩] := by
  obtain ⟨k, hfind, hpieces⟩ := Option.map_eq_some_iff.1 h
  have hbegins := List.find?_some hfind
  rw [Keyword.begins] at hbegins
  split at hbegins
  · rename_i rest hafter
    refine ⟨k, List.mem_of_find?_eq_some hfind, rest, Text.after?_eq_some_iff.1 hafter,
      ?_, hpieces.symm⟩
    intro hclosed
    simpa [hclosed] using hbegins
  · simp at hbegins

/-- A reference is an opener, a value without closers, which has a piece only when it is
not empty, and a closer. -/
theorem referenceHere_eq_some (h : referenceHere before t = some pieces) :
    ∃ opener value closer rest, t = '$' :: opener :: (value ++ closer :: rest) ∧
      isOpener opener = true ∧ (∀ c ∈ value, isCloser c = false) ∧
      isCloser closer = true ∧
      pieces = ⟨.referenceDelimiter, ['$', opener]⟩ ::
        ((if value = [] then [] else [⟨.referenceValue, value⟩]) ++
          [⟨.referenceDelimiter, [closer]⟩]) := by
  unfold referenceHere at h
  split at h
  · rename_i opener rest
    split at h
    · rename_i hopener
      have hsplit : rest.takeWhile (!isCloser ·) ++ rest.dropWhile (!isCloser ·) = rest :=
        List.takeWhile_append_dropWhile
      split at h
      · rename_i closer behind hbehind
        refine ⟨opener, rest.takeWhile (!isCloser ·), closer, behind, ?_, hopener, ?_, ?_, ?_⟩
        · rw [← hbehind, hsplit]
        · intro c hc
          simpa using List.mem_takeWhile_imp hc
        · have hhead := List.head?_dropWhile_not (!isCloser ·) rest
          rw [hbehind] at hhead
          simpa using hhead
        · rw [← Option.some.inj h]
          cases rest.takeWhile (!isCloser ·) <;> simp
      · simp at h
    · simp at h
  · simp at h

theorem markerHere_eq_some (h : markerHere before t = some pieces) :
    ∃ rest, t = '@' :: rest ∧ pieces = [⟨.preprocessorMarker, ['@']⟩] := by
  unfold markerHere at h
  split at h
  · rename_i rest
    exact ⟨rest, rfl, (Option.some.inj h).symm⟩
  · simp at h

/-- An operator is one of the table that the text begins with. -/
theorem operatorHere_eq_some (h : operatorHere before t = some pieces) :
    ∃ w ∈ operatorSpellings, ∃ rest, t = w ++ rest ∧ pieces = [⟨.operator, w⟩] := by
  obtain ⟨w, hfind, hpieces⟩ := Option.map_eq_some_iff.1 h
  have hbegins := List.find?_some hfind
  obtain ⟨rest, hafter⟩ := Option.isSome_iff_exists.1 hbegins
  exact ⟨w, List.mem_of_find?_eq_some hfind, rest, Text.after?_eq_some_iff.1 hafter,
    hpieces.symm⟩

/-- A string literal is two quotes with neither quotes nor line ends between them. -/
theorem stringLiteralHere_eq_some (h : stringLiteralHere before t = some pieces) :
    ∃ body rest, t = '"' :: (body ++ '"' :: rest) ∧
      (∀ c ∈ body, isStringChar c = true) ∧
      pieces = [⟨.stringLiteral, '"' :: (body ++ ['"'])⟩] := by
  unfold stringLiteralHere at h
  split at h
  · rename_i rest
    have hsplit : rest.takeWhile isStringChar ++ rest.dropWhile isStringChar = rest :=
      List.takeWhile_append_dropWhile
    split at h
    · rename_i behind hbehind
      refine ⟨rest.takeWhile isStringChar, behind, ?_, ?_, (Option.some.inj h).symm⟩
      · rw [← hbehind, hsplit]
      · intro c hc
        exact List.mem_takeWhile_imp hc
    · simp at h
  · simp at h

/-- The digits of a digit word, and what stands behind them. -/
theorem digitWord?_eq_some {digits : Text} (h : digitWord? t = some digits) :
    t = digits ++ t.dropWhile isDecimalDigit ∧ digits ≠ [] ∧
      (∀ c ∈ digits, isDecimalDigit c = true) ∧
      startsWithWordChar (t.dropWhile isDecimalDigit) = false := by
  unfold digitWord? at h
  split at h
  · simp at h
  · rename_i hne
    split at h
    · simp at h
    · rename_i hword
      have hdigits := Option.some.inj h
      refine ⟨?_, ?_, ?_, by simpa using hword⟩
      · rw [← hdigits, List.takeWhile_append_dropWhile]
      · rwa [← hdigits]
      · intro c hc
        rw [← hdigits] at hc
        exact List.mem_takeWhile_imp hc

/-- A number is a digit word that no word character precedes, with a point and a second digit
word if these follow. -/
theorem numberHere_eq_some (h : numberHere before t = some pieces) :
    before.any isWordChar = false ∧ ∃ digits, digitWord? t = some digits ∧
      ((pieces = [⟨.number, digits⟩] ∧
          ∀ rest, t.dropWhile isDecimalDigit = '.' :: rest → digitWord? rest = none) ∨
        ∃ rest fraction, t.dropWhile isDecimalDigit = '.' :: rest ∧
          digitWord? rest = some fraction ∧
          pieces = [⟨.number, digits ++ '.' :: fraction⟩]) := by
  unfold numberHere at h
  split at h
  · simp at h
  · rename_i hbefore
    obtain ⟨digits, hdigits, hpieces⟩ := Option.map_eq_some_iff.1 h
    refine ⟨by simpa using hbefore, digits, hdigits, ?_⟩
    split at hpieces
    · rename_i rest hrest
      split at hpieces
      · rename_i fraction hfraction
        exact .inr ⟨rest, fraction, hrest, hfraction, hpieces.symm⟩
      · rename_i hfraction
        refine .inl ⟨hpieces.symm, fun rest' hrest' => ?_⟩
        rw [hrest, List.cons.injEq] at hrest'
        rw [← hrest'.2, hfraction]
    · rename_i hpoint
      exact .inl ⟨hpieces.symm, fun rest hrest => absurd hrest (hpoint rest)⟩

theorem commentHere_sound : commentHere.Sound := by
  intro before t pieces h
  obtain ⟨blanks, body, rest, rfl, -, -, -, rfl⟩ := commentHere_eq_some h
  have hread : blanks ++ '#' :: (body ++ rest) = (blanks ++ '#' :: body) ++ rest := by simp
  rw [hread]
  exact ReadOff.single (by simp)

theorem Keyword.spelling_ne_nil {k : Keyword} (hk : k ∈ Keyword.all) : k.spelling ≠ [] := by
  have hspelling : ∀ k ∈ Keyword.all, k.spelling ≠ [] := by decide
  exact hspelling k hk

theorem keywordHere_sound : keywordHere.Sound := by
  intro before t pieces h
  obtain ⟨k, hk, rest, rfl, -, rfl⟩ := keywordHere_eq_some h
  exact ReadOff.single (Keyword.spelling_ne_nil hk)

theorem referenceHere_sound : referenceHere.Sound := by
  intro before t pieces h
  obtain ⟨opener, value, closer, rest, rfl, -, -, -, rfl⟩ := referenceHere_eq_some h
  refine ⟨by simp, ?_, rest, ?_⟩
  · intro p hp
    by_cases hvalue : value = []
    · simp only [hvalue, if_true, List.nil_append, List.mem_cons, List.not_mem_nil,
        or_false] at hp
      rcases hp with rfl | rfl <;> simp
    · simp only [hvalue, if_false, List.cons_append, List.nil_append, List.mem_cons,
        List.not_mem_nil, or_false] at hp
      rcases hp with rfl | rfl | rfl
      · simp
      · exact hvalue
      · simp
  · by_cases hvalue : value = [] <;> simp [hvalue, matchedText]

theorem markerHere_sound : markerHere.Sound := by
  intro before t pieces h
  obtain ⟨rest, rfl, rfl⟩ := markerHere_eq_some h
  exact ReadOff.single (List.cons_ne_nil '@' [])

theorem ne_nil_of_mem_operatorSpellings {w : Text} (hw : w ∈ operatorSpellings) : w ≠ [] := by
  have hspelling : ∀ w ∈ operatorSpellings, w ≠ [] := by decide
  exact hspelling w hw

theorem operatorHere_sound : operatorHere.Sound := by
  intro before t pieces h
  obtain ⟨w, hw, rest, rfl, rfl⟩ := operatorHere_eq_some h
  exact ReadOff.single (ne_nil_of_mem_operatorSpellings hw)

theorem stringLiteralHere_sound : stringLiteralHere.Sound := by
  intro before t pieces h
  obtain ⟨body, rest, rfl, -, rfl⟩ := stringLiteralHere_eq_some h
  have hread : '"' :: (body ++ '"' :: rest) = ('"' :: (body ++ ['"'])) ++ rest := by simp
  rw [hread]
  exact ReadOff.single (by simp)

theorem numberHere_sound : numberHere.Sound := by
  intro before t pieces h
  obtain ⟨-, digits, hdigits, hpieces⟩ := numberHere_eq_some h
  obtain ⟨hsplit, hne, -, -⟩ := digitWord?_eq_some hdigits
  rcases hpieces with ⟨rfl, -⟩ | ⟨rest, fraction, hrest, hfraction, rfl⟩
  · rw [hsplit]
    exact ReadOff.single hne
  · obtain ⟨hfractionSplit, -, -, -⟩ := digitWord?_eq_some hfraction
    have hread : t = (digits ++ '.' :: fraction) ++ rest.dropWhile isDecimalDigit := by
      rw [List.append_assoc, List.cons_append, ← hfractionSplit, ← hrest]
      exact hsplit
    rw [hread]
    exact ReadOff.single (by simp)

theorem Pass.matcher_sound (p : Pass) : p.matcher.Sound := by
  cases p
  · exact commentHere_sound
  · exact keywordHere_sound
  · exact referenceHere_sound
  · exact markerHere_sound
  · exact operatorHere_sound
  · exact stringLiteralHere_sound
  · exact numberHere_sound

/-- The pass that spans of a category come from. -/
def Category.pass : Category → Pass
  | .comment => .comment
  | .keyword => .keyword
  | .referenceDelimiter | .referenceValue => .reference
  | .preprocessorMarker => .marker
  | .operator => .operator
  | .stringLiteral => .stringLiteral
  | .number => .number

/-- Every piece that a pass matches has a category of that pass. -/
theorem Pass.category_pass {p : Pass} (h : p.matcher before t = some pieces) :
    ∀ piece ∈ pieces, piece.category.pass = p := by
  cases p with
  | comment =>
      obtain ⟨_, _, _, -, -, -, -, rfl⟩ := @commentHere_eq_some before _ _ h
      simp [Category.pass]
  | keyword =>
      obtain ⟨_, -, _, -, -, rfl⟩ := @keywordHere_eq_some before _ _ h
      simp [Category.pass]
  | reference =>
      obtain ⟨_, value, _, _, -, -, -, -, rfl⟩ := @referenceHere_eq_some before _ _ h
      by_cases hvalue : value = [] <;> simp [hvalue, Category.pass]
  | marker =>
      obtain ⟨_, -, rfl⟩ := @markerHere_eq_some before _ _ h
      simp [Category.pass]
  | operator =>
      obtain ⟨_, -, _, -, rfl⟩ := @operatorHere_eq_some before _ _ h
      simp [Category.pass]
  | stringLiteral =>
      obtain ⟨_, _, -, -, rfl⟩ := @stringLiteralHere_eq_some before _ _ h
      simp [Category.pass]
  | number =>
      obtain ⟨-, _, -, ⟨rfl, -⟩ | ⟨_, _, -, -, rfl⟩⟩ := numberHere_eq_some h <;>
        simp [Category.pass]

/-- The spans of a pass are cut from the fragment. -/
theorem Pass.spans_cutFrom (p : Pass) (f : Fragment) :
    CutFrom f.start f.text (p.spans f) := by
  have hscan := Matcher.scan_cutFrom p.matcher_sound f.start none f.text
  rw [Pass.spans]
  split
  · exact hscan.sublist (List.take_sublist 1 _)
  · exact hscan

theorem Pass.mem_scan_of_mem_spans {p : Pass} {f : Fragment} {s : Span} (hs : s ∈ p.spans f) :
    s ∈ p.matcher.scan f.start none 0 f.text := by
  rw [Pass.spans] at hs
  split at hs
  · exact List.mem_of_mem_take hs
  · exact hs

/-- The spans of a pass have its categories. -/
theorem Pass.pass_of_mem_spans {p : Pass} {f : Fragment} {s : Span}
    (hs : s ∈ p.spans f) : s.category.pass = p :=
  Matcher.forall_mem_scan p.matcher_sound (P := fun k => k.pass = p)
    (fun _ _ _ h => p.category_pass h) f.start none f.text s (mem_scan_of_mem_spans hs)

/-- A pass that keeps its first match only finds one span at most. -/
theorem Pass.length_spans_le_one {p : Pass} (hp : p.onlyFirst = true) (f : Fragment) :
    (p.spans f).length ≤ 1 := by
  rw [Pass.spans]
  rw [if_pos hp]
  exact List.length_take_le 1 _

end BmakeHighlight
