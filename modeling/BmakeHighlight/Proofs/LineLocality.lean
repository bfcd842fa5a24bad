/-
Passes that keep to lines.  A matcher stops at a character when none of its
matches holds it or depends on what comes behind it, and the character is no part
of a word.  A scan then begins anew behind each such character.  Keywords,
operators, string literals and numbers stop at line feeds and carriage returns:
searching a text for them is searching its lines one by one.
-/
import Mathlib.Data.List.Find
import Mathlib.Data.List.TakeWhile
import BmakeHighlight.Proofs.PatternSoundness
import BmakeHighlight.Proofs.LinePartition

namespace BmakeHighlight

section Lists

variable {α : Type} {p : α → Bool} {a : α}

theorem takeWhile_append_cons_of_neg (ha : p a = false) (l l' : List α) :
    (l ++ a :: l').takeWhile p = l.takeWhile p := by
  induction l with
  | nil => simp [ha]
  | cons b l ih => by_cases hb : p b = true <;> simp [hb, ih]

theorem dropWhile_append_cons_of_neg (ha : p a = false) (l l' : List α) :
    (l ++ a :: l').dropWhile p = l.dropWhile p ++ a :: l' := by
  induction l with
  | nil => simp [ha]
  | cons b l ih => by_cases hb : p b = true <;> simp [hb, ih]

end Lists

namespace Matcher

variable {m : Matcher}

/-- With this text behind another one the matcher matches at the same places as without. -/
def Ignores (m : Matcher) (tail : Text) : Prop :=
  ∀ (before : Option Char) (s : Text), m before (s ++ tail) = m before s

theorem Sound.eq_none_of_nil (hm : m.Sound) (before : Option Char) : m before [] = none := by
  rw [Option.eq_none_iff_forall_ne_some]
  intro pieces hmatch
  have hread := hm hmatch
  obtain ⟨rest, hrest⟩ := hread.front
  exact hread.matchedText_ne_nil (List.append_eq_nil_iff.1 hrest.symm).1

/-- A scan finds in front of an ignored text what it finds without it. -/
theorem scan_append_of_ignores (hm : m.Sound) {tail : Text} (h : m.Ignores tail)
    (offset : Nat) (before : Option Char) (s : Text) :
    m.scan offset before 0 (s ++ tail) =
      m.scan offset before 0 s ++
        m.scan (offset + Text.byteSize s) (s.getLast?.or before) 0 tail := by
  apply scan_induction hm (motive := fun offset before s spans =>
    m.scan offset before 0 (s ++ tail) =
      spans ++ m.scan (offset + Text.byteSize s) (s.getLast?.or before) 0 tail)
  · intro offset before
    rfl
  · intro offset before c t hmiss ih
    have hmiss' : m before (c :: (t ++ tail)) = none := by
      rw [← List.cons_append, h, hmiss]
    rw [List.cons_append, scan_of_none hmiss', ih, Text.byteSize_cons, Nat.add_assoc,
      getLast?_cons_or]
  · intro offset before pieces rest spans hmatch ih
    have hmatch' : m before (matchedText pieces ++ (rest ++ tail)) = some pieces := by
      rw [← List.append_assoc, h, hmatch]
    rw [List.append_assoc, scan_of_some hm hmatch', ih, Text.byteSize_append, Nat.add_assoc,
      List.getLast?_append, Option.or_assoc, List.append_assoc]

/-- One ignored character behind a text does not show. -/
theorem scan_append_singleton (hm : m.Sound) {c : Char} (h : m.Ignores [c]) (offset : Nat)
    (before : Option Char) (s : Text) :
    m.scan offset before 0 (s ++ [c]) = m.scan offset before 0 s := by
  have hmiss : ∀ before, m before [c] = none := by
    intro before
    rw [← List.nil_append [c], h, hm.eq_none_of_nil]
  rw [scan_append_of_ignores hm h, scan_of_none (hmiss _), scan, List.append_nil]

/-- Matches neither hold the character nor look past it, and a match may begin right behind it
as it may at the start of a text. -/
structure StopsAt (m : Matcher) (c : Char) : Prop where
  ignores : ∀ rest, m.Ignores (c :: rest)
  resets : ∀ t, m (some c) t = m none t

/-- Behind a character that the matcher stops at the scan begins anew. -/
theorem StopsAt.scan_append (hm : m.Sound) {c : Char} (h : m.StopsAt c) (offset : Nat)
    (before : Option Char) (s rest : Text) :
    m.scan offset before 0 (s ++ c :: rest) =
      m.scan offset before 0 s ++
        m.scan (offset + Text.byteSize (s ++ [c])) none 0 rest := by
  have hmiss : ∀ before, m before (c :: rest) = none := by
    intro before
    rw [← List.nil_append (c :: rest), h.ignores, hm.eq_none_of_nil]
  have hreset : ∀ offset, m.scan offset (some c) 0 rest = m.scan offset none 0 rest := by
    intro offset
    cases rest with
    | nil => rfl
    | cons d rest => rw [scan, scan, h.resets]
  rw [scan_append_of_ignores hm (h.ignores rest), scan_of_none (hmiss _), hreset,
    Text.byteSize_append, ← Nat.add_assoc]
  rfl

end Matcher

/-- The characters that line terminators consist of. -/
def lineEnds : List Char :=
  ['\n', '\r']

theorem forall_mem_lineEnds {P : Char → Prop} : (∀ c ∈ lineEnds, P c) ↔ P '\n' ∧ P '\r' := by
  simp [lineEnds]

section Patterns

variable {c : Char} {s : Text}

theorem startsWithWordChar_append_cons (hc : isWordChar c = false) (s rest : Text) :
    startsWithWordChar (s ++ c :: rest) = startsWithWordChar s := by
  cases s with
  | nil => simp [startsWithWordChar, hc]
  | cons d s => rfl

/-- What follows a word does not come from behind a character that is not in the word. -/
theorem Text.after?_append_cons {w : Text} (hc : c ∉ w) (s rest : Text) :
    Text.after? w (s ++ c :: rest) = (Text.after? w s).map (· ++ c :: rest) := by
  induction w generalizing s with
  | nil => rfl
  | cons a w ih =>
      simp only [List.mem_cons, not_or] at hc
      cases s with
      | nil =>
          rw [List.nil_append]
          exact if_neg (Ne.symm hc.1)
      | cons b s =>
          rw [List.cons_append, after?, after?, ih hc.2]
          split <;> rfl

theorem keywordHere_stopsAt (hc : c ∈ lineEnds) : keywordHere.StopsAt c := by
  have hspelling : ∀ c ∈ lineEnds, ∀ k ∈ Keyword.all, c ∉ k.spelling :=
    forall_mem_lineEnds.2 (by decide)
  have hword : ∀ c ∈ lineEnds, isWordChar c = false := forall_mem_lineEnds.2 (by decide)
  refine ⟨?_, fun _ => rfl⟩
  intro rest before s
  have hbegins : ∀ k ∈ Keyword.all, k.begins (s ++ c :: rest) = k.begins s := by
    intro k hk
    rw [Keyword.begins, Keyword.begins, Text.after?_append_cons (hspelling c hc k hk)]
    cases Text.after? k.spelling s with
    | none => rfl
    | some behind =>
        dsimp only [Option.map_some]
        rw [startsWithWordChar_append_cons (hword c hc)]
  rw [keywordHere, keywordHere, List.find?_congr hbegins]

theorem operatorHere_stopsAt (hc : c ∈ lineEnds) : operatorHere.StopsAt c := by
  have hspelling : ∀ c ∈ lineEnds, ∀ w ∈ operatorSpellings, c ∉ w :=
    forall_mem_lineEnds.2 (by decide)
  refine ⟨?_, fun _ => rfl⟩
  intro rest before s
  have hbegins : ∀ w ∈ operatorSpellings,
      (Text.after? w (s ++ c :: rest)).isSome = (Text.after? w s).isSome := by
    intro w hw
    rw [Text.after?_append_cons (hspelling c hc w hw), Option.isSome_map]
  rw [operatorHere, operatorHere, List.find?_congr hbegins]

/-- A literal that is still open at a line end is none. -/
theorem stringLiteralHere_stopsAt (hc : c ∈ lineEnds) : stringLiteralHere.StopsAt c := by
  have hstring : ∀ c ∈ lineEnds, isStringChar c = false := forall_mem_lineEnds.2 (by decide)
  have hquote : ∀ c ∈ lineEnds, c ≠ '"' := forall_mem_lineEnds.2 (by decide)
  refine ⟨?_, fun _ => rfl⟩
  intro rest before s
  cases s with
  | nil => simp [stringLiteralHere, hquote c hc]
  | cons d s =>
      by_cases hd : d = '"'
      · subst hd
        simp only [stringLiteralHere, List.cons_append,
          dropWhile_append_cons_of_neg (hstring c hc), takeWhile_append_cons_of_neg (hstring c hc)]
        cases s.dropWhile isStringChar with
        | nil => simp [hquote c hc]
        | cons e behind => by_cases he : e = '"' <;> simp [he]
      · simp [stringLiteralHere, hd]

theorem digitWord?_append_cons (hdigit : isDecimalDigit c = false) (hword : isWordChar c = false)
    (s rest : Text) : digitWord? (s ++ c :: rest) = digitWord? s := by
  rw [digitWord?, digitWord?, takeWhile_append_cons_of_neg hdigit,
    dropWhile_append_cons_of_neg hdigit, startsWithWordChar_append_cons hword]

theorem numberHere_stopsAt (hc : c ∈ lineEnds) : numberHere.StopsAt c := by
  have hword : ∀ c ∈ lineEnds, isWordChar c = false := forall_mem_lineEnds.2 (by decide)
  have hdigit : ∀ c ∈ lineEnds, isDecimalDigit c = false := forall_mem_lineEnds.2 (by decide)
  have hpoint : ∀ c ∈ lineEnds, c ≠ '.' := forall_mem_lineEnds.2 (by decide)
  constructor
  · intro rest before s
    rw [numberHere, numberHere, digitWord?_append_cons (hdigit c hc) (hword c hc),
      dropWhile_append_cons_of_neg (hdigit c hc)]
    cases s.dropWhile isDecimalDigit with
    | nil => simp [hpoint c hc]
    | cons d behind =>
        by_cases hd : d = '.'
        · subst hd
          simp only [List.cons_append, digitWord?_append_cons (hdigit c hc) (hword c hc)]
        · simp [hd]
  · intro t
    rw [numberHere, numberHere]
    simp [hword c hc]

end Patterns

/-- Does the pass search every line for itself? -/
def Pass.isLineLocal : Pass → Bool
  | .keyword | .operator | .stringLiteral | .number => true
  | .comment | .reference | .marker => false

namespace Pass

variable {p : Pass}

theorem stopsAt (hp : p.isLineLocal = true) {c : Char} (hc : c ∈ lineEnds) :
    p.matcher.StopsAt c := by
  cases p with
  | keyword => exact keywordHere_stopsAt hc
  | operator => exact operatorHere_stopsAt hc
  | stringLiteral => exact stringLiteralHere_stopsAt hc
  | number => exact numberHere_stopsAt hc
  | comment | reference | marker => exact absurd hp (by decide)

theorem spans_eq_scan (hp : p.isLineLocal = true) (f : Fragment) :
    p.spans f = p.matcher.scan f.start none 0 f.text := by
  have hfirst : p.onlyFirst = false := by
    cases p with
    | keyword | operator | stringLiteral | number => rfl
    | comment | reference | marker => exact absurd hp (by decide)
  rw [spans, hfirst]
  rfl

/-- A pass that ignores a character does not see it at the end of a fragment. -/
theorem spans_append_singleton {c : Char} (h : p.matcher.Ignores [c]) (s : Text) (start : Nat) :
    p.spans ⟨s ++ [c], start⟩ = p.spans ⟨s, start⟩ := by
  rw [spans, spans, Matcher.scan_append_singleton p.matcher_sound h]

theorem spans_stripLast (hp : p.isLineLocal = true) {c : Char} (hc : c ∈ lineEnds) (s : Text)
    (start : Nat) : p.spans ⟨s.stripLast c, start⟩ = p.spans ⟨s, start⟩ := by
  unfold Text.stripLast
  split
  · rename_i hlast
    obtain ⟨front, rfl⟩ := List.getLast?_eq_some_iff.1 hlast
    rw [List.dropLast_concat, spans_append_singleton ((stopsAt hp hc).ignores [])]
  · rfl

/-- Searching a text is searching its lines. -/
theorem spans_eq_flatMap_lines (hp : p.isLineLocal = true) (offset : Nat) (t : Text) :
    p.spans ⟨t, offset⟩ = (fragmentsOf offset t.rawLines).flatMap p.spans := by
  have hlf : '\n' ∈ lineEnds := by decide
  have hcr : '\r' ∈ lineEnds := by decide
  induction t using Text.lines_induction generalizing offset with
  | nil => rw [spans_eq_scan hp]; rfl
  | last body hne hbody =>
      rw [Text.rawLines_of_not_mem hne hbody, fragmentsOf, fragmentsOf, List.flatMap_singleton,
        Text.stripTerminator_of_not_mem hbody, spans_stripLast hp hcr]
  | line body rest hbody ih =>
      rw [Text.rawLines_append_lf hbody, fragmentsOf, List.flatMap_cons,
        Text.stripTerminator_append_lf, spans_stripLast hp hcr, ← ih, spans_eq_scan hp,
        spans_eq_scan hp, spans_eq_scan hp, (stopsAt hp hlf).scan_append p.matcher_sound]

end Pass

end BmakeHighlight
