/-
The keywords of a fragment.  Wherever a keyword stands in the text, within words too, one is
found there: none begins within another one, and of those that stand at one place the first
in the table counts.  Only `%if` and `%if defined` ever stand at one place.
-/
import Mathlib.Data.List.Infix
import BmakeHighlight.Proofs.Placement

namespace BmakeHighlight

/-- Is there a word boundary between two parts of a text?  Then one of the characters next to
it is a word character and the other is not, or is missing. -/
def Text.WordBoundary (front back : Text) : Prop :=
  front.getLast?.any isWordChar ≠ startsWithWordChar back

namespace Keyword

/-- Does the keyword stand between `front` and what follows it in `back`?  A closed one has a
word boundary behind it. -/
def StandsAt (k : Keyword) (front back : Text) : Prop :=
  ∃ rest, back = k.spelling ++ rest ∧
    (k.closed = true → Text.WordBoundary (front ++ k.spelling) rest)

/-- Is the keyword the first in the table of those that stand there? -/
def StandsFirst (k : Keyword) (front back : Text) : Prop :=
  ∃ earlier later, Keyword.all = earlier ++ k :: later ∧ k.StandsAt front back ∧
    ∀ j ∈ earlier, ¬ j.StandsAt front back

/-- The keyword that begins a condition. -/
def plainIf : Keyword :=
  ⟨"%if".toList, true⟩

/-- The keyword that begins a condition on a definition. -/
def ifDefined : Keyword :=
  ⟨"%if defined".toList, true⟩

/-- The first keyword at its place. -/
def placed : Placement :=
  fun front word behind => ∃ k : Keyword, word = k.spelling ∧ k.StandsFirst front (word ++ behind)

variable {j k : Keyword} {front back u v rest : Text} {before : Option Char} {pieces : List Piece}

/-- The table: seven keywords that need a word boundary behind them, and three that do not. -/
theorem mem_all_iff :
    k ∈ Keyword.all ↔
      k.closed = true ∧ k.spelling ∈ ["%include", "%undef", "%if defined", "%if", "%elif", "%else",
        "%endif"].map String.toList ∨
      k.closed = false ∧ k.spelling ∈ ["%warn", "%error", "always"].map String.toList := by
  obtain ⟨spelling, closed⟩ := k
  cases closed <;> simp [Keyword.all]

theorem StandsFirst.mem_all (h : k.StandsFirst front back) : k ∈ Keyword.all := by
  obtain ⟨earlier, later, hall, -⟩ := h
  rw [hall]
  exact List.mem_append_right earlier List.mem_cons_self

theorem StandsFirst.standsAt (h : k.StandsFirst front back) : k.StandsAt front back := by
  obtain ⟨-, -, -, hstands, -⟩ := h
  exact hstands

theorem wordBoundary_spelling (hk : k ∈ Keyword.all) (hclosed : k.closed = true) :
    Text.WordBoundary (front ++ k.spelling) rest ↔ startsWithWordChar rest = false := by
  have hlast : ∀ k ∈ Keyword.all, k.closed = true →
      k.spelling.getLast?.any isWordChar = true := by decide
  have hany : (front ++ k.spelling).getLast?.any isWordChar = true := by
    obtain ⟨c, hc, hword⟩ := (Option.any_eq_true _ _).1 (hlast k hk hclosed)
    rw [List.getLast?_append, hc]
    exact hword
  rw [Text.WordBoundary, hany]
  cases startsWithWordChar rest <;> decide

theorem begins_iff (hk : k ∈ Keyword.all) (front : Text) :
    k.begins back = true ↔ k.StandsAt front back := by
  rw [begins]
  constructor
  · intro h
    split at h
    · rename_i rest hafter
      refine ⟨rest, Text.after?_eq_some_iff.1 hafter, fun hclosed => ?_⟩
      rw [wordBoundary_spelling hk hclosed]
      simpa [hclosed] using h
    · simp at h
  · rintro ⟨rest, rfl, hboundary⟩
    rw [Text.after?_eq_some_iff.2 rfl]
    cases hclosed : k.closed with
    | false => rfl
    | true =>
        have hword := (wordBoundary_spelling hk hclosed).1 (hboundary hclosed)
        simp [hword]

/-- The keyword that a search of the table comes to is the first one that stands there. -/
theorem find?_begins_eq_some_iff (front : Text) :
    Keyword.all.find? (·.begins back) = some k ↔ k.StandsFirst front back := by
  rw [List.find?_eq_some_iff_append]
  constructor
  · rintro ⟨hbegins, earlier, later, hall, hearlier⟩
    have hmem : ∀ j ∈ earlier, j ∈ Keyword.all := by
      intro j hj
      rw [hall]
      exact List.mem_append_left _ hj
    refine ⟨earlier, later, hall, (begins_iff ?_ front).1 hbegins, fun j hj => ?_⟩
    · rw [hall]
      exact List.mem_append_right earlier List.mem_cons_self
    · rw [← begins_iff (hmem j hj) front]
      simpa using hearlier j hj
  · intro h
    refine ⟨(begins_iff h.mem_all front).2 h.standsAt, ?_⟩
    obtain ⟨earlier, later, hall, -, hearlier⟩ := h
    refine ⟨earlier, later, hall, fun j hj => ?_⟩
    have hmem : j ∈ Keyword.all := by
      rw [hall]
      exact List.mem_append_left _ hj
    have hnot := hearlier j hj
    rw [← begins_iff hmem front] at hnot
    simpa using hnot

/-- At one place only one keyword is the first. -/
theorem StandsFirst.unique (h : j.StandsFirst front back) (h' : k.StandsFirst front back) :
    j = k := by
  rw [← find?_begins_eq_some_iff] at h h'
  exact Option.some.inj (h.symm.trans h')

/-- Where a keyword stands, one of them is the first. -/
theorem StandsAt.exists_first (hk : k ∈ Keyword.all) (h : k.StandsAt front back) :
    ∃ j : Keyword, j.StandsFirst front back := by
  have hsome : (Keyword.all.find? (·.begins back)).isSome = true :=
    List.find?_isSome.2 ⟨k, hk, (begins_iff hk front).2 h⟩
  obtain ⟨j, hj⟩ := Option.isSome_iff_exists.1 hsome
  exact ⟨j, (find?_begins_eq_some_iff front).1 hj⟩

/-- No keyword begins within another one. -/
theorem not_standsAt_within (hj : j ∈ Keyword.all) (hk : k ∈ Keyword.all)
    (hsplit : k.spelling = u ++ v) (hu : u ≠ []) (hv : v ≠ []) :
    ¬ j.StandsAt front (v ++ rest) := by
  have hapart : ∀ j ∈ Keyword.all, ∀ k ∈ Keyword.all, ∀ v ∈ k.spelling.tail.tails, v ≠ [] →
      ¬ v <+: j.spelling ∧ ¬ j.spelling <+: v := by decide +kernel
  have htail : v ∈ k.spelling.tail.tails := by
    obtain ⟨c, u, rfl⟩ := List.exists_cons_of_ne_nil hu
    rw [hsplit, List.mem_tails]
    exact List.suffix_append u v
  obtain ⟨hbegins, hbegins'⟩ := hapart j hj k hk v htail hv
  rintro ⟨rest', hrest, -⟩
  rcases List.prefix_or_prefix_of_prefix ⟨rest, rfl⟩ ⟨rest', hrest.symm⟩ with h | h
  · exact hbegins h
  · exact hbegins' h

/-- Two keywords at one place are the two that begin a condition. -/
theorem eq_of_standsAt (hj : j ∈ Keyword.all) (hk : k ∈ Keyword.all)
    (h : j.StandsAt front back) (h' : k.StandsAt front back) :
    j = k ∨ (j = plainIf ∧ k = ifDefined) ∨ j = ifDefined ∧ k = plainIf := by
  have hall : ∀ j ∈ Keyword.all, ∀ k ∈ Keyword.all, j.spelling <+: k.spelling →
      j = k ∨ j = plainIf ∧ k = ifDefined := by decide +kernel
  obtain ⟨rest, rfl, -⟩ := h
  obtain ⟨rest', hrest, -⟩ := h'
  rcases List.prefix_or_prefix_of_prefix ⟨rest, rfl⟩ ⟨rest', hrest.symm⟩ with hle | hle
  · exact (hall j hj k hk hle).imp_right .inl
  · rcases hall k hk j hj hle with heq | ⟨hk, hj⟩
    · exact .inl heq.symm
    · exact .inr (.inr ⟨hj, hk⟩)

/-- A keyword comes first where it stands, but for `%if` where `%if defined` stands too. -/
theorem StandsAt.standsFirst (hk : k ∈ Keyword.all) (h : k.StandsAt front back)
    (hif : k ≠ plainIf ∨ ¬ ifDefined.StandsAt front back) : k.StandsFirst front back := by
  obtain ⟨j, hj⟩ := h.exists_first hk
  rcases eq_of_standsAt hj.mem_all hk hj.standsAt h with rfl | ⟨rfl, rfl⟩ | ⟨rfl, rfl⟩
  · exact hj
  · -- `%if` cannot come before `%if defined`, which stands in front of it in the table.
    obtain ⟨earlier, later, hall, -, hearlier⟩ := hj
    have horder : ∀ n < Keyword.all.length, Keyword.all[n]? = some plainIf →
        ifDefined ∈ Keyword.all.take n := by decide +kernel
    have hmem := horder earlier.length (by simp [hall]) (by simp [hall])
    rw [hall, List.take_left] at hmem
    exact absurd h (hearlier _ hmem)
  · rcases hif with hne | hnot
    · exact absurd rfl hne
    · exact absurd hj.standsAt hnot

/-- Of the table's order only this counts: `%if defined` is in front of `%if`. -/
theorem standsFirst_iff :
    k.StandsFirst front back ↔ k ∈ Keyword.all ∧ k.StandsAt front back ∧
      (k = plainIf → ¬ ifDefined.StandsAt front back) := by
  constructor
  · intro h
    refine ⟨h.mem_all, h.standsAt, ?_⟩
    rintro rfl hdefined
    have hfirst : ifDefined.StandsFirst front back :=
      hdefined.standsFirst (by decide) (.inl (by decide))
    exact absurd (h.unique hfirst) (by decide)
  · rintro ⟨hmem, hstands, hif⟩
    refine hstands.standsFirst hmem ?_
    by_cases hplain : k = plainIf
    · exact .inr (hif hplain)
    · exact .inl hplain

end Keyword

/-- The search for keywords finds those that come first at their places. -/
theorem keywordHere_marks : keywordHere.Marks .keyword Keyword.placed fun _ _ => True where
  sound := keywordHere_sound
  word_ne_nil := by
    rintro front word behind ⟨k, rfl, h⟩
    exact Keyword.spelling_ne_nil h.mem_all
  miss := by
    intro front c t _ hmiss
    refine ⟨trivial, ?_⟩
    rintro word behind hsplit ⟨k, rfl, h⟩
    rw [← hsplit, ← Keyword.find?_begins_eq_some_iff] at h
    rw [keywordHere, h] at hmiss
    exact absurd hmiss (by simp)
  hit := by
    intro front pieces rest _ hmatch
    obtain ⟨k, hfind, rfl⟩ := Option.map_eq_some_iff.1 hmatch
    have hmatched : matchedText [⟨.keyword, k.spelling⟩] = k.spelling := by simp [matchedText]
    rw [hmatched, Keyword.find?_begins_eq_some_iff front] at hfind
    refine ⟨k.spelling, rfl, trivial, fun before word => ⟨?_, ?_⟩⟩
    · rintro ⟨after, behind, hsplit, hafter, hrest, j, rfl, hj⟩
      rw [← hrest] at hj
      by_cases hbefore : before = []
      · subst hbefore
        rw [List.nil_append] at hsplit
        rw [List.append_nil, ← hsplit] at hj
        exact ⟨rfl, by rw [hj.unique hfind]⟩
      · exact absurd hj.standsAt
          (Keyword.not_standsAt_within hj.mem_all hfind.mem_all hsplit hbefore hafter)
    · rintro ⟨rfl, rfl⟩
      exact ⟨k.spelling, rest, rfl, Keyword.spelling_ne_nil hfind.mem_all, rfl, k, rfl,
        by rwa [List.append_nil]⟩

/-- The span of a keyword that stands behind `front` in the fragment. -/
def Fragment.keywordSpan (f : Fragment) (front : Text) (k : Keyword) : Span :=
  ⟨.keyword, f.start + Text.byteSize front, k.spelling.byteSize⟩

theorem Fragment.mem_filter_classify_keyword {f : Fragment} (hopens : f.opensWithComment = false)
    {s : Span} :
    s ∈ f.classify.filter (·.category == .keyword) ↔
      ∃ front back k, f.text = front ++ back ∧ Keyword.StandsFirst k front back ∧
        s = f.keywordSpan front k := by
  rw [mem_filter_classify_iff (k := .keyword) hopens keywordHere_marks rfl trivial]
  constructor
  · rintro ⟨front, word, behind, htext, ⟨k, rfl, h⟩, rfl⟩
    exact ⟨front, k.spelling ++ behind, k, htext, h, rfl⟩
  · rintro ⟨front, back, k, htext, h, rfl⟩
    obtain ⟨rest, rfl, -⟩ := h.standsAt
    exact ⟨front, k.spelling, rest, htext, ⟨k, rfl, h⟩, rfl⟩

/-- The keywords of a fragment that no comment opens.  They are in the order of the text, and there
is one for every place at which the first keyword of the table stands, with its length.  So where
any keyword stands there is just one, which is that keyword itself, but for `%if` where
`%if defined` stands. -/
theorem Fragment.classify_keywords {f : Fragment} (hopens : f.opensWithComment = false) :
    let keywords := f.classify.filter (·.category == .keyword)
    (keywords.Pairwise fun a b => a.start < b.start ∧ a.stop ≤ b.start) ∧
      (∀ s, s ∈ keywords ↔ ∃ front back k, f.text = front ++ back ∧
        Keyword.StandsFirst k front back ∧ s = f.keywordSpan front k) ∧
      ∀ front back, f.text = front ++ back → ∀ k ∈ Keyword.all, k.StandsAt front back →
        (∃! s, s ∈ keywords ∧ s.start = f.start + Text.byteSize front) ∧
        (k ≠ Keyword.plainIf ∨ ¬ Keyword.ifDefined.StandsAt front back →
          f.keywordSpan front k ∈ keywords) := by
  intro keywords
  have hordered : keywords.Pairwise fun a b => a.start < b.start ∧ a.stop ≤ b.start :=
    (f.filter_classify_cutFrom .keyword).pairwise_start_lt
  refine ⟨hordered, fun s => mem_filter_classify_keyword hopens, ?_⟩
  intro front back htext k hk hstands
  constructor
  · obtain ⟨j, hj⟩ := hstands.exists_first hk
    refine ⟨f.keywordSpan front j,
      ⟨(mem_filter_classify_keyword hopens).2 ⟨front, back, j, htext, hj, rfl⟩, rfl⟩, ?_⟩
    rintro s ⟨hs, hstart⟩
    by_contra hne
    have hstart' : (f.keywordSpan front j).start = f.start + Text.byteSize front := rfl
    have happart := apart_of_pairwise (hordered.imp And.left) hs
      ((mem_filter_classify_keyword hopens).2 ⟨front, back, j, htext, hj, rfl⟩) hne
    omega
  · intro hif
    exact (mem_filter_classify_keyword hopens).2
      ⟨front, back, k, htext, hstands.standsFirst hk hif, rfl⟩

/-- A keyword within a word, behind an `%if defined` that goes on as that word and so is `%if` only;
an `%if` that goes on as a word; and `%if defined` at the end. -/
theorem Fragment.classify_keywords_within_word :
    let front := ['é']
    let back := "%if definedalways %iffy %if defined".toList
    let f : Fragment := ⟨front ++ back, 3⟩
    let keywords := f.classify.filter (·.category == .keyword)
    f.opensWithComment = false ∧
      keywords = [⟨.keyword, 5, 3⟩, ⟨.keyword, 16, 6⟩, ⟨.keyword, 29, 11⟩] ∧
      (Keyword.plainIf.StandsAt front back ∧ ¬ Keyword.ifDefined.StandsAt front back) ∧
      (∃! s, s ∈ keywords ∧ s.start = 5) ∧ f.keywordSpan front Keyword.plainIf ∈ keywords := by
  intro front back f keywords
  have hopens : f.opensWithComment = false := by decide
  have hmem : Keyword.plainIf ∈ Keyword.all ∧ Keyword.ifDefined ∈ Keyword.all := by decide
  have hstands : Keyword.plainIf.StandsAt front back :=
    (Keyword.begins_iff hmem.1 front).1 (by decide)
  have hnot : ¬ Keyword.ifDefined.StandsAt front back := by
    rw [← Keyword.begins_iff hmem.2 front]
    decide
  obtain ⟨-, -, hfound⟩ := classify_keywords hopens
  obtain ⟨honly, hspan⟩ := hfound front back rfl Keyword.plainIf hmem.1 hstands
  exact ⟨hopens, by decide, ⟨hstands, hnot⟩, honly, hspan (.inr hnot)⟩

end BmakeHighlight
