/-
The passes one after the other, on a fragment that may be blank.  White space adds
nothing to what has been found and does not end the search, so that the test for blank
fragments only saves time.
-/
import BmakeHighlight.Proofs.BlankText
import BmakeHighlight.Text.Trim

namespace BmakeHighlight

/-- How far the passes over a fragment have come: the spans found so far, and whether the search
has ended before its last pass. -/
structure Search where
  found : List Span
  ended : Bool
deriving DecidableEq, Repr

def Search.start : Search :=
  ⟨[], false⟩

/-- Does the pass end the search?  A comment at the first byte does. -/
def Pass.ends (p : Pass) (f : Fragment) : Bool :=
  p == .comment && f.opensWithComment

/-- One more pass over a fragment, unless the search has ended. -/
def Search.step (f : Fragment) (s : Search) (p : Pass) : Search :=
  if s.ended then s else ⟨s.found ++ p.spans f, p.ends f⟩

/-- What passes over a fragment come to.  There is no test for a blank one. -/
def Fragment.search (f : Fragment) (passes : List Pass) : Search :=
  passes.foldl (Search.step f) Search.start

namespace Search

variable {f : Fragment} {s : Search} {passes : List Pass}

theorem foldl_step_of_ended (h : s.ended = true) (passes : List Pass) :
    passes.foldl (step f) s = s := by
  induction passes with
  | nil => rfl
  | cons p passes ih => rw [List.foldl_cons, step, if_pos h, ih]

theorem foldl_step_of_not_ends (h : ∀ p ∈ passes, p.ends f = false) (found : List Span) :
    passes.foldl (step f) ⟨found, false⟩ = ⟨found ++ passes.flatMap (·.spans f), false⟩ := by
  induction passes generalizing found with
  | nil => rw [List.flatMap_nil, List.append_nil, List.foldl_nil]
  | cons p passes ih =>
      rw [List.forall_mem_cons] at h
      have hstep : step f ⟨found, false⟩ p = ⟨found ++ p.spans f, false⟩ := by
        rw [step, if_neg Bool.false_ne_true, h.1]
      rw [List.foldl_cons, hstep, ih h.2, List.flatMap_cons, List.append_assoc]

end Search

/-- Classification is the search by all passes, also where it skips them. -/
theorem Fragment.found_search_all (f : Fragment) : (f.search Pass.all).found = f.classify := by
  rw [classify_eq, search]
  cases hopens : f.opensWithComment with
  | true =>
      -- the comment pass comes first, and what it leaves is final
      have hfirst : Search.step f Search.start .comment = ⟨Pass.comment.spans f, true⟩ := by
        rw [Search.step, Pass.ends, hopens]
        rfl
      rw [Pass.all, List.foldl_cons, hfirst, Search.foldl_step_of_ended rfl, if_pos rfl]
  | false =>
      have hends : ∀ p ∈ Pass.all, p.ends f = false := by
        intro p _
        rw [Pass.ends, hopens, Bool.and_false]
      rw [Search.start, Search.foldl_step_of_not_ends hends, if_neg Bool.false_ne_true,
        List.nil_append]

section White

variable {f : Fragment}

theorem Fragment.isBlank_iff_trim : f.isBlank = true ↔ f.text.trim = [] := by
  rw [Text.trim_eq_nil_iff, isBlank, List.all_eq_true]

theorem Fragment.opensWithComment_of_isBlank (hf : f.isBlank = true) :
    f.opensWithComment = false := by
  rw [opensWithComment, Pass.spans_of_isBlank hf, List.any_nil]

/-- On white space a pass leaves everything as it was. -/
theorem Search.step_of_isBlank (hf : f.isBlank = true) (s : Search) (p : Pass) :
    s.step f p = s := by
  obtain ⟨found, ended⟩ := s
  cases ended with
  | true => rfl
  | false =>
      rw [step, if_neg Bool.false_ne_true, Pass.spans_of_isBlank hf, Pass.ends,
        Fragment.opensWithComment_of_isBlank hf, List.append_nil, Bool.and_false]

theorem Fragment.search_of_isBlank (hf : f.isBlank = true) (passes : List Pass) :
    f.search passes = Search.start := by
  rw [search]
  induction passes with
  | nil => rfl
  | cons p passes ih => rw [List.foldl_cons, Search.step_of_isBlank hf, ih]

end White

/-- The test for blank fragments makes no difference.  It holds of the fragments that have nothing
but white space in them; there no pass finds a span or ends the search, in whatever order passes
are made.  So classification gives what the search by all passes does, on any fragment. -/
theorem Fragment.classify_without_blank_test (f : Fragment) :
    (f.isBlank = true ↔ f.text.trim = []) ∧
      ((∀ c ∈ f.text, isWhiteSpace c = true) →
        (∀ p : Pass, p.spans f = [] ∧ p.ends f = false) ∧
          ∀ passes, f.search passes = Search.start) ∧
      f.classify = (f.search Pass.all).found := by
  refine ⟨isBlank_iff_trim, fun hwhite => ?_, f.found_search_all.symm⟩
  have hblank : f.isBlank = true := List.all_eq_true.2 hwhite
  refine ⟨fun p => ⟨Pass.spans_of_isBlank hblank p, ?_⟩, search_of_isBlank hblank⟩
  rw [Pass.ends, opensWithComment_of_isBlank hblank, Bool.and_false]

/-- White space of several kinds, line ends among them. -/
theorem Fragment.classify_without_blank_test_spaces :
    let f : Fragment := ⟨['\u2003', '\t', '\r', '\n', '\u0085', '\u00a0'], 5⟩
    (∀ c ∈ f.text, isWhiteSpace c = true) ∧ f.text.trim = [] ∧
      Pass.comment.spans f = [] ∧ Pass.comment.ends f = false ∧
      f.search Pass.all = ⟨[], false⟩ ∧ f.classify = [] := by
  intro f
  have hwhite : ∀ c ∈ f.text, isWhiteSpace c = true := List.all_eq_true.1 rfl
  obtain ⟨htrim, hspaces, hclassify⟩ := f.classify_without_blank_test
  obtain ⟨hpass, hsearch⟩ := hspaces hwhite
  refine ⟨hwhite, htrim.1 (by decide), (hpass .comment).1, (hpass .comment).2,
    hsearch Pass.all, ?_⟩
  rw [hclassify, hsearch]
  rfl

end BmakeHighlight
