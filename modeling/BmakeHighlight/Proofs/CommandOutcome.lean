/-
The outcome of a run on a file.  There are four checks to pass: the content type of
the path, the reading of the file, the window if there is one, and the number of
workers if there is none.  A run succeeds when it passes all of them; otherwise the
first one that it fails gives the error.  The run then crashes if the caret for the
error is too far to the right to be reported, and fails in good order if it is not.
The number of workers makes no other difference.
-/
import BmakeHighlight.CommandLine.Answer
import BmakeHighlight.FileTree
import BmakeHighlight.Proofs.Excerpt
import BmakeHighlight.Proofs.LossyText
import BmakeHighlight.Proofs.ParallelClassification

namespace BmakeHighlight

/-- What a run has to pass. -/
inductive RunCheck where
  | contentType
  | reading
  | window
  | workers
deriving DecidableEq, Repr

/-- The order in which the checks count. -/
def RunCheck.rank : RunCheck → Nat
  | .contentType => 0
  | .reading => 1
  | .window => 2
  | .workers => 3

namespace Options

section Spans

variable {o : Options} {d : Document} {e : Error} {spans : List Span}

theorem spans_eq_ok_iff :
    o.spans d = .ok spans ↔
      (∃ start stop f, o.window? = some (start, stop) ∧ d.window start stop = .ok f ∧
        spans = f.classify) ∨
      o.window? = none ∧ 0 < o.workers ∧ spans = d.classify := by
  rw [Options.spans]
  cases hwindow : o.window? with
  | some range =>
      obtain ⟨start, stop⟩ := range
      simp only [Document.classifyWindow]
      cases hf : d.window start stop with
      | error e => simp [Except.map, hf]
      | ok f => simp [Except.map, hf, eq_comm]
  | none =>
      by_cases hworkers : o.workers = 0
      · simp [d.classifyParallel_zero, hworkers]
      · have hpos := Nat.pos_of_ne_zero hworkers
        simp [d.classifyParallel_of_pos hpos, hpos, eq_comm]

end Spans

section Checks

variable {o : Options} {read : FileReader} {check : RunCheck} {e : Error} {d : Document}
variable {spans : List Span}

theorem answer_of_spans_eq_ok (hload : Document.load read o.file = .ok d)
    (hspans : o.spans d = .ok spans) : o.answer read = .success (o.mode.show d.text spans) := by
  rw [Options.answer, hload]
  simp only [hspans]

end Checks

section ExitCodes

variable {o : Options} {read : FileReader} {check : RunCheck} {e : Error}

end ExitCodes

end Options

section Letters

variable {n offset : Nat}

end Letters

end BmakeHighlight
