/-
Documents and the ways to classify them: line by line, line by line on several
workers, or one window as a single fragment.
-/
import BmakeHighlight.Classification
import BmakeHighlight.Line
import BmakeHighlight.ContentType
import BmakeHighlight.Text.Boundaries

namespace BmakeHighlight

/-- The text of a bmake file, with the path it was read from, if any. -/
structure Document where
  text : Text
  path? : Option Path
deriving DecidableEq, Repr

/-- A document that was not read from a file. -/
def Document.ofText (t : Text) : Document :=
  ⟨t, none⟩

/-- The length of a document in bytes. -/
def Document.size (d : Document) : Nat :=
  d.text.byteSize

/-- One fragment per line. -/
def Document.lines (d : Document) : List Fragment :=
  d.text.lineFragments

/-- The fragment from one byte offset up to another.  The range has to lie in the document, and
then both of its ends have to be character boundaries, the start first.  The slice behind these
checks cannot fail. -/
def Document.window (d : Document) (start stop : Nat) : Except Error Fragment :=
  if houtside : start > stop ∨ stop > d.size then
    .error (.at (.windowOutOfBounds start stop d.size) (min start d.size))
  else
    match hsplit : d.text.splitEnd? start stop with
    | some offset => .error (.at (.windowNotOnCharBoundary offset) offset)
    | none =>
        have hslice : (d.text.slice? start stop).isSome = true :=
          (Text.slice?_isSome_iff_splitEnd? (by omega)).2 hsplit
        .ok ⟨d.text.slice start stop hslice, start⟩

/-- The spans of a document, line by line. -/
def Document.classify (d : Document) : List Span :=
  d.lines.flatMap Fragment.classify

/-- The spans of one window, taken as a single fragment. -/
def Document.classifyWindow (d : Document) (start stop : Nat) : Except Error (List Span) :=
  (d.window start stop).map Fragment.classify

/-- Cuts a list into chunks of `size` elements, and a shorter last one.  No chunk is
empty. -/
def chunksOf {α : Type} (size : Nat) : List α → List (List α)
  | [] => []
  | a :: l => (a :: l.take (size - 1)) :: chunksOf size (l.drop (size - 1))
termination_by l => l.length
decreasing_by
  simp only [List.length_drop, List.length_cons]
  omega

/-- The chunks make up the whole list. -/
theorem flatten_chunksOf {α : Type} (size : Nat) (l : List α) :
    (chunksOf size l).flatten = l := by
  fun_induction chunksOf size l with
  | case1 => rfl
  | case2 a l ih => simp [ih]

/-- The size of the chunks that give each of several workers at most one. -/
def chunkSize (lines workers : Nat) : Nat :=
  (lines + workers - 1) / workers

/-- The lines of a document in chunks, at most one for each worker. -/
def Document.chunks (d : Document) (workers : Nat) : List (List Fragment) :=
  chunksOf (chunkSize d.lines.length workers) d.lines

/-- How lines are classified: where they are, or chunk by chunk in tasks of their own. -/
inductive Dispatch where
  | inPlace (lines : List Fragment)
  | inTasks (chunks : List (List Fragment))
deriving DecidableEq, Repr

/-- How the lines of a document are dealt out to so many workers.  For one worker, or less than
two lines, no task is worth it. -/
def Document.dispatch (d : Document) (workers : Nat) : Except Error Dispatch :=
  if workers = 0 then .error (.ofCause .invalidWorkerCount)
  else if workers = 1 ∨ d.lines.length < 2 then .ok (.inPlace d.lines)
  else .ok (.inTasks (d.chunks workers))

/-- The task that classifies the lines of a chunk. -/
def chunkTask (chunk : List Fragment) : Task (List Span) :=
  Task.spawn fun _ => chunk.flatMap Fragment.classify

/-- The tasks that are started. -/
def Dispatch.tasks : Dispatch → List (Task (List Span))
  | .inPlace _ => []
  | .inTasks chunks => chunks.map chunkTask

/-- The spans that are found.  All tasks are started before the first is waited for. -/
def Dispatch.spans (dispatch : Dispatch) : List Span :=
  match dispatch with
  | .inPlace lines => lines.flatMap Fragment.classify
  | .inTasks _ => dispatch.tasks.flatMap Task.get

/-- The spans of a document, line by line, found by at most so many tasks at a time. -/
def Document.classifyParallel (d : Document) (workers : Nat) : Except Error (List Span) :=
  (d.dispatch workers).map Dispatch.spans

end BmakeHighlight
