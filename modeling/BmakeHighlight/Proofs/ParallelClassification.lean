/-
Classification on several workers.  The lines are dealt out in chunks, with a task
for each chunk.  Workers take up the tasks in any order and at any speed, and the
spans are collected in the order in which the tasks were started.  However the work
is interleaved, every run ends with the spans of the document, line by line.
-/
import Mathlib.Data.List.Nodup
import Mathlib.Logic.Relation
import BmakeHighlight.Document
import BmakeHighlight.Proofs.LinePartition

namespace BmakeHighlight

section Chunks

variable {α : Type}

theorem ne_nil_of_mem_chunksOf {size : Nat} {l chunk : List α}
    (hchunk : chunk ∈ chunksOf size l) : chunk ≠ [] := by
  fun_induction chunksOf size l with
  | case1 => simp at hchunk
  | case2 a l ih =>
      rcases List.mem_cons.1 hchunk with rfl | hchunk
      · simp
      · exact ih hchunk

theorem length_chunksOf_le_length (size : Nat) (l : List α) :
    (chunksOf size l).length ≤ l.length := by
  fun_induction chunksOf size l with
  | case1 => simp
  | case2 a l ih =>
      rw [List.length_drop] at ih
      rw [List.length_cons, List.length_cons]
      omega

/-- Chunks of a size that `count` of them suffice for are not more than `count`. -/
theorem length_chunksOf_le {size count : Nat} {l : List α}
    (h : l.length ≤ count * size) : (chunksOf size l).length ≤ count := by
  fun_induction chunksOf size l generalizing count with
  | case1 => simp
  | case2 a l ih =>
      cases count with
      | zero => simp at h
      | succ count =>
          have hrest : (l.drop (size - 1)).length ≤ count * size := by
            rw [Nat.succ_mul, List.length_cons] at h
            rw [List.length_drop]
            omega
          have hcount := ih hrest
          rw [List.length_cons]
          omega

/-- So many workers with a chunk each are enough for all lines. -/
theorem le_mul_chunkSize (lines : Nat) {workers : Nat} (h : 0 < workers) :
    lines ≤ workers * chunkSize lines workers := by
  have hdiv := Nat.div_add_mod (lines + workers - 1) workers
  have hmod := Nat.mod_lt (lines + workers - 1) h
  rw [chunkSize]
  omega

end Chunks

theorem Document.flatten_chunks (d : Document) (workers : Nat) :
    (d.chunks workers).flatten = d.lines :=
  flatten_chunksOf _ _

/-- No two lines start at the same offset. -/
theorem Document.lines_pairwise_start_lt (d : Document) :
    d.lines.Pairwise fun a b => a.start < b.start :=
  d.lines_pairwise_stop_lt.imp fun h => Nat.lt_of_le_of_lt (Nat.le_add_right _ _) h

theorem Document.lines_nodup (d : Document) : d.lines.Nodup :=
  d.lines_pairwise_start_lt.imp fun hlt heq => by simp [heq] at hlt

/-- The chunks deal out the lines of a document: they are the lines in order, each line in one
chunk; no chunk is empty; and there is at most one chunk for a worker or a line. -/
structure Document.DealtOut (d : Document) (workers : Nat) (chunks : List (List Fragment)) :
    Prop where
  flatten : chunks.flatten = d.lines
  disjoint : chunks.Pairwise List.Disjoint
  ne_nil : ∀ chunk ∈ chunks, chunk ≠ []
  length_le : chunks.length ≤ min workers d.lines.length

theorem Document.dealtOut_chunks (d : Document) {workers : Nat} (h : 0 < workers) :
    d.DealtOut workers (d.chunks workers) := by
  have hnodup := d.lines_nodup
  rw [← d.flatten_chunks workers, List.nodup_flatten] at hnodup
  exact
    { flatten := d.flatten_chunks workers
      disjoint := hnodup.2
      ne_nil := fun _ => ne_nil_of_mem_chunksOf
      length_le := Nat.le_min.2
        ⟨length_chunksOf_le (le_mul_chunkSize _ h), length_chunksOf_le_length _ _⟩ }

/-- A worker: the lines that it has not classified yet and the spans that it has found. -/
structure Worker where
  lines : List Fragment
  spans : List Span

/-- The spans that a worker will have found in the end. -/
def Worker.outcome (w : Worker) : List Span :=
  w.spans ++ w.lines.flatMap Fragment.classify

/-- A parallel classification under way: the chunks that no worker has been started for,
the workers whose spans have not been collected, oldest first, and the spans that have. -/
structure Crew where
  chunks : List (List Fragment)
  workers : List Worker
  collected : List Span

/-- The crew before the first worker is started. -/
def Crew.ready (chunks : List (List Fragment)) : Crew :=
  ⟨chunks, [], []⟩

/-- What can happen next: a worker is started on the next chunk; some worker classifies its
next line; when all workers have been started and the oldest has finished, its spans are
collected. -/
inductive Crew.Step : Crew → Crew → Prop where
  | start (chunk : List Fragment) (chunks : List (List Fragment)) (workers : List Worker)
      (collected : List Span) :
      Step ⟨chunk :: chunks, workers, collected⟩
        ⟨chunks, workers ++ [⟨chunk, []⟩], collected⟩
  | work (chunks : List (List Fragment)) (older : List Worker) (line : Fragment)
      (lines : List Fragment) (spans : List Span) (younger : List Worker)
      (collected : List Span) :
      Step ⟨chunks, older ++ ⟨line :: lines, spans⟩ :: younger, collected⟩
        ⟨chunks, older ++ ⟨lines, spans ++ line.classify⟩ :: younger, collected⟩
  | collect (spans : List Span) (workers : List Worker) (collected : List Span) :
      Step ⟨[], ⟨[], spans⟩ :: workers, collected⟩ ⟨[], workers, collected ++ spans⟩

namespace Crew

/-- The spans that will have been collected in the end. -/
def outcome (c : Crew) : List Span :=
  c.collected ++ c.workers.flatMap Worker.outcome ++
    c.chunks.flatMap (·.flatMap Fragment.classify)

/-- The number of steps until everything is collected: one for each line, one for each worker
to be collected, and one more for each that has not been started. -/
def stepsLeft (c : Crew) : Nat :=
  c.chunks.flatten.length + 2 * c.chunks.length +
    (c.workers.flatMap Worker.lines).length + c.workers.length

/-- Nothing is left to be started, classified or collected. -/
def Finished (c : Crew) : Prop :=
  c.chunks = [] ∧ c.workers = []

/-- No step changes what will come out. -/
theorem Step.outcome_eq {c next : Crew} (h : c.Step next) : next.outcome = c.outcome := by
  cases h <;> simp [outcome, Worker.outcome]

theorem Step.stepsLeft_eq {c next : Crew} (h : c.Step next) :
    c.stepsLeft = next.stepsLeft + 1 := by
  cases h <;> simp [stepsLeft] <;> omega

/-- A crew goes on until it has finished; it is never stuck before. -/
theorem exists_step_iff {c : Crew} : (∃ next, c.Step next) ↔ ¬ c.Finished := by
  constructor
  · rintro ⟨next, hstep⟩ ⟨hchunks, hworkers⟩
    cases hstep <;> simp at hchunks hworkers
  · intro h
    obtain ⟨chunks, workers, collected⟩ := c
    cases chunks with
    | cons chunk chunks => exact ⟨_, .start chunk chunks workers collected⟩
    | nil =>
        cases workers with
        | nil => exact absurd ⟨rfl, rfl⟩ h
        | cons w workers =>
            obtain ⟨lines, spans⟩ := w
            cases lines with
            | nil => exact ⟨_, .collect spans workers collected⟩
            | cons line lines =>
                exact ⟨_, .work [] [] line lines spans workers collected⟩

/-- The crew works in some order: any number of steps, one after the other. -/
abbrev Reaches : Crew → Crew → Prop :=
  Relation.ReflTransGen Step

theorem Reaches.outcome_eq {c last : Crew} (h : Reaches c last) :
    last.outcome = c.outcome := by
  induction h with
  | refl => rfl
  | tail _ hstep ih => rw [hstep.outcome_eq, ih]

/-- However the steps are ordered, a crew that has finished has collected the spans of all
chunks in their order. -/
theorem Reaches.collected_eq {chunks : List (List Fragment)} {last : Crew}
    (h : Reaches (ready chunks) last) (hlast : last.Finished) :
    last.collected = chunks.flatMap (·.flatMap Fragment.classify) := by
  have houtcome := h.outcome_eq
  simpa [outcome, ready, hlast.1, hlast.2] using houtcome

/-- There is no endless run. -/
theorem wellFounded_step : WellFounded fun next c : Crew => c.Step next := by
  refine Subrelation.wf ?_ (measure stepsLeft).wf
  intro next c hstep
  have hleft := Step.stepsLeft_eq hstep
  change next.stepsLeft < c.stepsLeft
  omega

end Crew

namespace Dispatch

/-- Every task finds the spans of its chunk, which a worker on it will have found in the end. -/
theorem map_get_tasks (chunks : List (List Fragment)) :
    (Dispatch.inTasks chunks).tasks.map Task.get =
      chunks.map fun chunk => Worker.outcome ⟨chunk, []⟩ := by
  rw [tasks, List.map_map]
  rfl

theorem spans_inTasks (chunks : List (List Fragment)) :
    (Dispatch.inTasks chunks).spans = chunks.flatMap (·.flatMap Fragment.classify) := by
  rw [spans, tasks, List.flatMap_map]
  rfl

end Dispatch

namespace Document

variable {d : Document} {workers : Nat} {dispatch : Dispatch}

/-- Tasks are started for more than one worker and more than one line. -/
theorem dispatch_eq (d : Document) (h : 0 < workers) :
    (workers = 1 ∨ d.lines.length < 2) ∧ d.dispatch workers = .ok (.inPlace d.lines) ∨
      (1 < workers ∧ 2 ≤ d.lines.length) ∧
        d.dispatch workers = .ok (.inTasks (d.chunks workers)) := by
  rw [Document.dispatch, if_neg (Nat.ne_of_gt h)]
  by_cases hfew : workers = 1 ∨ d.lines.length < 2
  · exact .inl ⟨hfew, if_pos hfew⟩
  · exact .inr ⟨by omega, if_neg hfew⟩

/-- Chunk by chunk, the lines give the spans of the document. -/
theorem flatMap_chunks (d : Document) (workers : Nat) :
    (d.chunks workers).flatMap (·.flatMap Fragment.classify) = d.classify := by
  rw [classify, ← d.flatten_chunks workers, List.flatten_eq_flatMap, List.flatMap_assoc]
  rfl

/-- However the lines are dealt out, their spans are those of the document. -/
theorem spans_of_dispatch (h : 0 < workers) (hdispatch : d.dispatch workers = .ok dispatch) :
    dispatch.spans = d.classify := by
  rcases d.dispatch_eq h with ⟨-, heq⟩ | ⟨-, heq⟩
  · obtain rfl := Except.ok.inj (heq.symm.trans hdispatch)
    rfl
  · obtain rfl := Except.ok.inj (heq.symm.trans hdispatch)
    rw [Dispatch.spans_inTasks, d.flatMap_chunks]

theorem classifyParallel_of_dispatch (hdispatch : d.dispatch workers = .ok dispatch) :
    d.classifyParallel workers = .ok dispatch.spans := by
  rw [classifyParallel, hdispatch]
  rfl

theorem classifyParallel_zero (d : Document) :
    d.classifyParallel 0 = .error (.ofCause .invalidWorkerCount) :=
  rfl

/-- With at least one worker the result is the one of the plain classification. -/
theorem classifyParallel_of_pos (d : Document) (h : 0 < workers) :
    d.classifyParallel workers = .ok d.classify := by
  obtain ⟨dispatch, hdispatch⟩ : ∃ dispatch, d.dispatch workers = .ok dispatch := by
    rcases d.dispatch_eq h with ⟨-, heq⟩ | ⟨-, heq⟩ <;> exact ⟨_, heq⟩
  rw [classifyParallel_of_dispatch hdispatch, spans_of_dispatch h hdispatch]

end Document

/-- Without workers nothing is classified.  With any number of them the answer is the one of the
plain classification.  It is found in place for one worker or less than two lines, and otherwise by
tasks.  There is a task for each of the chunks that the lines are dealt out in, which finds the
spans of its chunk, and no more tasks than workers or lines.  Every order of work on these chunks
ends, ends only when all spans are collected, and has then collected the spans of the answer. -/
theorem Document.classifyParallel_eq (d : Document) :
    d.classifyParallel 0 = .error (.ofCause .invalidWorkerCount) ∧
      ∀ workers, 0 < workers →
        d.classifyParallel workers = .ok d.classify ∧
        ∃ dispatch, d.dispatch workers = .ok dispatch ∧
          d.classifyParallel workers = .ok dispatch.spans ∧
          (dispatch = .inPlace d.lines ∧ (workers = 1 ∨ d.lines.length < 2) ∨
            ∃ chunks, dispatch = .inTasks chunks ∧ 1 < workers ∧ 2 ≤ d.lines.length ∧
              d.DealtOut workers chunks ∧
              dispatch.tasks.map Task.get = chunks.map (·.flatMap Fragment.classify) ∧
              dispatch.tasks.length ≤ min workers d.lines.length ∧
              WellFounded (fun next c : Crew => c.Step next) ∧
              ∀ crew, Crew.Reaches (.ready chunks) crew →
                ((∃ next, crew.Step next) ↔ ¬ crew.Finished) ∧
                  (crew.Finished → crew.collected = dispatch.spans)) := by
  refine ⟨d.classifyParallel_zero, ?_⟩
  intro workers hworkers
  refine ⟨d.classifyParallel_of_pos hworkers, ?_⟩
  rcases d.dispatch_eq hworkers with ⟨hfew, hdispatch⟩ | ⟨⟨hworkers', hlines⟩, hdispatch⟩
  · exact ⟨_, hdispatch, classifyParallel_of_dispatch hdispatch, .inl ⟨rfl, hfew⟩⟩
  · have hdealt := d.dealtOut_chunks hworkers
    refine ⟨_, hdispatch, classifyParallel_of_dispatch hdispatch, .inr ⟨_, rfl, hworkers', hlines,
      hdealt, Dispatch.map_get_tasks _, ?_, Crew.wellFounded_step, ?_⟩⟩
    · rw [Dispatch.tasks, List.length_map]
      exact hdealt.length_le
    · intro crew hcrew
      refine ⟨Crew.exists_step_iff, fun hfinished => ?_⟩
      rw [hcrew.collected_eq hfinished, Dispatch.spans_inTasks]

/-- Three lines for two workers, in two tasks. -/
theorem Document.classifyParallel_eq_two_workers :
    let d := Document.ofText "a = 1\n# b\n@c".toList
    let chunks : List (List Fragment) :=
      [[⟨"a = 1".toList, 0⟩, ⟨"# b".toList, 6⟩], [⟨"@c".toList, 10⟩]]
    let spans : List Span :=
      [⟨.operator, 2, 1⟩, ⟨.number, 4, 1⟩, ⟨.comment, 6, 3⟩, ⟨.preprocessorMarker, 10, 1⟩]
    0 < 2 ∧ d.classifyParallel 2 = .ok spans ∧ d.dispatch 2 = .ok (.inTasks chunks) ∧
      d.DealtOut 2 chunks ∧ (Dispatch.inTasks chunks).spans = spans ∧
      ∀ crew, Crew.Reaches (.ready chunks) crew → crew.Finished → crew.collected = spans := by
  intro d chunks spans
  have hclassify : d.classify = spans := by decide
  have hlines : d.lines = chunks.flatten := by decide
  have hdispatch : d.dispatch 2 = .ok (.inTasks chunks) := by
    rw [dispatch, Document.chunks, hlines]
    simp [chunks, chunkSize, chunksOf]
  obtain ⟨hanswer, dispatch, hdispatch', hspans, htasks⟩ := d.classifyParallel_eq.2 2 (by decide)
  obtain rfl := Except.ok.inj (hdispatch.symm.trans hdispatch')
  rw [hclassify] at hanswer
  have hfound : (Dispatch.inTasks chunks).spans = spans :=
    Except.ok.inj (hspans.symm.trans hanswer)
  rcases htasks with ⟨hplace, -⟩ | ⟨chunks', hchunks, -, -, hdealt, -, -, -, hcrew⟩
  · cases hplace
  · obtain rfl := Dispatch.inTasks.inj hchunks
    refine ⟨by decide, hanswer, hdispatch, hdealt, hfound, ?_⟩
    intro crew hreaches hfinished
    rw [(hcrew crew hreaches).2 hfinished, hfound]

end BmakeHighlight
