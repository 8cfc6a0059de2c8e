import Spicebench.Proof.Etl.Segment

namespace Spicebench.Etl
open Library

variable {Table Key Data : Type} [DecidableEq Table]

/-- Every read of a planned id completes. -/
def Environment.Responds (environment : Environment Table Key Data) (planned : Table → Nat → Prop) : Prop :=
  ∀ table batchId, planned table batchId → ∃ outcome, environment.reads table batchId outcome

/-- The run has returned. -/
def RunTask.Returned (run : RunTask Table Key Data) : Prop := ∃ outcome, run.phase = .returned outcome

/-- The task waits for the reads of these ids. -/
def TaskState.awaited : TaskState Key Data → List Nat
  | .initial batchId => [batchId]
  | .reading reads => reads.inFlight
  | _ => []

/-- The run waits for the reads of these ids of a table. -/
def RunTask.awaited (run : RunTask Table Key Data) (table : Table) : List Nat :=
  match run.phase with
  | .processing _ _ active tasks => pool [] TaskState.awaited active tasks table
  | _ => []

variable {environment : Environment Table Key Data}

/-- A task that is not done can take a step when the reads that it waits for complete. -/
theorem task_progress (config : EtlConfig Key Data) {task : TaskState Key Data} {table : Table}
    (shared : Shared Table Key Data) (maxBatchId : Option Nat)
    (answers : ∀ batchId ∈ task.awaited, ∃ outcome, environment.reads table batchId outcome)
    (unfinished : ∀ result, task ≠ .done result) :
    ∃ action, environment.AdmitsTask table action ∧
      (taskStep config maxBatchId table shared task action).isSome := by
  cases task with
  | initial batchId =>
      obtain ⟨outcome, admitted⟩ := answers batchId (by simp [TaskState.awaited])
      exact ⟨.firstRead batchId outcome, admitted, by simp [taskStep]⟩
  | reading reads =>
      by_cases wanted : reads.wantsMore config.targetBatchRows = true
      · cases reserved : shared.work.steps.reserveNextBatchIdForTable table reads.reserveCursor maxBatchId with
        | none => exact ⟨.reserve, trivial, by simp [taskStep, wanted, reserved]⟩
        | some pair => exact ⟨.reserve, trivial, by simp [taskStep, wanted, reserved]⟩
      · cases flying : reads.inFlight with
        | nil => exact ⟨.joinNone, trivial, by simp [taskStep, wanted, flying]⟩
        | cons batchId others =>
            have member : batchId ∈ reads.inFlight := by simp [flying]
            obtain ⟨outcome, admitted⟩ := answers batchId member
            exact ⟨.join batchId outcome, admitted, by simp [taskStep, wanted, member]⟩
  | writing writes =>
      cases chunks : writes.chunks with
      | cons chunk others => exact ⟨.writeChunk 0 (.ok ()), trivial, by simp [taskStep, chunks]⟩
      | nil =>
          cases segments : writes.segments with
          | cons segment others => exact ⟨.nextSegment, trivial, by simp [taskStep, chunks, segments]⟩
          | nil =>
              cases pending : writes.pending with
              | cons batch others =>
                  exact ⟨.nextBatch, trivial, by simp [taskStep, chunks, segments, pending]⟩
              | nil => exact ⟨.finish, trivial, by simp [taskStep, chunks, segments, pending]⟩
  | done result => exact absurd rfl (unfinished result)

omit [DecidableEq Table] in
/-- A healthy task waits only for ids that it holds. -/
theorem TaskState.Healthy.awaited_held {task : TaskState Key Data} (healthy : task.Healthy) :
    ∀ batchId ∈ task.awaited, batchId ∈ task.held := by
  intro batchId member
  cases task with
  | initial firstId => exact member
  | reading reads =>
      have scheduled := healthy.1.scheduled.subset (List.mem_append_left _ member)
      exact List.mem_append_right _ scheduled
  | writing writes => simp [TaskState.awaited] at member
  | done result => simp [TaskState.awaited] at member

/-- A run that has not returned can take a step when the reads that it waits for complete. -/
theorem run_progress (config : EtlConfig Key Data) (shared : Shared Table Key Data)
    {run : RunTask Table Key Data}
    (answers : ∀ table, ∀ batchId ∈ run.awaited table, ∃ outcome, environment.reads table batchId outcome)
    (unreturned : ¬ run.Returned) :
    ∃ action, environment.AdmitsRun action ∧ (runStep config shared run action).isSome := by
  cases phase : run.phase with
  | starting => exact ⟨.start, trivial, by simp [runStep, phase]⟩
  | loopHead outerSteps =>
      exact ⟨.loopHead false (.ok ()), ⟨by simp, trivial⟩, by simp [runStep, phase]⟩
  | returned outcome => exact absurd ⟨outcome, phase⟩ unreturned
  | processing outerSteps batchId active tasks =>
      cases active with
      | nil => exact ⟨.stepDone, trivial, by simp [runStep, phase]⟩
      | cons table others =>
          by_cases finished : ∃ result, tasks table = .done result
          · obtain ⟨result, done⟩ := finished
            exact ⟨.collect table, trivial, by simp [runStep, phase, done]⟩
          · have waits : run.awaited table = (tasks table).awaited := by
              simp [RunTask.awaited, phase, pool]
            obtain ⟨action, admitted, possible⟩ := task_progress config shared run.checkpointMaxBatchId
              (waits ▸ answers table) (fun result same => finished ⟨result, same⟩)
            exact ⟨.task table action, admitted, by simpa [runStep, phase] using possible⟩

/-- A healthy run waits only for ids that it holds. -/
theorem RunTask.Healthy.awaited_held {shared : Shared Table Key Data} {run : RunTask Table Key Data}
    (healthy : run.Healthy shared) (table : Table) : ∀ batchId ∈ run.awaited table, batchId ∈ run.held table := by
  intro batchId member
  cases phase : run.phase with
  | processing outerSteps stepId active tasks =>
      simp only [RunTask.Healthy, phase] at healthy
      simp only [RunTask.awaited, phase, pool] at member
      simp only [RunTask.held, phase]
      split_ifs at member with inside
      · rw [if_pos inside]
        exact (healthy.2 table inside).awaited_held batchId member
      · simp at member
  | starting => simp [RunTask.awaited, phase] at member
  | loopHead outerSteps => simp [RunTask.awaited, phase] at member
  | returned outcome => simp [RunTask.awaited, phase] at member

/-- A run in a healthy and responding environment can always go on until it returns. -/
theorem Segment.progress {config : EtlConfig Key Data} {stepLimit : Option Nat} {start : WorkPlan Table}
    {past : List (Event Table)} {shared : Shared Table Key Data} {run : RunTask Table Key Data}
    (segment : Segment stepLimit start past shared run) (responds : environment.Responds start.Pending)
    (stuck : (runMachine config environment).Stuck (shared, run)) : run.Returned := by
  by_contra unreturned
  have answers : ∀ table, ∀ batchId ∈ run.awaited table, ∃ outcome, environment.reads table batchId outcome := by
    intro table batchId member
    have held := segment.healthy.awaited_held table batchId member
    exact responds table batchId (segment.ledger.line table batchId (List.mem_append_right _ held))
  obtain ⟨action, admitted, possible⟩ := run_progress config shared answers unreturned
  obtain ⟨next, stepped⟩ := Option.isSome_iff_exists.mp possible
  exact stuck next ⟨action, admitted, stepped⟩

end Spicebench.Etl
