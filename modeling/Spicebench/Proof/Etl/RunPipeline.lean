import Spicebench.Construction.Etl.RunPipeline
import Spicebench.Proof.Etl.HealthyTask
import Spicebench.Proof.Etl.Ledger

namespace Spicebench.Etl
open Library DataGeneration

variable {Table Key Data : Type} [DecidableEq Table]

/-- These ids of a table left the plan and were not handed over by the run yet. -/
def RunTask.held (run : RunTask Table Key Data) (table : Table) : List Nat :=
  match run.phase with
  | .processing _ _ active tasks => if table ∈ active then (tasks table).held else []
  | _ => []

/-- Every table has one task, and each reservation cursor is up to date. -/
def RunTask.Shape (run : RunTask Table Key Data) : Prop :=
  match run.phase with
  | .processing _ _ active tasks => active.Nodup ∧ ∀ table ∈ active, (tasks table).CursorLast
  | _ => True

/-- This is everything that one step of a run can do. -/
inductive RunMove (config : EtlConfig Key Data) (shared next : Shared Table Key Data)
    (run after : RunTask Table Key Data) : RunAction Table Key Data → Prop where
  | start (fresh : run.phase = .starting) (same : next = shared)
      (begun : after = { run with
        checkpointMaxBatchId := checkpointMaxBatchId shared.work.steps run.stepLimit
        phase := .loopHead 0 }) : RunMove config shared next run after .start
  | giveUp (outerSteps : Nat) (cancelled : Bool) (flush : Except String Unit) (outcome : PipelineState)
      (head : run.phase = .loopHead outerSteps)
      (returned : after = { run with phase := .returned outcome })
      (spent : next = shared ∧ (outcome = .stopped .cancelled ∧ cancelled = true ∨
          run.stepLimit.any (· ≤ outerSteps) = true ∧ outcome = .paused ∨
          shared.work.steps.popStep run.checkpointMaxBatchId = none ∧
            outcome = if run.checkpointMaxBatchId.isSome then .paused else .stopped .completed) ∨
        next = shared.fail ∧ flush ≠ .ok () ∧ ∃ message, outcome = .stopped (.error message)) :
      RunMove config shared next run after (.loopHead cancelled flush)
  | pop (outerSteps : Nat) (cancelled : Bool) (flush : Except String Unit) (batchId : Nat)
      (tables : List Table) (steps : WorkPlan Table) (head : run.phase = .loopHead outerSteps)
      (popped : shared.work.steps.popStep run.checkpointMaxBatchId = some (batchId, tables, steps))
      (same : next = shared.withSteps steps)
      (begun : after = { run with
        phase := if (tables.filter (· ∉ shared.work.finishedTables)).isEmpty then .loopHead outerSteps
          else .processing outerSteps batchId (tables.filter (· ∉ shared.work.finishedTables))
            fun _ => .reading (.start batchId) }) :
      RunMove config shared next run after (.loopHead cancelled flush)
  | task (outerSteps batchId : Nat) (active : List Table) (tasks : Table → TaskState Key Data)
      (table : Table) (action : TaskAction Key Data) (result : TaskState Key Data)
      (busy : run.phase = .processing outerSteps batchId active tasks) (member : table ∈ active)
      (stepped : taskStep config run.checkpointMaxBatchId table shared (tasks table) action =
        some (next, result))
      (begun : after = { run with
        phase := .processing outerSteps batchId active (Function.update tasks table result) }) :
      RunMove config shared next run after (.task table action)
  | collect (outerSteps batchId : Nat) (active : List Table) (tasks : Table → TaskState Key Data)
      (table : Table) (report : TaskReport)
      (busy : run.phase = .processing outerSteps batchId active tasks) (member : table ∈ active)
      (done : tasks table = .done (.ok report))
      (same : next = { shared with work := { shared.work with
        finishedTables := if report.tableFinished then table :: shared.work.finishedTables
          else shared.work.finishedTables } })
      (begun : after = { run with
        phase := .processing outerSteps batchId (active.erase table) tasks }) :
      RunMove config shared next run after (.collect table)
  | collectError (outerSteps batchId : Nat) (active : List Table) (tasks : Table → TaskState Key Data)
      (table : Table) (message : String)
      (busy : run.phase = .processing outerSteps batchId active tasks) (member : table ∈ active)
      (done : tasks table = .done (.error message)) (same : next = shared)
      (begun : after = { run with phase := .returned (.stopped (.error message)) }) :
      RunMove config shared next run after (.collect table)
  | stepDone (outerSteps batchId : Nat) (tasks : Table → TaskState Key Data)
      (busy : run.phase = .processing outerSteps batchId [] tasks) (same : next = shared)
      (begun : after = { run with phase := .loopHead (outerSteps + 1) }) :
      RunMove config shared next run after .stepDone
  | cancel (outerSteps batchId : Nat) (active : List Table) (tasks : Table → TaskState Key Data)
      (busy : run.phase = .processing outerSteps batchId active tasks) (same : next = shared)
      (begun : after = { run with phase := .returned (.stopped .cancelled) }) :
      RunMove config shared next run after .cancel

section Moves

variable {config : EtlConfig Key Data} {shared next : Shared Table Key Data}
  {run after : RunTask Table Key Data} {action : RunAction Table Key Data}

theorem flushAndReturn_moves {outerSteps : Nat} {cancelled : Bool} {flush : Except String Unit}
    {outcome : PipelineState} {label : String} (head : run.phase = .loopHead outerSteps)
    (reason : run.stepLimit.any (· ≤ outerSteps) = true ∧ outcome = .paused ∨
      shared.work.steps.popStep run.checkpointMaxBatchId = none ∧
        outcome = if run.checkpointMaxBatchId.isSome then .paused else .stopped .completed) :
    RunMove config shared (flushAndReturn shared run outcome label flush).1 run
      (flushAndReturn shared run outcome label flush).2 (.loopHead cancelled flush) := by
  unfold flushAndReturn
  split
  · exact .giveUp outerSteps cancelled _ outcome head rfl (.inl ⟨rfl, .inr reason⟩)
  · exact .giveUp outerSteps cancelled _ _ head rfl (.inr ⟨rfl, by simp, _, rfl⟩)

theorem loopHeadStep_moves {outerSteps : Nat} {cancelled : Bool} {flush : Except String Unit}
    (head : run.phase = .loopHead outerSteps) :
    RunMove config shared (loopHeadStep shared run outerSteps cancelled flush).1 run
      (loopHeadStep shared run outerSteps cancelled flush).2 (.loopHead cancelled flush) := by
  unfold loopHeadStep
  split
  · rename_i spent
    exact flushAndReturn_moves head (.inl ⟨spent, rfl⟩)
  · split
    · rename_i stopped
      exact .giveUp outerSteps cancelled flush _ head rfl (.inl ⟨rfl, .inl ⟨rfl, stopped⟩⟩)
    · split
      · rename_i batchId tables steps popped
        exact .pop outerSteps cancelled flush batchId tables steps head popped rfl rfl
      · rename_i popped
        split
        · rename_i bounded
          exact flushAndReturn_moves head (.inr ⟨popped, by simp [bounded]⟩)
        · rename_i unbounded
          exact flushAndReturn_moves head (.inr ⟨popped, by simp [unbounded]⟩)

/-- Every step of a run is one of the listed moves. -/
theorem runStep_moves (stepped : runStep config shared run action = some (next, after)) :
    RunMove config shared next run after action := by
  unfold runStep at stepped
  split at stepped
  · rename_i fresh
    obtain ⟨rfl, rfl⟩ := Prod.mk.inj (Option.some.inj stepped)
    exact .start fresh rfl rfl
  · rename_i outerSteps cancelled flush head
    have moved := @loopHeadStep_moves _ _ _ _ config shared run outerSteps cancelled flush head
    rw [Option.some.inj stepped] at moved
    exact moved
  · rename_i busy
    split at stepped
    · rename_i member
      simp only [Option.map_eq_some_iff, Prod.mk.injEq] at stepped
      obtain ⟨⟨shared', result⟩, taken, rfl, rfl⟩ := stepped
      exact .task _ _ _ _ _ _ result busy member taken rfl
    · simp at stepped
  · rename_i busy
    split at stepped
    · rename_i result done
      split at stepped
      · rename_i member
        obtain ⟨rfl, rfl⟩ := Prod.mk.inj (Option.some.inj stepped)
        cases result with
        | error message => exact .collectError _ _ _ _ _ message busy member done rfl rfl
        | ok report => exact .collect _ _ _ _ _ report busy member done rfl rfl
      · simp at stepped
    · simp at stepped
  · rename_i outerSteps batchId active tasks busy
    split at stepped
    · rename_i idle
      obtain ⟨rfl, rfl⟩ := Prod.mk.inj (Option.some.inj stepped)
      rw [List.isEmpty_iff.mp idle] at busy
      exact .stepDone _ _ _ busy rfl rfl
    · simp at stepped
  · rename_i busy
    obtain ⟨rfl, rfl⟩ := Prod.mk.inj (Option.some.inj stepped)
    exact .cancel _ _ _ _ busy rfl rfl
  · simp at stepped

/-- The shape of a run is kept by every step. -/
theorem RunMove.shape (moved : RunMove config shared next run after action) (shape : run.Shape) :
    after.Shape := by
  cases moved with
  | start _ _ begun => simp [RunTask.Shape, begun]
  | giveUp _ _ _ _ _ returned => simp [RunTask.Shape, returned]
  | pop _ _ _ batchId tables _ _ popped _ begun =>
      obtain ⟨nodup, _⟩ := WorkPlan.pop_some popped
      subst begun
      unfold RunTask.Shape
      dsimp only
      split_ifs
      · trivial
      · exact ⟨nodup.filter _, fun _ _ => by simp [TaskState.CursorLast, ReadLoop.start]⟩
  | task _ _ active tasks table _ result busy member stepped begun =>
      subst begun
      simp only [RunTask.Shape, busy] at shape ⊢
      refine ⟨shape.1, fun other inside => ?_⟩
      by_cases same : other = table
      · subst same
        rw [Function.update_self]
        exact (taskStep_moves (shape.2 other inside) stepped).after_cursorLast
      · rw [Function.update_of_ne same]
        exact shape.2 other inside
  | collect _ _ active _ table _ busy _ _ _ begun =>
      subst begun
      simp only [RunTask.Shape, busy] at shape ⊢
      exact ⟨shape.1.erase table, fun other inside => shape.2 other (List.mem_of_mem_erase inside)⟩
  | collectError _ _ _ _ _ _ _ _ _ _ begun => simp [RunTask.Shape, begun]
  | stepDone _ _ _ _ _ begun => simp [RunTask.Shape, begun]
  | cancel _ _ _ _ _ _ begun => simp [RunTask.Shape, begun]

/-- A run that is not processing a step holds no ids. -/
theorem RunTask.held_of_phase
    (idle : ∀ outerSteps batchId active tasks, run.phase ≠ .processing outerSteps batchId active tasks) :
    run.held = fun _ => [] := by
  funext table
  unfold RunTask.held
  split
  · rename_i busy
    exact absurd busy (idle _ _ _ _)
  · rfl

/-- Every step of a run keeps the ledger. -/
theorem RunMove.ledger {planned : Table → Nat → Prop} {past : List (Event Table)}
    (moved : RunMove config shared next run after action) (shape : run.Shape)
    (ledger : Ledger planned past shared run.held) : Ledger planned past next after.held := by
  have empty : ∀ phase : Phase Table Key Data, after = { run with phase } →
      (∀ outerSteps batchId active tasks, phase ≠ .processing outerSteps batchId active tasks) →
      ∀ table, (after.held table).Sublist (run.held table) := by
    intro phase same idle table
    have nothing : after.held = fun _ => [] := by
      apply RunTask.held_of_phase
      rw [same]
      exact idle
    rw [nothing]
    exact List.nil_sublist _
  cases moved with
  | start fresh same begun =>
      subst same
      have nothing : after.held = fun _ => [] := by
        apply RunTask.held_of_phase
        simp [begun]
      apply ledger.release rfl (List.append_nil _).symm (by simp)
      intro table
      rw [nothing]
      exact List.nil_sublist _
  | giveUp _ _ _ outcome _ returned spent =>
      rcases spent with ⟨rfl, _⟩ | ⟨rfl, _⟩
      · exact ledger.release rfl (List.append_nil _).symm (by simp) (empty _ returned (by simp))
      · exact ledger.release rfl rfl (by simp) (empty _ returned (by simp))
  | pop outerSteps _ _ batchId tables steps head popped same begun =>
      rw [RunTask.held_of_phase (by simp [head])] at ledger
      subst same
      apply ledger.pop popped
      intro table
      rw [begun]
      unfold RunTask.held
      dsimp only
      split_ifs with finished
      · exact .inl rfl
      · dsimp only
        split_ifs with member
        · exact .inr ⟨List.mem_of_mem_filter member, rfl⟩
        · exact .inl rfl
  | task _ _ active tasks table _ result busy member stepped begun =>
      simp only [RunTask.Shape, busy] at shape
      have holds : run.held table = (tasks table).held := by
        simp [RunTask.held, busy, member]
      apply ledger.move holds (taskStep_moves (shape.2 table member) stepped)
      funext other
      by_cases same : other = table
      · subst same
        simp [RunTask.held, begun, member]
      · simp [RunTask.held, begun, busy, same]
  | collect _ _ active tasks table _ busy member done same begun =>
      subst same
      refine ledger.release rfl (List.append_nil _).symm (by simp) ?_
      intro other
      simp only [RunTask.held, begun, busy]
      split_ifs with kept old
      · exact List.Sublist.refl _
      · exact absurd (List.mem_of_mem_erase kept) old
      · exact List.nil_sublist _
      · exact List.nil_sublist _
  | collectError _ _ _ _ _ _ _ _ _ same begun =>
      subst same
      exact ledger.release rfl (List.append_nil _).symm (by simp) (empty _ begun (by simp))
  | stepDone _ _ _ _ same begun =>
      subst same
      exact ledger.release rfl (List.append_nil _).symm (by simp) (empty _ begun (by simp))
  | cancel _ _ _ _ _ same begun =>
      subst same
      exact ledger.release rfl (List.append_nil _).symm (by simp) (empty _ begun (by simp))

end Moves

end Spicebench.Etl
