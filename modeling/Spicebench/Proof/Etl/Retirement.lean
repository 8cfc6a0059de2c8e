import Spicebench.Proof.Etl.Attended
import Spicebench.Proof.Etl.Failing
import Spicebench.Proof.Etl.Lifecycle
import Spicebench.Proof.Etl.ReadBatches

namespace Spicebench.Etl
open Library DataGeneration

variable {Table Key Data : Type} [DecidableEq Table]

def isEmptyRead : Option (ReadResult Key Data) → Bool
  | none => false
  | some result => result.batches.isEmpty

/-- The last read of a loop completes, and every read of the loop has returned a batch without record batches. -/
def ReadLoop.endsEmpty (reads : ReadLoop Key Data) (batchId : Nat) : ReadOutcome Key Data → Bool
  | .error _ => false
  | .ok result => isEmptyRead result && (reads.inFlight.erase batchId).isEmpty && reads.allBatches.isEmpty &&
      reads.completed.all fun entry => isEmptyRead entry.2

/-- The action is not the last read of a loop that has read no record batch. -/
def TaskState.readsData (task : TaskState Key Data) : TaskAction Key Data → Bool
  | .join batchId outcome => match task with
    | .reading reads => !reads.endsEmpty batchId outcome
    | _ => true
  | _ => true

def RunTask.readsData (run : RunTask Table Key Data) : RunAction Table Key Data → Bool
  | .task table action => match run.phase with
    | .processing _ _ _ tasks => (tasks table).readsData action
    | _ => true
  | _ => true

/-- No task of the step ends its reads without a record batch, unless a read has returned `None`. -/
def readsData (pipeline : ETLPipeline Table Key Data) : PipelineAction Table Key Data → Bool
  | .background index action => (pipeline.tasks[index]?).all fun task => task.run.readsData action
  | _ => true

/-- A read that the task joins finds its source exhausted. -/
def TaskAction.Exhausts (action : TaskAction Key Data) : Prop := ∃ batchId, action = .join batchId (.ok none)

/-- Every completed read of the loop has returned a batch, and the target is not reached. -/
structure ReadLoop.Retained (target : Nat) (reads : ReadLoop Key Data) : Prop where
  accounted : reads.Accounted (fun _ _ => True) reads.scheduled
  flying : reads.inFlight ≠ []
  rows : reads.totalRows = (reads.allBatches.map RecordBatch.numRows).sum
  short : reads.totalRows < target

/-- The task does not report its table as finished. -/
def TaskState.Retained (target : Nat) : TaskState Key Data → Prop
  | .initial _ => True
  | .reading reads => reads.Retained target
  | .writing writes => writes.report.tableFinished = false
  | .done result => ∀ report, result = .ok report → report.tableFinished = false

section Loop

variable {target : Nat} {reads : ReadLoop Key Data} {merged : List (Nat × ReadResult Key Data)}

/-- The rows of merged results are the rows of their batches. -/
theorem mergedRows_eq (merged : List (Nat × ReadResult Key Data)) :
    mergedRows merged = ((merged.flatMap fun entry => entry.2.batches).map RecordBatch.numRows).sum := by
  induction merged with
  | nil => rfl
  | cons entry rest ih =>
      rw [List.flatMap_cons, List.map_append, List.sum_append, ← ih]
      simp [mergedRows, ReadResult.numRows]

/-- A loop that has reached its target has read some record batch. -/
theorem ReadLoop.Retained.gathered (retained : reads.Retained target) (positive : 0 < target)
    (enough : target ≤ reads.totalRows + mergedRows merged) :
    reads.allBatches ++ (merged.flatMap fun entry => entry.2.batches) ≠ [] := by
  intro none
  have rows : reads.totalRows + mergedRows merged =
      ((reads.allBatches ++ merged.flatMap fun entry => entry.2.batches).map RecordBatch.numRows).sum := by
    rw [List.map_append, List.sum_append, retained.rows, mergedRows_eq]
  rw [none, List.map_nil, List.sum_nil] at rows
  omega

/-- What a join makes of a loop that does not end empty. -/
inductive JoinsTo (target : Nat) (table : Table) (plan : WorkPlan Table) (reads : ReadLoop Key Data) :
    WorkPlan Table × ReadProgress Key Data → Prop where
  | reading (next : ReadLoop Key Data) (retained : next.Retained target)
      (line : next.consumed ++ next.scheduled = reads.consumed ++ reads.scheduled) :
      JoinsTo target table plan reads (plan, .reading next)
  | returned (result : ReadReturn Key Data) (nonempty : result.batches ≠ []) (unfinished : result.tableFinished = false)
      (line : result.consumed ++ result.restored = reads.consumed ++ reads.scheduled) :
      JoinsTo target table plan reads (returnReads table plan result)

/-- A loop that joins a batch and does not end empty goes on or returns some record batch. -/
theorem ReadLoop.Retained.join {table : Table} {plan : WorkPlan Table} {batchId : Nat} {result : ReadResult Key Data}
    (retained : reads.Retained target) (nodup : reads.scheduled.Nodup) (member : batchId ∈ reads.inFlight)
    (data : reads.endsEmpty batchId (.ok (some result)) = false) :
    JoinsTo target table plan reads (joinBatch target table plan reads batchId (.ok (some result))) := by
  have positive : 0 < target := Nat.zero_lt_of_lt retained.short
  have joined : ReadLoop.Accounted (fun _ _ => True) reads.scheduled { reads with
      inFlight := reads.inFlight.erase batchId
      completed := (batchId, some result) :: reads.completed } := retained.accounted.join member trivial
  have drains := drain_drainsTo joined nodup retained.short
  simp only [joinBatch]
  generalize ReadLoop.drain target reads.scheduled _ = outcome at drains
  cases drains with
  | leave merged last rest line fine short enough =>
      refine .returned _ ?_ rfl ?_
      · simpa [ReadLoop.toReturn] using retained.gathered positive enough
      · simp [ReadLoop.toReturn, line]
  | again merged rest line fine taken accounted waits short =>
      dsimp only
      split
      · rename_i idle
        simp only [mergeAll_inFlight, Bool.and_eq_true, List.isEmpty_iff] at idle
        obtain ⟨_, rfl⟩ := accounted.idle waits ((mergeAll_inFlight _ _).trans idle.1)
        refine .returned _ ?_ rfl ?_
        · intro none
          simp only [ReadLoop.toReturn, mergeAll_allBatches, List.append_eq_nil_iff, List.flatMap_eq_nil_iff] at none
          -- Every read of the loop was merged, so all of them are empty.
          have empty : ∀ entry ∈ (batchId, some result) :: reads.completed, isEmptyRead entry.2 = true := by
            intro entry inside
            rcases taken entry inside with still | ⟨value, inMerged, same⟩
            · rw [idle.2] at still
              simp at still
            · rw [same, isEmptyRead, List.isEmpty_iff]
              exact none.2 _ inMerged
          have ends : reads.endsEmpty batchId (.ok (some result)) = true := by
            simp only [ReadLoop.endsEmpty, Bool.and_eq_true, List.isEmpty_iff, List.all_eq_true]
            exact ⟨⟨⟨empty _ List.mem_cons_self, idle.1⟩, none.1⟩,
              fun entry inside => empty entry (List.mem_cons_of_mem _ inside)⟩
          simp [ends] at data
        · simp [ReadLoop.toReturn, line]
      · rename_i busy
        refine .reading _ ⟨⟨accounted.scheduled, accounted.accepted⟩, ?_, ?_, ?_⟩ ?_
        · intro landed
          obtain ⟨nothing, _⟩ := accounted.idle waits landed
          apply busy
          dsimp only at landed
          rw [landed, nothing]
          rfl
        · simp only [mergeAll_totalRows, mergeAll_allBatches]
          rw [List.map_append, List.sum_append, retained.rows, mergedRows_eq]
        · simpa using short
        · simp [line]

end Loop

section Tasks

variable {config : EtlConfig Key Data} {maxBatchId : Option Nat} {table : Table}
  {shared next : Shared Table Key Data} {task result : TaskState Key Data} {action : TaskAction Key Data}

/-- The task keeps its table, and it has failed or loses none of its ids. -/
def Keeps (config : EtlConfig Key Data) (table : Table) (shared : Shared Table Key Data) (held : List Nat)
    (next : Shared Table Key Data) (result : TaskState Key Data) : Prop :=
  result.Retained config.targetBatchRows ∧
    ((∃ message, result = .done (.error message)) ∨
      ∃ handed : List Nat, next.history = shared.history ++ handed.map (Event.handed table) ∧
        ∀ batchId ∈ held, batchId ∈ handed ∨ batchId ∈ result.held ∨ next.work.steps.Pending table batchId)

omit [DecidableEq Table] in
/-- A step that hands nothing over and keeps the held ids. -/
theorem Keeps.quiet {held : List Nat} (retained : result.Retained config.targetBatchRows)
    (history : next.history = shared.history) (same : ∀ batchId ∈ held, batchId ∈ result.held) :
    Keeps config table shared held next result :=
  ⟨retained, .inr ⟨[], by simp [history], fun batchId member => .inr (.inl (same batchId member))⟩⟩

/-- A read loop that goes on or returns record batches keeps the table. -/
theorem JoinsTo.keeps {reads : ReadLoop Key Data} {outcome : WorkPlan Table × ReadProgress Key Data} (batchId : Nat)
    (joins : JoinsTo config.targetBatchRows table shared.work.steps reads outcome) :
    Keeps config table shared (reads.consumed ++ reads.scheduled) (continueTask config table batchId shared outcome).1
      (continueTask config table batchId shared outcome).2 := by
  cases joins with
  | reading after retained line =>
      refine .quiet retained rfl ?_
      intro batchId member
      rw [← line] at member
      exact member
  | returned answer nonempty unfinished line =>
      simp only [returnReads, continueTask, List.isEmpty_iff, nonempty, if_false]
      refine ⟨unfinished, .inr ⟨answer.consumed, rfl, ?_⟩⟩
      intro batchId member
      rw [← line, List.mem_append] at member
      rcases member with consumed | restored
      · exact .inl consumed
      · exact .inr (.inr (WorkPlan.pending_restore.mpr (.inl ⟨rfl, restored⟩)))

/-- A step of a reading task that finds no exhausted source and does not end empty keeps the table. -/
theorem taskStep_reading_keeps {reads : ReadLoop Key Data} (retained : reads.Retained config.targetBatchRows)
    (nodup : reads.scheduled.Nodup) (quiet : ¬ action.Exhausts)
    (data : (TaskState.reading reads).readsData action = true)
    (stepped : taskStep config maxBatchId table shared (.reading reads) action = some (next, result)) :
    Keeps config table shared (reads.consumed ++ reads.scheduled) next result := by
  rw [taskStep_reading] at stepped
  obtain ⟨outcome, read, same⟩ := Option.map_eq_some_iff.mp stepped
  obtain ⟨rfl, rfl⟩ := Prod.mk.inj same
  cases action with
  | reserve =>
      simp only [readStep] at read
      rw [Option.ite_none_right_eq_some] at read
      obtain ⟨_, read⟩ := read
      split at read
      · obtain rfl := Option.some.inj read
        exact .quiet ⟨⟨retained.accounted.scheduled, retained.accounted.accepted⟩, retained.flying, retained.rows,
          retained.short⟩ rfl (fun _ member => member)
      · rename_i batchId steps reserved
        obtain rfl := Option.some.inj read
        refine .quiet ⟨retained.accounted.reserve batchId _ _, by simp, retained.rows, retained.short⟩ rfl ?_
        intro other member
        simp only [TaskState.held, ← List.append_assoc]
        exact List.mem_append_left _ member
  | join batchId answer =>
      simp only [readStep] at read
      split at read
      · simp at read
      · rw [Option.ite_none_right_eq_some, Option.some_inj] at read
        obtain ⟨member, rfl⟩ := read
        cases answer with
        | error message => exact ⟨by simp [joinBatch, TaskState.Retained], .inl ⟨message, rfl⟩⟩
        | ok found =>
            cases found with
            | none => exact absurd ⟨batchId, rfl⟩ quiet
            | some value =>
                have joins := @ReadLoop.Retained.join Table Key Data _ _ reads table shared.work.steps batchId value
                  retained nodup member (by simpa [TaskState.readsData] using data)
                exact joins.keeps reads.startBatchId
  | joinNone =>
      simp only [readStep] at read
      split at read
      · simp at read
      · rw [Option.ite_none_right_eq_some] at read
        exact absurd (List.isEmpty_iff.mp read.1) retained.flying
  | _ => simp [readStep] at read

/-- A step of a task that finds no exhausted source and does not end empty keeps the table. -/
theorem taskStep_keeps (retained : task.Retained config.targetBatchRows) (nodup : task.held.Nodup)
    (quiet : ¬ action.Exhausts) (data : task.readsData action = true)
    (stepped : taskStep config maxBatchId table shared task action = some (next, result)) :
    Keeps config table shared task.held next result := by
  cases task with
  | reading reads => exact taskStep_reading_keeps retained (List.nodup_append.mp nodup).2.1 quiet data stepped
  | initial batchId =>
      cases action with
      | firstRead firstId outcome =>
          simp only [taskStep] at stepped
          rw [Option.ite_none_right_eq_some, Option.some_inj] at stepped
          obtain ⟨_, stepped⟩ := stepped
          cases outcome with
          | error message =>
              obtain ⟨_, rfl⟩ := Prod.mk.inj stepped
              exact ⟨by simp [TaskState.Retained], .inl ⟨message, rfl⟩⟩
          | ok found =>
              cases found with
              | none =>
                  obtain ⟨_, rfl⟩ := Prod.mk.inj stepped
                  exact ⟨by simp [TaskState.Retained], .inl ⟨_, rfl⟩⟩
              | some value =>
                  obtain ⟨rfl, rfl⟩ := Prod.mk.inj stepped
                  exact ⟨rfl, .inr ⟨[batchId], rfl, by simp [TaskState.held]⟩⟩
      | _ => simp [taskStep] at stepped
  | writing writes =>
      have kept : ∀ (after : Shared Table Key Data) (other : WriteLoop Key Data), after.history = shared.history →
          other.report = writes.report → Keeps config table shared [] after (.writing other) := by
        intro after other history report
        exact .quiet (by simpa [TaskState.Retained, report] using retained) history (by simp)
      cases action with
      | nextBatch =>
          simp only [taskStep] at stepped
          split at stepped
          · obtain ⟨rfl, rfl⟩ := Prod.mk.inj (Option.some.inj stepped)
            exact kept _ _ rfl rfl
          · simp at stepped
      | nextSegment =>
          simp only [taskStep] at stepped
          split at stepped
          · obtain ⟨rfl, rfl⟩ := Prod.mk.inj (Option.some.inj stepped)
            exact kept _ _ rfl rfl
          · simp at stepped
      | writeChunk index outcome =>
          simp only [taskStep] at stepped
          split at stepped
          · obtain ⟨rfl, rfl⟩ := Prod.mk.inj (Option.some.inj stepped)
            exact kept _ _ rfl rfl
          · obtain ⟨_, rfl⟩ := Prod.mk.inj (Option.some.inj stepped)
            exact ⟨by simp [TaskState.Retained], .inl ⟨_, rfl⟩⟩
          · simp at stepped
      | finish =>
          simp only [taskStep] at stepped
          rw [Option.ite_none_right_eq_some, Option.some_inj] at stepped
          obtain ⟨rfl, rfl⟩ := Prod.mk.inj stepped.2
          refine .quiet ?_ rfl (by simp [TaskState.held])
          intro report same
          rw [← Except.ok.inj same]
          exact retained
      | _ => simp [taskStep] at stepped
  | done outcome => cases action <;> simp [taskStep] at stepped

end Tasks

/-- A failed task waits to be joined, or the run has returned an error or was cancelled. -/
def RunTask.Broken (run : RunTask Table Key Data) : Prop :=
  match run.phase with
  | .processing _ _ active tasks => FailingTask active tasks
  | .returned outcome => outcome = .stopped .cancelled ∨ ∃ message, outcome = .stopped (.error message)
  | _ => False

/-- While none of its reads finds an exhausted source, a table is not finished, and none of its planned ids is
lost unless the run is broken. -/
structure Remains (config : EtlConfig Key Data) (start : WorkPlan Table) (past : List (Event Table)) (table : Table)
    (shared : Shared Table Key Data) (run : RunTask Table Key Data) : Prop where
  shape : run.Shape
  ledger : Ledger start.Pending past shared run.held
  unfinished : table ∉ shared.work.finishedTables
  retained : ∀ outerSteps batchId active tasks, run.phase = .processing outerSteps batchId active tasks →
    table ∈ active → (tasks table).Retained config.targetBatchRows
  kept : run.Broken ∨ ∀ batchId, start.Pending table batchId → batchId ∈ handedSince past shared table ∨
    batchId ∈ run.held table ∨ shared.work.steps.Pending table batchId
  completed : run.phase = .returned (.stopped .completed) → ∀ batchId, ¬ shared.work.steps.Pending table batchId

section Runs

variable {config : EtlConfig Key Data} {start : WorkPlan Table} {past : List (Event Table)} {table : Table}
  {shared next : Shared Table Key Data} {run after : RunTask Table Key Data} {action : RunAction Table Key Data}

/-- A run that processes no step has not failed yet and holds nothing. -/
theorem Remains.idle (remains : Remains config start past table shared run) (whole : ¬ run.Broken)
    (quiet : ∀ outerSteps batchId active tasks, run.phase ≠ .processing outerSteps batchId active tasks) :
    ∀ batchId, start.Pending table batchId →
      batchId ∈ handedSince past shared table ∨ shared.work.steps.Pending table batchId := by
  intro batchId planned
  have found := remains.kept.resolve_left whole batchId planned
  rw [RunTask.held_of_phase quiet] at found
  simpa using found

/-- A step of another table's task keeps the table. -/
theorem Remains.others {outerSteps batchId : Nat} {active : List Table} {tasks : Table → TaskState Key Data}
    {other : Table} {taskAction : TaskAction Key Data} {result : TaskState Key Data}
    (remains : Remains config start past table shared run)
    (busy : run.phase = .processing outerSteps batchId active tasks) (member : other ∈ active) (differ : table ≠ other)
    (stepped : taskStep config run.checkpointMaxBatchId other shared (tasks other) taskAction = some (next, result)) :
    RunTask.Broken { run with phase := .processing outerSteps batchId active (Function.update tasks other result) } ∨
      ∀ batchId, start.Pending table batchId → batchId ∈ handedSince past next table ∨
        batchId ∈ run.held table ∨ next.work.steps.Pending table batchId := by
  have shape := remains.shape
  simp only [RunTask.Shape, busy] at shape
  have moved := taskStep_moves (shape.2 other member) stepped
  rcases remains.kept with broken | kept
  · left
    simp only [RunTask.Broken, busy] at broken ⊢
    exact broken.update stepped
  · right
    intro plannedId planned
    obtain ⟨events, history⟩ := moved.grown
    have since := handedSince_extend remains.ledger.grown history.symm table
    rcases kept plannedId planned with handed | held | pending
    · left
      rw [since]
      exact List.mem_append_left _ handed
    · exact .inr (.inl held)
    · rcases moved.pending pending with still | ⟨same, _⟩
      · exact .inr (.inr still)
      · exact absurd same differ

/-- A step of the table's own task keeps the table. -/
theorem Remains.own {outerSteps batchId : Nat} {active : List Table} {tasks : Table → TaskState Key Data}
    {result : TaskState Key Data} (remains : Remains config start past table shared run)
    (busy : run.phase = .processing outerSteps batchId active tasks) (member : table ∈ active)
    {taskAction : TaskAction Key Data}
    (stepped : taskStep config run.checkpointMaxBatchId table shared (tasks table) taskAction = some (next, result))
    (keeps : Keeps config table shared (tasks table).held next result) :
    RunTask.Broken { run with phase := .processing outerSteps batchId active (Function.update tasks table result) } ∨
      ∀ batchId, start.Pending table batchId → batchId ∈ handedSince past next table ∨
        batchId ∈ result.held ∨ next.work.steps.Pending table batchId := by
  have shape := remains.shape
  simp only [RunTask.Shape, busy] at shape
  have moved := taskStep_moves (shape.2 table member) stepped
  have holds : run.held table = (tasks table).held := by
    simp [RunTask.held, busy, member]
  rcases keeps.2 with ⟨message, rfl⟩ | ⟨handed, history, conserved⟩
  · left
    simp only [RunTask.Broken]
    exact ⟨table, member, message, Function.update_self _ _ _⟩
  · rcases remains.kept with broken | kept
    · left
      simp only [RunTask.Broken, busy] at broken ⊢
      exact broken.update stepped
    · right
      intro plannedId planned
      have since := handedSince_extend remains.ledger.grown history table
      rw [handedIds_handed, if_pos rfl] at since
      rw [since, List.mem_append]
      rcases kept plannedId planned with before | held | pending
      · exact .inl (.inl before)
      · rw [holds] at held
        rcases conserved plannedId held with given | still | back
        · exact .inl (.inr given)
        · exact .inr (.inl still)
        · exact .inr (.inr back)
      · rcases moved.pending pending with still | ⟨_, inside⟩
        · exact .inr (.inr still)
        · exact .inr (.inl inside)

/-- A step of a run in which the table finds no exhausted source and does not end empty keeps the table. -/
theorem RunMove.remains (moved : RunMove config shared next run after action)
    (remains : Remains config start past table shared run)
    (quiet : ∀ taskAction, action = .task table taskAction → ¬ taskAction.Exhausts)
    (data : run.readsData action = true) : Remains config start past table next after := by
  have shape := moved.shape remains.shape
  have ledger := moved.ledger remains.shape remains.ledger
  cases moved with
  | start fresh same begun =>
      subst same begun
      refine ⟨shape, ledger, remains.unfinished, by simp, .inr ?_, by simp⟩
      intro batchId planned
      rcases remains.idle (by simp [RunTask.Broken, fresh]) (by simp [fresh]) batchId planned with handed | pending
      · exact .inl handed
      · exact .inr (.inr pending)
  | giveUp outerSteps cancelled flush outcome head returned spent =>
      subst returned
      have kept := remains.idle (by simp [RunTask.Broken, head]) (by simp [head])
      rcases spent with ⟨rfl, spent⟩ | ⟨rfl, _, message, failed⟩
      · refine ⟨shape, ledger, remains.unfinished, by simp, .inr ?_, ?_⟩
        · intro batchId planned
          rcases kept batchId planned with handed | pending
          · exact .inl handed
          · exact .inr (.inr pending)
        · intro ended batchId pending
          obtain rfl := Phase.returned.inj ended
          rcases spent with ⟨cancel, _⟩ | ⟨_, paused⟩ | ⟨nothing, unbounded⟩
          · simp at cancel
          · simp at paused
          · obtain ⟨boundary, bounded, _⟩ := WorkPlan.pop_none nothing pending
            rw [Option.mem_def] at bounded
            simp [bounded] at unbounded
      · refine ⟨shape, ledger, remains.unfinished, by simp, .inl (.inr ⟨message, failed⟩), ?_⟩
        intro ended
        rw [failed] at ended
        simp at ended
  | pop outerSteps _ _ popId tables steps head popped same begun =>
      subst same begun
      have kept := remains.idle (by simp [RunTask.Broken, head]) (by simp [head])
      obtain ⟨_, _, _, members, _, remaining⟩ := WorkPlan.pop_some popped
      have unfinished := remains.unfinished
      generalize filtered : tables.filter (· ∉ shared.work.finishedTables) = active at shape ledger ⊢
      -- The table is not finished, so the popped id is held by its task.
      have taken : shared.work.steps.Pending table popId → table ∈ active := by
        intro pending
        rw [← filtered]
        exact List.mem_filter.mpr ⟨(members table).mpr pending, by simpa using unfinished⟩
      refine ⟨shape, ledger, unfinished, ?_, .inr ?_, ?_⟩
      · intro _ _ _ _ same _
        dsimp only at same
        split_ifs at same
        obtain ⟨_, _, _, rfl⟩ := Phase.processing.inj same
        exact ⟨⟨List.Perm.refl _, by simp [ReadLoop.start]⟩, by simp [ReadLoop.start], rfl, config.targetPositive⟩
      · intro batchId planned
        rcases kept batchId planned with handed | pending
        · exact .inl handed
        · by_cases popping : batchId = popId
          · right; left
            subst popping
            have inside := taken pending
            have nonempty : active ≠ [] := List.ne_nil_of_mem inside
            simp [RunTask.held, nonempty, inside, TaskState.held, ReadLoop.start]
          · exact .inr (.inr ((remaining table batchId).mpr ⟨pending, popping⟩))
      · intro ended
        dsimp only at ended
        split_ifs at ended
  | task outerSteps batchId active tasks other taskAction result busy member stepped begun =>
      subst begun
      have cursors := remains.shape
      simp only [RunTask.Shape, busy] at cursors
      have finished := taskStep_finishedTables (taskStep_moves (cursors.2 other member) stepped)
      have retained := remains.retained outerSteps batchId active tasks busy
      have nodup := held_nodup remains.ledger table
      by_cases differ : table = other
      · subst differ
        have holds : run.held table = (tasks table).held := by
          simp [RunTask.held, busy, member]
        have keeps := taskStep_keeps (retained member) (holds ▸ nodup) (quiet taskAction rfl)
          (by simpa [RunTask.readsData, busy] using data) stepped
        refine ⟨shape, ledger, finished ▸ remains.unfinished, ?_, ?_, by simp⟩
        · intro _ _ _ _ same _
          obtain ⟨_, _, _, rfl⟩ := Phase.processing.inj same
          rw [Function.update_self]
          exact keeps.1
        · have held : RunTask.held { run with
              phase := .processing outerSteps batchId active (Function.update tasks table result) } table =
                result.held := by
            simp [RunTask.held, member]
          rw [held]
          exact remains.own busy member stepped keeps
      · refine ⟨shape, ledger, finished ▸ remains.unfinished, ?_, ?_, by simp⟩
        · intro _ _ _ _ same inside
          obtain ⟨_, _, rfl, rfl⟩ := Phase.processing.inj same
          rw [Function.update_of_ne differ]
          exact retained inside
        · have held : RunTask.held { run with
              phase := .processing outerSteps batchId active (Function.update tasks other result) } table =
                run.held table := by
            simp [RunTask.held, busy, differ]
          rw [held]
          exact remains.others busy member differ stepped
  | collect outerSteps batchId active tasks other report busy member done same begun =>
      subst same begun
      have retained := remains.retained outerSteps batchId active tasks busy
      refine ⟨shape, ledger, ?_, ?_, ?_, by simp⟩
      · dsimp only
        split_ifs with finished
        · rw [List.mem_cons, not_or]
          refine ⟨?_, remains.unfinished⟩
          rintro rfl
          have goesOn := retained member
          rw [done] at goesOn
          simp [goesOn report rfl] at finished
        · exact remains.unfinished
      · intro _ _ _ _ same inside
        obtain ⟨_, _, rfl, rfl⟩ := Phase.processing.inj same
        exact retained (List.mem_of_mem_erase inside)
      · rcases remains.kept with broken | kept
        · left
          simp only [RunTask.Broken, busy] at broken ⊢
          exact broken.erase done
        · right
          intro plannedId planned
          rcases kept plannedId planned with handed | held | pending
          · exact .inl handed
          · right; left
            by_cases collected : table = other
            · subst collected
              simp [RunTask.held, busy, member, done, TaskState.held] at held
            · simpa [RunTask.held, busy, List.mem_erase_of_ne collected] using held
          · exact .inr (.inr pending)
  | collectError _ _ _ _ _ message _ _ _ same begun =>
      subst same begun
      exact ⟨shape, ledger, remains.unfinished, by simp, .inl (.inr ⟨message, rfl⟩), by simp⟩
  | stepDone _ _ _ busy same begun =>
      subst same begun
      refine ⟨shape, ledger, remains.unfinished, by simp, ?_, by simp⟩
      rcases remains.kept with broken | kept
      · simp [RunTask.Broken, busy, FailingTask] at broken
      · right
        intro plannedId planned
        rcases kept plannedId planned with handed | held | pending
        · exact .inl handed
        · simp [RunTask.held, busy] at held
        · exact .inr (.inr pending)
  | cancel _ _ _ _ _ same begun =>
      subst same begun
      exact ⟨shape, ledger, remains.unfinished, by simp, .inl (.inl rfl), by simp⟩

end Runs

/-- A read of the table that the pipeline joins finds the source exhausted. -/
def PipelineAction.Exhausts (table : Table) (action : PipelineAction Table Key Data) : Prop :=
  ∃ index taskAction, action = .background index (.task table taskAction) ∧ taskAction.Exhausts

section Pipelines

variable {config : EtlConfig Key Data} {start : WorkPlan Table} {past : List (Event Table)} {table : Table}
  {metadata : Metadata Table} {pipeline next : ETLPipeline Table Key Data} {action : PipelineAction Table Key Data}

/-- A run that starts where nothing is held keeps what the last one has kept. -/
theorem Remains.spawn {shared : Shared Table Key Data} {stepLimit : Option Nat}
    (ledger : Ledger start.Pending past shared fun _ => []) (unfinished : table ∉ shared.work.finishedTables)
    (kept : ∀ batchId, start.Pending table batchId →
      batchId ∈ handedSince past shared table ∨ shared.work.steps.Pending table batchId) :
    Remains config start past table shared (.spawn stepLimit) where
  shape := trivial
  ledger := ledger
  unfinished := unfinished
  retained := by simp [RunTask.spawn]
  kept := by
    right
    intro batchId planned
    rcases kept batchId planned with handed | pending
    · exact .inl handed
    · exact .inr (.inr pending)
  completed := by simp [RunTask.spawn]

/-- A continued pipeline keeps the table. -/
theorem attended_continue (attended : Attended (Remains config start past table) metadata pipeline) :
    Attended (Remains config start past table) metadata (perform .continuePipeline pipeline).2 := by
  by_cases paused : pipeline.state = .paused
  · obtain ⟨⟨run, ended, remains⟩, _⟩ := attended.settled (by simp [paused])
    rw [paused] at ended
    have quiet : ∀ outerSteps batchId active tasks, run.phase ≠ .processing outerSteps batchId active tasks := by
      simp [ended]
    refine attended.resume paused (Remains.spawn ?_ remains.unfinished ?_)
    · rw [← RunTask.held_of_phase quiet]
      exact remains.ledger
    · exact remains.idle (by simp [RunTask.Broken, ended]) quiet
  · simpa only [perform, ne_eq, paused, not_false_eq_true, if_true] using attended

/-- A step in which the table finds no exhausted source keeps the table. -/
theorem attended_step (attended : Attended (Remains config start past table) metadata pipeline)
    (quiet : ¬ action.Exhausts table) (only : ∀ call, action = .call call → call = .continuePipeline)
    (data : readsData pipeline action = true) (stepped : pipelineStep config pipeline action = some next) :
    Attended (Remains config start past table) metadata next := by
  have moved := pipelineStep_moves stepped
  by_cases calls : ∃ call, action = .call call
  · obtain ⟨call, rfl⟩ := calls
    obtain rfl := only call rfl
    cases moved with
    | call _ _ same =>
        rw [same]
        exact attended_continue attended
  · refine attended.step_live (fun call same => calls ⟨call, same⟩) ?_ moved
    intro index run runAction after isRun found remains runStepped
    subst isRun
    refine (runStep_moves runStepped).remains remains ?_ ?_
    · rintro taskAction rfl exhausts
      exact quiet ⟨index, taskAction, rfl, exhausts⟩
    · simpa [readsData, found] using data

end Pipelines

/-- As long as no task ends its reads without a record batch, a table is finished only after one of its reads has
found the source exhausted, and a completed pipeline has handed over every planned id of the other tables. -/
theorem retired_only_when_exhausted (config : EtlConfig Key Data) (environment : Environment Table Key Data)
    (pipeline : ETLPipeline Table Key Data) (stepLimit : Option Nat) (actions : List (PipelineAction Table Key Data))
    (final : ETLPipeline Table Key Data) (idle : pipeline.initializing = none)
    (settled : ∀ task ∈ pipeline.tasks, task.status ≠ .live)
    (unfinished : pipeline.shared.work.finishedTables = [])
    (onlyContinued : ∀ call, .call call ∈ actions → call = .continuePipeline)
    (ran : (pipelineMachine config environment pipeline.metadata).runWhen readsData
      (pipeline.spawnRunTask stepLimit) actions = some final) (table : Table) :
    (table ∈ final.shared.work.finishedTables → ∃ action ∈ actions, action.Exhausts table) ∧
      (final.state = .stopped .completed → (∀ action ∈ actions, ¬ action.Exhausts table) →
        ∀ batchId, pipeline.shared.work.steps.Pending table batchId →
          batchId ∈ handedSince pipeline.shared.history final.shared table) := by
  have remains : (∀ action ∈ actions, ¬ action.Exhausts table) →
      Attended (Remains config pipeline.shared.work.steps pipeline.shared.history table) pipeline.metadata final := by
    intro quiet
    have start : Attended (Remains config pipeline.shared.work.steps pipeline.shared.history table) pipeline.metadata
        (pipeline.spawnRunTask stepLimit) := by
      have since : ∀ other, handedSince pipeline.shared.history pipeline.shared other = [] := by
        intro other
        simp [handedSince]
      refine Attended.spawn pipeline idle rfl settled (Remains.spawn ?_ (by simp [unfinished]) fun _ => .inr)
      exact ⟨List.prefix_refl _, by simp [since], by simp [since], fun _ _ => id, by simp [since]⟩
    -- The machine of the actions that neither exhaust the table nor start another run.
    let calm : Machine (ETLPipeline Table Key Data) (PipelineAction Table Key Data) :=
      ⟨pipelineStep config, fun action => ¬ action.Exhausts table ∧ ∀ call, action = .call call → call = .continuePipeline⟩
    have reached : calm.ReachesWhen readsData (pipeline.spawnRunTask stepLimit) final := by
      refine calm.reachesWhen_of_runWhen (fun action member => ⟨quiet action member, ?_⟩) ran
      rintro call rfl
      exact onlyContinued call member
    refine reached.invariant _ ?_ start
    rintro state next attended ⟨action, ⟨exhausts, only⟩, data, stepped⟩
    exact attended_step attended exhausts only data stepped
  constructor
  · intro retired
    by_contra none
    push Not at none
    obtain ⟨run, holds⟩ := (remains none).holds
    exact holds.unfinished retired
  · intro completed quiet batchId planned
    obtain ⟨⟨run, ended, holds⟩, _⟩ := (remains quiet).settled (by simp [completed])
    rw [completed] at ended
    have kept := holds.idle (by simp [RunTask.Broken, ended]) (by simp [ended]) batchId planned
    exact kept.resolve_right (holds.completed ended batchId)

/-- A stored batch without record batches. -/
def emptyRead : ReadOutcome Nat Unit := .ok (some ⟨[], ["key"]⟩)

/-- The first batch of the table is stored without record batches. -/
def emptyEnvironment : Environment Unit Nat Unit :=
  { sampleEnvironment with reads := fun _ batchId outcome => outcome = if batchId = 0 then emptyRead else sampleRead batchId }

def plannedPipeline : ETLPipeline Unit Nat Unit :=
  { ETLPipeline.new sampleMetadata with shared := ⟨⟨samplePlan, []⟩, fun _ => none, [], []⟩ }

/-- The first batch is empty, but the loop that reads it goes on to the second one. -/
def emptyThenData : List (PipelineAction Unit Nat Unit) :=
  [.background 0 .start, .background 0 (.loopHead false (.ok ())), .background 0 (.task () .reserve),
    .background 0 (.task () (.join 0 emptyRead)), .background 0 (.task () .reserve),
    .background 0 (.task () (.join 1 (sampleRead 1))), .background 0 (.task () .nextBatch),
    .background 0 (.task () .nextSegment), .background 0 (.task () (.writeChunk 0 (.ok ()))),
    .background 0 (.task () .finish), .background 0 (.collect ()), .background 0 .stepDone,
    .background 0 (.loopHead false (.ok ())), .publish 0]

theorem retired_only_when_exhausted_sample :
    ∃ final, (pipelineMachine sampleConfig emptyEnvironment sampleMetadata).runWhen readsData
        (plannedPipeline.spawnRunTask none) emptyThenData = some final ∧ final.state = .stopped .completed ∧
      () ∉ final.shared.work.finishedTables ∧ 1 ∈ handedSince [] final.shared () := by
  have ended : ((pipelineMachine sampleConfig emptyEnvironment sampleMetadata).runWhen readsData
      (plannedPipeline.spawnRunTask none) emptyThenData).map ETLPipeline.state = some (.stopped .completed) := by
    decide
  obtain ⟨final, ran, completed⟩ := Option.map_eq_some_iff.mp ended
  have quiet : ∀ action ∈ emptyThenData, ¬ action.Exhausts () := by
    simp [emptyThenData, PipelineAction.Exhausts, TaskAction.Exhausts, emptyRead, sampleRead]
  have planned : plannedPipeline.shared.work.steps.Pending () 1 := by
    simp [plannedPipeline, samplePlan, WorkPlan.pending_push]
  obtain ⟨retired, handed⟩ := retired_only_when_exhausted sampleConfig emptyEnvironment plannedPipeline none
    emptyThenData final rfl (by simp [plannedPipeline, ETLPipeline.new]) rfl (by simp [emptyThenData]) ran ()
  refine ⟨final, ran, completed, ?_, handed completed quiet 1 planned⟩
  intro finished
  obtain ⟨action, member, exhausts⟩ := retired finished
  exact quiet action member exhausts

/-- The only batch of the first interval is empty, and the second interval is never read. -/
def emptyInterval : List (PipelineAction Unit Nat Unit) :=
  [.call (.run 1 [()]), .background 0 .start, .background 0 (.loopHead false (.ok ())),
    .background 0 (.task () .reserve), .background 0 (.task () (.join 0 emptyRead)), .background 0 (.collect ()),
    .background 0 .stepDone, .background 0 (.loopHead false (.ok ())), .publish 0, .call .continuePipeline,
    .background 1 .start, .background 1 (.loopHead false (.ok ())), .background 1 (.loopHead false (.ok ())),
    .publish 1, .call .continuePipeline, .background 2 .start, .background 2 (.loopHead false (.ok ())), .publish 2]

/-- A table whose first interval reads as empty batches is finished although no read has found its source exhausted,
and its later id is never handed over. -/
theorem empty_interval_retires :
    (∀ action ∈ emptyInterval, emptyEnvironment.AdmitsPipeline sampleMetadata action) ∧
    ∃ final, (pipelineMachine sampleConfig emptyEnvironment sampleMetadata).run (.new sampleMetadata) emptyInterval =
        some final ∧
      (∀ action ∈ emptyInterval, ¬ action.Exhausts ()) ∧ () ∈ final.shared.work.finishedTables ∧
      final.state = .stopped .completed ∧ sampleMetadata.Planned () 1 ∧ 1 ∉ handedIds () final.shared.history := by
  have admitted : ∀ action ∈ emptyInterval, emptyEnvironment.AdmitsPipeline sampleMetadata action := by
    simp [emptyInterval, Environment.AdmitsPipeline, Environment.AdmitsRun, Environment.AdmitsTask,
      Environment.AdmitsFlush, sampleMetadata, emptyEnvironment]
  have ended : ((pipelineMachine sampleConfig emptyEnvironment sampleMetadata).run (.new sampleMetadata)
      emptyInterval).map (fun final => (final.shared.work.finishedTables, final.state,
        handedIds () final.shared.history)) = some ([()], .stopped .completed, []) := by
    decide
  obtain ⟨final, ran, outcome⟩ := Option.map_eq_some_iff.mp ended
  simp only [Prod.mk.injEq] at outcome
  obtain ⟨finished, completed, handed⟩ := outcome
  refine ⟨admitted, final, ran, ?_, by simp [finished], completed, ⟨by simp [sampleMetadata], by decide⟩,
    by simp [handed]⟩
  simp [emptyInterval, PipelineAction.Exhausts, TaskAction.Exhausts, emptyRead]

end Spicebench.Etl
