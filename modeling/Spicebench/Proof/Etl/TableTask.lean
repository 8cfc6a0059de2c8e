import Spicebench.Construction.Etl.TableTask
import Spicebench.Proof.Etl.WorkPlan

namespace Spicebench.Etl
open Library DataGeneration

variable {Table Key Data : Type} [DecidableEq Table]

/-- These ids left the plan for this task and were not handed over yet. -/
def TaskState.held : TaskState Key Data → List Nat
  | .initial batchId => [batchId]
  | .reading reads => reads.consumed ++ reads.scheduled
  | _ => []

/-- The reservation cursor is the last id that the loop has reserved. -/
def TaskState.CursorLast : TaskState Key Data → Prop
  | .reading reads => (reads.consumed ++ reads.scheduled).getLast? = some reads.reserveCursor
  | _ => True

/-- A task counts one while it still reads. -/
def TaskState.reads : TaskState Key Data → Nat
  | .initial _ => 1
  | .reading _ => 1
  | _ => 0

/-- These are the steps that a segment still needs: one to open it and one for each chunk. -/
def OpSegment.weight (config : EtlConfig Key Data) (segment : OpSegment Key Data) : Nat :=
  1 + (sinkChunks config.sinkChunkRows segment).length

def batchWeight (config : EtlConfig Key Data) (keyColumns : List String)
    (batch : RecordBatch Key Data) : Nat :=
  1 + ((buildSegmentsForBatch config.opIndexSort batch keyColumns config.mutations).map
    (OpSegment.weight config)).sum

/-- The weight of a task falls with each step that neither reserves nor leaves the read loop. -/
def TaskState.weight (config : EtlConfig Key Data) : TaskState Key Data → Nat
  | .reading reads => reads.inFlight.length + reads.canReserveMore.toNat
  | .writing writes => 1 + writes.chunks.length + (writes.segments.map (OpSegment.weight config)).sum +
      (writes.pending.map (batchWeight config writes.keyColumns)).sum
  | _ => 0

/-- This is everything that one step of a table task can do to the plan and to the history. -/
inductive TaskMove (config : EtlConfig Key Data) (maxBatchId : Option Nat) (table : Table)
    (shared next : Shared Table Key Data) (task after : TaskState Key Data) : Prop where
  | stay (failures : List (Event Table)) (work : next.work = shared.work)
      (history : next.history = shared.history ++ failures)
      (onlyFailures : ∀ event ∈ failures, event = .failed)
      (held : after.held = task.held) (reads : after.reads = task.reads) (cursorLast : after.CursorLast)
      (lowers : after.weight config < task.weight config)
  | reserve (batchId cursor : Nat)
      (reserved : shared.work.steps.reserveNextBatchIdForTable table cursor maxBatchId =
        some (batchId, next.work.steps))
      (last : task.held.getLast? = some cursor)
      (finished : next.work.finishedTables = shared.work.finishedTables)
      (history : next.history = shared.history) (held : after.held = task.held ++ [batchId])
      (reads : after.reads = task.reads) (cursorLast : after.CursorLast)
  | leave (handed restored : List Nat) (failures : List (Event Table))
      (steps : next.work.steps = shared.work.steps.restoreUnconsumedReservations table restored)
      (finished : next.work.finishedTables = shared.work.finishedTables)
      (history : next.history = shared.history ++ handed.map (Event.handed table) ++ failures)
      (onlyFailures : ∀ event ∈ failures, event = .failed)
      (kept : (handed ++ restored).Sublist task.held) (later : restored.Sublist task.held.tail)
      (held : after.held = []) (read : task.reads = 1) (left : after.reads = 0)

omit [DecidableEq Table] in
theorem TaskState.cursorLast_of_reads {task : TaskState Key Data} (left : task.reads = 0) :
    task.CursorLast := by
  cases task with
  | reading reads => simp [TaskState.reads] at left
  | initial batchId => trivial
  | writing writes => trivial
  | done result => trivial

theorem TaskMove.after_cursorLast {config : EtlConfig Key Data} {maxBatchId : Option Nat} {table : Table}
    {shared next : Shared Table Key Data} {task after : TaskState Key Data}
    (moved : TaskMove config maxBatchId table shared next task after) : after.CursorLast := by
  cases moved with
  | stay _ _ _ _ _ _ cursorLast => exact cursorLast
  | reserve _ _ _ _ _ _ _ _ cursorLast => exact cursorLast
  | leave _ _ _ _ _ _ _ _ _ _ _ left => exact TaskState.cursorLast_of_reads left

/-- Draining keeps the scheduled ids in line behind the consumed ones. -/
theorem drain_again {target : Nat} {scheduled : List Nat} {reads next : ReadLoop Key Data}
    (drained : reads.drain target scheduled = .again next) :
    next.consumed ++ next.scheduled = reads.consumed ++ scheduled ∧
      next.reserveCursor = reads.reserveCursor ∧ next.inFlight = reads.inFlight ∧
      next.canReserveMore = reads.canReserveMore := by
  induction scheduled generalizing reads with
  | nil =>
      obtain rfl : _ = next := Drained.again.inj drained
      exact ⟨rfl, rfl, rfl, rfl⟩
  | cons batchId rest ih =>
      simp only [ReadLoop.drain] at drained
      split at drained
      · obtain rfl : _ = next := Drained.again.inj drained
        exact ⟨rfl, rfl, rfl, rfl⟩
      · split at drained <;> simp at drained
      · split at drained
        · simp at drained
        · obtain ⟨line, others⟩ := ih drained
          refine ⟨?_, others⟩
          rw [line]
          simp [ReadLoop.merge]

/-- The loop hands over and restores disjoint parts of its line, and never restores its first id. -/
theorem drain_leave {target : Nat} {scheduled : List Nat} {reads : ReadLoop Key Data}
    {returned : ReadReturn Key Data} (drained : reads.drain target scheduled = .leave returned) :
    (returned.consumed ++ returned.restored).Sublist (reads.consumed ++ scheduled) ∧
      returned.restored.Sublist (reads.consumed ++ scheduled).tail := by
  induction scheduled generalizing reads with
  | nil => simp [ReadLoop.drain] at drained
  | cons batchId rest ih =>
      have behind : rest.Sublist (reads.consumed ++ batchId :: rest).tail := by
        cases reads.consumed with
        | nil => exact List.Sublist.refl _
        | cons first others => exact (List.sublist_cons_self _ _).trans (List.sublist_append_right _ _)
      simp only [ReadLoop.drain] at drained
      split at drained
      · simp at drained
      · split at drained
        · obtain rfl : _ = returned := Drained.leave.inj drained
          exact ⟨by simp [ReadLoop.toReturn], List.nil_sublist _⟩
        · obtain rfl : _ = returned := Drained.leave.inj drained
          exact ⟨List.Sublist.append_left (List.sublist_cons_self _ _) _, behind⟩
      · split at drained
        · obtain rfl : _ = returned := Drained.leave.inj drained
          exact ⟨by simp [ReadLoop.toReturn, ReadLoop.merge], behind⟩
        · simpa [ReadLoop.merge] using ih drained

section Moves

variable (config : EtlConfig Key Data) (maxBatchId : Option Nat) (table : Table)
  (shared : Shared Table Key Data)

/-- A failed read drops everything that the task holds. -/
theorem failedRead_moves (task : TaskState Key Data) (message : String) (read : task.reads = 1) :
    TaskMove config maxBatchId table shared shared.fail task (.done (.error message)) :=
  .leave [] [] [.failed] rfl rfl (by simp [Shared.fail]) (by simp) (by simp) (by simp) rfl read rfl

/-- Leaving the read loop restores some ids and hands over some ids before them. -/
theorem leaveReads_moves (batchId : Nat) (returned : ReadReturn Key Data)
    (task : TaskState Key Data) (read : task.reads = 1)
    (kept : (returned.consumed ++ returned.restored).Sublist task.held)
    (later : returned.restored.Sublist task.held.tail) :
    TaskMove config maxBatchId table shared (leaveReads config table batchId shared returned).1 task
      (leaveReads config table batchId shared returned).2 := by
  unfold leaveReads
  dsimp only
  split
  · exact .leave [] returned.restored [] rfl rfl (by simp [Shared.withSteps]) (by simp)
      ((List.sublist_append_right _ _).trans kept) later rfl read rfl
  · exact .leave returned.consumed returned.restored [] rfl rfl (by simp [Shared.hand, Shared.withSteps])
      (by simp) kept later rfl read rfl

theorem joinRead_moves (reads : ReadLoop Key Data) (batchId : Nat) (member : batchId ∈ reads.inFlight)
    (cursorLast : (TaskState.reading reads).CursorLast) (outcome : ReadOutcome Key Data) :
    TaskMove config maxBatchId table shared (joinRead config table shared reads batchId outcome).1
      (.reading reads) (joinRead config table shared reads batchId outcome).2 := by
  unfold joinRead
  cases outcome with
  | error message => exact failedRead_moves config maxBatchId table shared _ message rfl
  | ok result =>
      dsimp only
      split
      · rename_i returned drained
        obtain ⟨kept, later⟩ := drain_leave drained
        exact leaveReads_moves config maxBatchId table shared _ returned _ rfl kept later
      · rename_i next drained
        obtain ⟨line, cursor, flying, more⟩ := drain_again drained
        split
        · apply leaveReads_moves
          · rfl
          · simp only [ReadLoop.toReturn, List.append_nil, TaskState.held]
            exact (List.sublist_append_left _ next.scheduled).trans (line ▸ List.Sublist.refl _)
          · exact List.nil_sublist _
        · have last : (TaskState.reading next).CursorLast := by
            simp only [TaskState.CursorLast, line, cursor]
            exact cursorLast
          refine .stay [] rfl (by simp) (by simp) line rfl last ?_
          have nonempty := List.length_pos_of_mem member
          simp only [TaskState.weight, flying, more, List.length_erase_of_mem member]
          omega

theorem firstRead_moves (batchId : Nat) (outcome : ReadOutcome Key Data) :
    TaskMove config maxBatchId table shared (firstRead config table shared batchId outcome).1
      (.initial batchId) (firstRead config table shared batchId outcome).2 := by
  unfold firstRead
  split
  · exact failedRead_moves config maxBatchId table shared _ _ rfl
  · exact failedRead_moves config maxBatchId table shared _ _ rfl
  · exact .leave [batchId] [] [] rfl rfl (by simp [Shared.hand]) (by simp) (by simp [TaskState.held])
      (by simp) rfl rfl rfl

end Moves

/-- Every step of a table task is one of the three moves. -/
theorem taskStep_moves {config : EtlConfig Key Data} {maxBatchId : Option Nat} {table : Table}
    {shared next : Shared Table Key Data} {task after : TaskState Key Data}
    {action : TaskAction Key Data} (cursorLast : task.CursorLast)
    (stepped : taskStep config maxBatchId table shared task action = some (next, after)) :
    TaskMove config maxBatchId table shared next task after := by
  unfold taskStep at stepped
  split at stepped
  · split at stepped
    · rename_i batchId _ outcome same
      have moved := firstRead_moves config maxBatchId table shared batchId outcome
      rw [Option.some.inj stepped] at moved
      exact moved
    · simp at stepped
  · split at stepped
    · rename_i wanted
      split at stepped
      · obtain ⟨rfl, rfl⟩ := Prod.mk.inj (Option.some.inj stepped)
        refine .stay [] rfl (by simp) (by simp) rfl rfl cursorLast ?_
        simp only [ReadLoop.wantsMore, Bool.and_eq_true] at wanted
        simp [TaskState.weight, wanted.1.1]
      · rename_i batchId steps reserved
        obtain ⟨rfl, rfl⟩ := Prod.mk.inj (Option.some.inj stepped)
        exact .reserve batchId _ reserved cursorLast rfl rfl (by simp [TaskState.held]) rfl
          (by simp [TaskState.CursorLast])
    · simp at stepped
  · split at stepped
    · simp at stepped
    · split at stepped
      · rename_i batchId outcome _ member
        have moved := joinRead_moves config maxBatchId table shared _ batchId member cursorLast outcome
        rw [Option.some.inj stepped] at moved
        exact moved
      · simp at stepped
  · split at stepped
    · simp at stepped
    · split at stepped
      · rename_i reads _ _
        have moved := leaveReads_moves config maxBatchId table shared reads.startBatchId
          (reads.toReturn false []) (.reading reads) rfl (by simp [ReadLoop.toReturn, TaskState.held])
          (List.nil_sublist _)
        rw [Option.some.inj stepped] at moved
        exact moved
      · simp at stepped
  · split at stepped
    · rename_i chunks segments pending
      obtain ⟨rfl, rfl⟩ := Prod.mk.inj (Option.some.inj stepped)
      refine .stay [] rfl (by simp) (by simp) rfl rfl trivial ?_
      simp only [TaskState.weight, chunks, segments, pending, batchWeight, List.map_cons, List.sum_cons,
        List.map_nil, List.sum_nil, List.length_nil]
      omega
    · simp at stepped
  · split at stepped
    · rename_i chunks segments
      obtain ⟨rfl, rfl⟩ := Prod.mk.inj (Option.some.inj stepped)
      refine .stay [] rfl (by simp) (by simp) rfl rfl trivial ?_
      simp only [TaskState.weight, chunks, segments, OpSegment.weight, List.map_cons, List.sum_cons,
        List.length_nil]
      omega
    · simp at stepped
  · split at stepped
    · rename_i found
      obtain ⟨rfl, rfl⟩ := Prod.mk.inj (Option.some.inj stepped)
      refine .stay [] rfl (by simp) (by simp) rfl rfl trivial ?_
      obtain ⟨inside, _⟩ := List.getElem?_eq_some_iff.mp found
      simp only [TaskState.weight, List.length_eraseIdx, inside, if_true]
      omega
    · obtain ⟨rfl, rfl⟩ := Prod.mk.inj (Option.some.inj stepped)
      exact .stay [.failed] rfl rfl (by simp) rfl rfl trivial (by simp [TaskState.weight])
    · simp at stepped
  · split at stepped
    · obtain ⟨rfl, rfl⟩ := Prod.mk.inj (Option.some.inj stepped)
      exact .stay [] rfl (by simp) (by simp) rfl rfl trivial (by simp [TaskState.weight])
    · simp at stepped
  · simp at stepped

end Spicebench.Etl
