import Spicebench.Proof.Etl.HealthyTask
import Spicebench.Proof.Etl.Segments

namespace Spicebench.Etl
open Library DataGeneration

variable {Table Key Data : Type} [DecidableEq Table]

/-- The source holds the rows of each logical batch and the schema of each table. -/
structure Source (Table Key Data : Type) where
  rows : Table → Nat → List (Row Key Data)
  schema : Table → Schema

/-- The read of a batch returns the rows of the source. -/
def Source.Answers (source : Source Table Key Data) (table : Table) (batchId : Nat)
    (result : ReadResult Key Data) : Prop :=
  result.rows = source.rows table batchId ∧ ∀ batch ∈ result.batches, batch.schema = source.schema table

/-- Every read in the action returns the rows of the source. -/
def TaskAction.Answered (source : Source Table Key Data) (table : Table) : TaskAction Key Data → Prop
  | .firstRead batchId outcome => ∀ result, outcome = .ok (some result) → source.Answers table batchId result
  | .join batchId outcome => ∀ result, outcome = .ok (some result) → source.Answers table batchId result
  | _ => True

/-- The gathered batches are the rows of the consumed ids. -/
structure ReadLoop.Faithful (source : Source Table Key Data) (table : Table)
    (reads : ReadLoop Key Data) : Prop where
  gathered : reads.allBatches.flatMap RecordBatch.rows = reads.consumed.flatMap (source.rows table)
  schema : ∀ batch ∈ reads.allBatches, batch.schema = source.schema table
  completed : ∀ entry ∈ reads.completed, ∀ result, entry.2 = some result →
    source.Answers table entry.1 result

def TaskState.Faithful (source : Source Table Key Data) (table : Table) : TaskState Key Data → Prop
  | .reading reads => reads.Faithful source table
  | _ => True

/-- These rows were handed to the write loop and are not in the sink yet. -/
def TaskState.unwritten : TaskState Key Data → List (Key × Data)
  | .writing writes => writes.chunks.flatten ++ writes.segments.flatMap OpSegment.rows ++
      writes.pending.flatMap fun batch => stripInternalColumns batch.rows
  | _ => []

/-- This is the net count of a coalesced batch. -/
def batchNet (config : EtlConfig Key Data) (keyColumns : List String) (batch : RecordBatch Key Data) : Int :=
  netDelta (buildSegmentsForBatch config.opIndexSort batch keyColumns config.mutations)

/-- This is the net count of the batches that are not counted yet. -/
def TaskState.uncounted (config : EtlConfig Key Data) : TaskState Key Data → Int
  | .writing writes => (writes.pending.map (batchNet config writes.keyColumns)).sum
  | _ => 0

/-- These rows of a table are in the sink. -/
def sinkRows (table : Table) (sink : List (SinkWrite Table Key Data)) : List (Key × Data) :=
  (sink.filter (·.table = table)).flatMap SinkWrite.rows

@[simp] theorem sinkRows_append (table : Table) (first second : List (SinkWrite Table Key Data)) :
    sinkRows table (first ++ second) = sinkRows table first ++ sinkRows table second := by
  simp [sinkRows]

/-- A task step hands over the rows of some ids, and moves rows towards the sink and the counts. -/
structure Tally (config : EtlConfig Key Data) (source : Source Table Key Data) (table : Table)
    (shared : Shared Table Key Data) (task : TaskState Key Data)
    (result : Shared Table Key Data × TaskState Key Data) (handed : List Nat)
    (batches : List (RecordBatch Key Data)) (keyColumns : List String) : Prop where
  faithful : result.2.Faithful source table
  history : result.1.history = shared.history ++ handed.map (Event.handed table)
  rows : batches.flatMap RecordBatch.rows = handed.flatMap (source.rows table)
  schema : ∀ batch ∈ batches, batch.schema = source.schema table
  sink : (sinkRows table result.1.sink ++ result.2.unwritten).Perm (sinkRows table shared.sink ++
    (task.unwritten ++ stripInternalColumns (handed.flatMap (source.rows table))))
  net : (result.1.netRows table).getD 0 + result.2.uncounted config =
    (shared.netRows table).getD 0 + (task.uncounted config + (batches.map (batchNet config keyColumns)).sum)
  otherSink : ∀ other, other ≠ table → sinkRows other result.1.sink = sinkRows other shared.sink
  otherNet : ∀ other, other ≠ table → result.1.netRows other = shared.netRows other

/-- A step that touches neither the sink nor the counts is tallied with nothing handed over. -/
theorem Tally.quiet {config : EtlConfig Key Data} {source : Source Table Key Data} {table : Table}
    {shared next : Shared Table Key Data} {task after : TaskState Key Data}
    (faithful : after.Faithful source table) (history : next.history = shared.history)
    (sink : next.sink = shared.sink) (netRows : next.netRows = shared.netRows)
    (unwritten : after.unwritten = task.unwritten) (uncounted : after.uncounted config = task.uncounted config) :
    Tally config source table shared task (next, after) [] [] [] where
  faithful := faithful
  history := by simp [history]
  rows := rfl
  schema := by simp
  sink := by simp [sink, unwritten, stripInternalColumns]
  net := by simp [netRows, uncounted]
  otherSink := by simp [sink]
  otherNet := by simp [netRows]

/-- Starting the writes hands the gathered rows over. -/
theorem startWrites_tally (config : EtlConfig Key Data) (source : Source Table Key Data) (table : Table)
    (shared next : Shared Table Key Data) (batchId : Nat) (keyColumns : List String)
    {batches : List (RecordBatch Key Data)} {handed : List Nat} (report : TaskReport)
    {task : TaskState Key Data} (reading : task.unwritten = []) (waiting : task.uncounted config = 0)
    (history : next.history = shared.history ++ handed.map (Event.handed table))
    (sink : next.sink = shared.sink) (netRows : next.netRows = shared.netRows)
    (rows : batches.flatMap RecordBatch.rows = handed.flatMap (source.rows table))
    (schema : ∀ batch ∈ batches, batch.schema = source.schema table) :
    Tally config source table shared task
      (next, startWrites config batchId keyColumns batches report) handed
      (coalesceBatches config.targetBatchRows batches) keyColumns where
  faithful := trivial
  history := history
  rows := by rw [coalesceBatches_rows config.targetPositive, rows]
  schema := coalesceBatches_schema schema
  sink := by
    have same : (coalesceBatches config.targetBatchRows batches).flatMap
        (fun batch => stripInternalColumns batch.rows) =
        stripInternalColumns (handed.flatMap (source.rows table)) := by
      rw [← rows, ← coalesceBatches_rows config.targetPositive, stripInternalColumns, List.map_flatMap]
      rfl
    rw [sink, reading, List.nil_append]
    simp [TaskState.unwritten, startWrites, same]
  net := by
    rw [netRows, waiting, zero_add]
    rfl
  otherSink := by simp [sink]
  otherNet := by simp [netRows]

omit [DecidableEq Table] in
/-- Merging a completed read keeps the loop faithful. -/
theorem ReadLoop.Faithful.merge {source : Source Table Key Data} {table : Table}
    {reads : ReadLoop Key Data} (faithful : reads.Faithful source table) {batchId : Nat}
    {result : ReadResult Key Data} (answers : source.Answers table batchId result) :
    (reads.merge batchId result).Faithful source table := by
  constructor
  · have rows : result.batches.flatMap RecordBatch.rows = source.rows table batchId := answers.1
    simp [ReadLoop.merge, faithful.gathered, rows]
  · intro batch member
    rcases List.mem_append.mp member with old | new
    · exact faithful.schema batch old
    · exact answers.2 batch new
  · intro entry member
    exact faithful.completed entry (List.mem_of_mem_filter member)

omit [DecidableEq Table] in
theorem drain_again_faithful {source : Source Table Key Data} {table : Table} {target : Nat}
    {scheduled : List Nat} {reads next : ReadLoop Key Data} (faithful : reads.Faithful source table)
    (drained : reads.drain target scheduled = .again next) : next.Faithful source table := by
  induction scheduled generalizing reads with
  | nil =>
      obtain rfl : _ = next := Drained.again.inj drained
      exact ⟨faithful.gathered, faithful.schema, faithful.completed⟩
  | cons batchId rest ih =>
      simp only [ReadLoop.drain] at drained
      split at drained
      · obtain rfl : _ = next := Drained.again.inj drained
        exact ⟨faithful.gathered, faithful.schema, faithful.completed⟩
      · split at drained <;> simp at drained
      · rename_i result found
        split at drained
        · simp at drained
        · have answers := faithful.completed _ (mem_completed_of_lookup found) result rfl
          exact ih (faithful.merge answers) drained

omit [DecidableEq Table] in
/-- The loop returns the rows of the ids that it consumed. -/
theorem drain_leave_faithful {source : Source Table Key Data} {table : Table} {target : Nat}
    {scheduled : List Nat} {reads : ReadLoop Key Data} {returned : ReadReturn Key Data}
    (faithful : reads.Faithful source table)
    (drained : reads.drain target scheduled = .leave returned) (nonempty : returned.batches ≠ []) :
    returned.batches.flatMap RecordBatch.rows = returned.consumed.flatMap (source.rows table) ∧
      ∀ batch ∈ returned.batches, batch.schema = source.schema table := by
  induction scheduled generalizing reads with
  | nil => simp [ReadLoop.drain] at drained
  | cons batchId rest ih =>
      simp only [ReadLoop.drain] at drained
      split at drained
      · simp at drained
      · split at drained
        · obtain rfl : _ = returned := Drained.leave.inj drained
          exact ⟨faithful.gathered, faithful.schema⟩
        · obtain rfl : _ = returned := Drained.leave.inj drained
          exact absurd rfl nonempty
      · rename_i result found
        have merged := faithful.merge (faithful.completed _ (mem_completed_of_lookup found) result rfl)
        split at drained
        · obtain rfl : _ = returned := Drained.leave.inj drained
          exact ⟨merged.gathered, merged.schema⟩
        · exact ih merged drained

section Steps

variable {config : EtlConfig Key Data} {source : Source Table Key Data} {table : Table}
  {shared : Shared Table Key Data}

/-- Leaving the read loop with data hands over the rows of the consumed ids. -/
theorem leaveReads_tally (batchId : Nat) {returned : ReadReturn Key Data} {task : TaskState Key Data}
    (reading : task.unwritten = []) (waiting : task.uncounted config = 0)
    (rows : returned.batches ≠ [] →
      returned.batches.flatMap RecordBatch.rows = returned.consumed.flatMap (source.rows table) ∧
        ∀ batch ∈ returned.batches, batch.schema = source.schema table) :
    ∃ handed batches keyColumns, Tally config source table shared task
      (leaveReads config table batchId shared returned) handed batches keyColumns := by
  unfold leaveReads
  dsimp only
  split_ifs with empty
  · exact ⟨[], [], [], Tally.quiet trivial rfl rfl rfl reading.symm waiting.symm⟩
  · obtain ⟨same, schema⟩ := rows (by simpa using empty)
    exact ⟨_, _, _, startWrites_tally config source table shared _ batchId returned.keyColumns _
      reading waiting rfl rfl rfl same schema⟩

theorem joinRead_tally {reads : ReadLoop Key Data} (faithful : reads.Faithful source table)
    {batchId : Nat} {result : Option (ReadResult Key Data)}
    (answers : ∀ value, result = some value → source.Answers table batchId value) :
    ∃ handed batches keyColumns, Tally config source table shared (.reading reads)
      (joinRead config table shared reads batchId (.ok result)) handed batches keyColumns := by
  have joined : ReadLoop.Faithful source table { reads with
      inFlight := reads.inFlight.erase batchId
      completed := (batchId, result) :: reads.completed } := by
    refine ⟨faithful.gathered, faithful.schema, ?_⟩
    intro entry member
    rcases List.mem_cons.mp member with rfl | old
    · exact answers
    · exact faithful.completed entry old
  unfold joinRead
  dsimp only
  split
  · rename_i returned drained
    exact leaveReads_tally _ rfl rfl (drain_leave_faithful joined drained)
  · rename_i next drained
    have still := drain_again_faithful joined drained
    split
    · exact leaveReads_tally _ rfl rfl fun _ => ⟨still.gathered, still.schema⟩
    · exact ⟨[], [], [], Tally.quiet still rfl rfl rfl rfl rfl⟩

/-- Counting a batch changes the count of its table by the net count. -/
theorem countNetRows_getD (netRows : Table → Option Int) (delta : Int) :
    (countNetRows netRows table delta table).getD 0 = (netRows table).getD 0 + delta := by
  unfold countNetRows
  split_ifs with zero
  · simp [zero]
  · simp

theorem countNetRows_other (netRows : Table → Option Int) (delta : Int) {other : Table}
    (differ : other ≠ table) : countNetRows netRows table delta other = netRows other := by
  unfold countNetRows
  split_ifs
  · rfl
  · exact Function.update_of_ne differ _ _

/-- Every step of a task that fails nowhere is tallied. -/
theorem taskStep_tally {maxBatchId : Option Nat} {task : TaskState Key Data}
    {action : TaskAction Key Data} {result : Shared Table Key Data × TaskState Key Data}
    (faithful : task.Faithful source table) (healthy : action.Healthy)
    (answered : action.Answered source table)
    (stepped : taskStep config maxBatchId table shared task action = some result) :
    ∃ handed batches keyColumns, Tally config source table shared task result handed batches keyColumns := by
  unfold taskStep at stepped
  split at stepped
  · split at stepped
    · rename_i batchId firstId outcome same
      subst same
      obtain ⟨read, rfl, _⟩ := healthy
      obtain rfl := Option.some.inj stepped
      obtain ⟨rows, schema⟩ := answered read rfl
      refine ⟨_, _, _, startWrites_tally config source table shared _ firstId read.keyColumns _
        rfl rfl rfl rfl rfl ?_ schema⟩
      rw [List.flatMap_singleton]
      exact rows
    · simp at stepped
  · split at stepped
    · split at stepped
      · obtain rfl := Option.some.inj stepped
        exact ⟨[], [], [], Tally.quiet ⟨faithful.gathered, faithful.schema, faithful.completed⟩
          rfl rfl rfl rfl rfl⟩
      · obtain rfl := Option.some.inj stepped
        exact ⟨[], [], [], Tally.quiet ⟨faithful.gathered, faithful.schema, faithful.completed⟩
          rfl rfl rfl rfl rfl⟩
    · simp at stepped
  · split at stepped
    · simp at stepped
    · split at stepped
      · obtain ⟨read, rfl, _⟩ := healthy
        obtain rfl := Option.some.inj stepped
        refine joinRead_tally faithful ?_
        intro value same
        exact answered value (by rw [same])
      · simp at stepped
  · split at stepped
    · simp at stepped
    · split at stepped
      · obtain rfl := Option.some.inj stepped
        exact leaveReads_tally _ rfl rfl fun _ => ⟨faithful.gathered, faithful.schema⟩
      · simp at stepped
  · split at stepped
    · rename_i writes _ _ _ batch pending chunks segments waiting
      obtain rfl := Option.some.inj stepped
      refine ⟨[], [], [], trivial, by simp, rfl, by simp, ?_, ?_, by simp, ?_⟩
      · have built := buildSegmentsForBatch_rows config.opIndexSort batch writes.keyColumns config.mutations
        simp only [TaskState.unwritten, chunks, segments, waiting, List.flatten_nil, List.nil_append,
          List.flatMap_nil, List.flatMap_cons, stripInternalColumns, List.map_nil, List.append_nil]
        exact (built.append_right _).append_left _
      · simp only [countNetRows_getD, TaskState.uncounted, waiting, List.map_cons, List.sum_cons,
          List.map_nil, List.sum_nil, batchNet]
        omega
      · intro other differ
        exact countNetRows_other _ _ differ
    · simp at stepped
  · split at stepped
    · rename_i writes segment segments chunks waiting
      obtain rfl := Option.some.inj stepped
      refine ⟨[], [], [], Tally.quiet trivial rfl rfl rfl ?_ rfl⟩
      simp [TaskState.unwritten, chunks, waiting, sinkChunks_flatten]
    · simp at stepped
  · split at stepped
    · rename_i writes index _ _ chunk found
      obtain rfl := Option.some.inj stepped
      obtain ⟨inside, rfl⟩ := List.getElem?_eq_some_iff.mp found
      refine ⟨[], [], [], trivial, by simp, rfl, by simp, ?_, by simp [TaskState.uncounted], ?_, by simp⟩
      · have moved : (writes.chunks[index] ++ (writes.chunks.eraseIdx index).flatten).Perm
            writes.chunks.flatten := by
          have perm := (List.getElem_cons_eraseIdx_perm inside).flatten
          rwa [List.flatten_cons] at perm
        have one : sinkRows table [⟨table, writes.batchId, writes.op, writes.chunks[index]⟩] =
            writes.chunks[index] := by
          simp [sinkRows]
        simp only [sinkRows_append, one, TaskState.unwritten, stripInternalColumns, List.flatMap_nil,
          List.map_nil, List.append_nil, List.append_assoc]
        rw [← List.append_assoc (writes.chunks[index])]
        exact (moved.append_right _).append_left _
      · intro other differ
        simp [sinkRows, Ne.symm differ]
    · simp [TaskAction.Healthy] at healthy
    · simp at stepped
  · split at stepped
    · rename_i writes empty
      obtain rfl := Option.some.inj stepped
      simp only [Bool.and_eq_true, List.isEmpty_iff] at empty
      obtain ⟨⟨chunks, segments⟩, pending⟩ := empty
      refine ⟨[], [], [], Tally.quiet trivial rfl rfl rfl ?_ ?_⟩
      · simp [TaskState.unwritten, chunks, segments, pending]
      · simp [TaskState.uncounted, pending]
    · simp at stepped
  · simp at stepped

end Steps

end Spicebench.Etl
