import Spicebench.Library.KeyTrace
import Spicebench.Proof.Etl.Boundary
import Spicebench.Proof.Etl.SegmentKeys
import Spicebench.Proof.Etl.OpIndices

namespace Spicebench.Etl
open Library DataGeneration

variable {Table Key Data : Type}

section Traces

/-- The content of a target depends on what an operation does, and not on the names of its key columns. -/
def InsertOp.kind : InsertOp → InsertOp
  | .insert => .insert
  | .update _ => .update []
  | .delete _ => .delete []

/-- An entry of a target's trace is a row with the kind of the operation that brought it. -/
abbrev TargetEntry (Key Data : Type) := (Key × Data) × InsertOp

def entryKey (entry : TargetEntry Key Data) : Key := entry.1.1

def entriesWith (op : InsertOp) (rows : List (Key × Data)) : List (TargetEntry Key Data) :=
  rows.map fun row => (row, op.kind)

@[simp] theorem entriesWith_append (op : InsertOp) (first second : List (Key × Data)) :
    entriesWith op (first ++ second) = entriesWith op first ++ entriesWith op second := List.map_append

theorem entryKey_entriesWith (op : InsertOp) (rows : List (Key × Data)) :
    (entriesWith op rows).map entryKey = rows.map Prod.fst := by
  simp [entriesWith, entryKey]

/-- The entries that a table has received, in the order of the writes. -/
def sinkTrace [DecidableEq Table] (table : Table) (sink : List (SinkWrite Table Key Data)) :
    List (TargetEntry Key Data) :=
  (sink.filter (·.table = table)).flatMap fun write => entriesWith write.op write.rows

def segmentsTrace (segments : List (OpSegment Key Data)) : List (TargetEntry Key Data) :=
  segments.flatMap fun segment => entriesWith segment.op segment.rows

/-- These are the entries that the rows of a stream ask for. -/
def streamTrace (rows : List (Row Key Data)) : List (TargetEntry Key Data) := rows.map (withOwnOp [])

theorem streamTrace_append (first second : List (Row Key Data)) :
    streamTrace (first ++ second) = streamTrace first ++ streamTrace second := List.map_append

theorem withOwnOp_kind (keyColumns : List String) (row : Row Key Data) :
    (opStrToInsertOp (opValue row) keyColumns).kind = opStrToInsertOp (opValue row) [] := by
  cases opValue row <;> rfl

/-- The runs of the rows are their trace, cut where the operation changes. -/
theorem segmentsTrace_opRuns (keyColumns : List String) (rows : List (Row Key Data)) :
    segmentsTrace ((opRuns rows).map fun run =>
      (⟨opStrToInsertOp run.1 keyColumns, stripInternalColumns run.2⟩ : OpSegment Key Data)) = streamTrace rows := by
  conv_rhs => rw [streamTrace, ← opRuns_rows rows, List.map_flatMap]
  rw [segmentsTrace, List.flatMap_map]
  apply List.flatMap_congr
  intro run member
  rw [entriesWith, stripInternalColumns, List.map_map]
  apply List.map_congr_left
  intro row inside
  have op : opValue row = run.1 := opValue_of_mem_opRuns member inside
  simp [withOwnOp, ← op, withOwnOp_kind]

end Traces

section Orderly

/-- The rows of a stream: their op indices increase, no key is created or deleted twice, under zero ratios every row
creates, and consecutive rows repeat an updated key only around a row that does not update. -/
structure OrderlyRows (config : MutationConfig) (rows : List (Row Key Data)) : Prop where
  increasing : rows.Pairwise fun first second => first.opIndex < second.opIndex
  sound : SoundRows rows
  creates : config.zeroRatios = true → ∀ row ∈ rows, row.op = some .create
  apart : config.zeroRatios = false → ∀ window, window <:+: rows → KeysApart config window

theorem OrderlyRows.infix {config : MutationConfig} {rows window : List (Row Key Data)}
    (orderly : OrderlyRows config rows) (inside : window <:+: rows) : OrderlyRows config window where
  increasing := orderly.increasing.sublist inside.sublist
  sound := orderly.sound.sublist inside.sublist
  creates zero row member := orderly.creates zero row (inside.subset member)
  apart mixed smaller held := orderly.apart mixed smaller (held.trans inside)

theorem OrderlyRows.keysApart {config : MutationConfig} {rows : List (Row Key Data)}
    (orderly : OrderlyRows config rows) : KeysApart config rows := by
  cases zero : config.zeroRatios with
  | false => exact orderly.apart zero rows (List.infix_refl rows)
  | true =>
      unfold KeysApart
      rw [if_pos zero]
      apply List.pairwise_of_forall_mem_list
      intro first inFirst second inSecond apart
      rcases apart with other | other
      · exact absurd (orderly.creates zero first inFirst) other
      · exact absurd (orderly.creates zero second inSecond) other

/-- The segments of an orderly batch are its trace, cut where the operation changes. -/
theorem OrderlyRows.segmentsTrace {config : MutationConfig} {batch : RecordBatch Key Data}
    (orderly : OrderlyRows config batch.rows) (schema : batch.schema = changeSchema) (sort : OpIndexSort Key Data)
    (keyColumns : List String) :
    segmentsTrace (buildSegmentsForBatch sort batch keyColumns config) = streamTrace batch.rows := by
  unfold buildSegmentsForBatch
  split_ifs with quick
  · have creates : ∀ row ∈ batch.rows, row.op = some .create := by
      simp only [batchIsInsertOnly, schema, changeSchema, Bool.not_true, Bool.or_false, Bool.or_eq_true,
        List.all_eq_true, decide_eq_true_eq] at quick
      exact quick.elim orderly.creates id
    rw [Etl.segmentsTrace, List.flatMap_singleton, entriesWith, stripInternalColumns, List.map_map]
    apply List.map_congr_left
    intro row member
    simp [withOwnOp, opValue, creates row member, opStrToInsertOp, InsertOp.kind]
  · have restored : sort.sort batch.rows = batch.rows := by
      have distinct : (batch.rows.map Row.opIndex).Nodup :=
        List.pairwise_map.mpr (orderly.increasing.imp ne_of_lt)
      refine (sort.perm batch.rows).eq_of_pairwise ?_ (sort.sorted batch.rows) (orderly.increasing.imp le_of_lt)
      intro first second inFirst inSecond below above
      exact List.inj_on_of_nodup_map distinct ((sort.perm batch.rows).subset inFirst) inSecond
        (le_antisymm below above)
    simp only [splitBatchByOp, schema, changeSchema, if_true, restored]
    exact segmentsTrace_opRuns keyColumns batch.rows

/-- Each segment of an orderly batch names a key once. -/
theorem OrderlyRows.nodup_segments {config : MutationConfig} {batch : RecordBatch Key Data}
    (orderly : OrderlyRows config batch.rows) (schema : batch.schema = changeSchema) (sort : OpIndexSort Key Data)
    (keyColumns : List String) : ∀ segment ∈ buildSegmentsForBatch sort batch keyColumns config,
      (segment.rows.map Prod.fst).Nodup :=
  (nodup_segments_iff schema orderly.sound keyColumns config).mpr orderly.keysApart sort

/-- The batches of every table, read in the order of their ids, are orderly. -/
structure Source.Orderly (source : Source Table Key Data) (config : MutationConfig) : Prop where
  schema : ∀ table, source.schema table = changeSchema
  rows : ∀ table (ids : List Nat), ids.Pairwise (· < ·) → OrderlyRows config (ids.flatMap (source.rows table))

end Orderly

section Tasks

variable [DecidableEq Table]

/-- These entries were handed to the write loop and are not in the sink yet. -/
def TaskState.upcoming : TaskState Key Data → List (TargetEntry Key Data)
  | .writing writes => entriesWith writes.op writes.chunks.flatten ++ Etl.segmentsTrace writes.segments ++
      writes.pending.flatMap fun batch => streamTrace batch.rows
  | _ => []

/-- The pending batches are orderly, and each segment and the chunks that are left name a key once. -/
def TaskState.Orderly (config : MutationConfig) : TaskState Key Data → Prop
  | .writing writes =>
      (∀ batch ∈ writes.pending, batch.schema = changeSchema ∧ OrderlyRows config batch.rows) ∧
      (∀ segment ∈ writes.segments, (segment.rows.map Prod.fst).Nodup) ∧
      (writes.chunks.flatten.map Prod.fst).Nodup
  | _ => True

/-- A task step hands over the rows of some ids, and moves entries towards the sink without passing an entry of a key
by another one of it. -/
structure Landing (config : MutationConfig) (source : Source Table Key Data) (table : Table)
    (shared : Shared Table Key Data) (task : TaskState Key Data) (result : Shared Table Key Data × TaskState Key Data)
    (handed : List Nat) : Prop where
  orderly : result.2.Orderly config
  trace : ∀ [DecidableEq Key], SameByKey entryKey (sinkTrace table result.1.sink ++ result.2.upcoming)
    (sinkTrace table shared.sink ++ (task.upcoming ++ streamTrace (handed.flatMap (source.rows table))))
  others : ∀ other, other ≠ table → sinkTrace other result.1.sink = sinkTrace other shared.sink

variable {config : EtlConfig Key Data} {source : Source Table Key Data} {table : Table}
  {shared next : Shared Table Key Data} {task after : TaskState Key Data}

/-- A step that touches neither the sink nor what is upcoming lands nothing. -/
theorem Landing.quiet (orderly : after.Orderly config.mutations) (sink : next.sink = shared.sink)
    (upcoming : after.upcoming = task.upcoming) :
    Landing config.mutations source table shared task (next, after) [] where
  orderly := orderly
  trace := by
    intro _
    simp only [sink, upcoming, List.flatMap_nil, streamTrace, List.map_nil, List.append_nil]
    exact .refl _
  others := by simp [sink]

/-- The batches that are written are orderly pieces of the stream. -/
theorem startWrites_landing (orderly : source.Orderly config.mutations) (batchId : Nat) (keyColumns : List String)
    {batches : List (RecordBatch Key Data)} {handed : List Nat} (ascending : handed.Pairwise (· < ·))
    (report : TaskReport) (reading : task.upcoming = []) (sink : next.sink = shared.sink)
    (rows : batches.flatMap RecordBatch.rows = handed.flatMap (source.rows table))
    (schema : ∀ batch ∈ batches, batch.schema = source.schema table) :
    Landing config.mutations source table shared task
      (next, startWrites config batchId keyColumns batches report) handed where
  orderly := by
    have stream := orderly.rows table handed ascending
    refine ⟨?_, by simp, by simp⟩
    intro batch member
    refine ⟨(coalesceBatches_schema schema batch member).trans (orderly.schema table), stream.infix ?_⟩
    rw [← rows, ← coalesceBatches_rows config.targetPositive, List.flatMap_def]
    exact List.infix_of_mem_flatten (List.mem_map_of_mem member)
  trace := by
    intro _
    have same : (coalesceBatches config.targetBatchRows batches).flatMap (fun batch => streamTrace batch.rows) =
        streamTrace (handed.flatMap (source.rows table)) := by
      rw [← rows, ← coalesceBatches_rows config.targetPositive, streamTrace, List.map_flatMap]
      rfl
    rw [sink, reading, List.nil_append]
    simp only [TaskState.upcoming, startWrites, List.flatten_nil, entriesWith, List.map_nil, segmentsTrace,
      List.flatMap_nil, List.nil_append, same]
    exact .refl _
  others := by simp [sink]

/-- Leaving the read loop hands over the rows of the consumed ids, if it has any. -/
theorem leaveReads_landing (orderly : source.Orderly config.mutations) (batchId : Nat)
    {returned : ReadReturn Key Data} (reading : task.upcoming = [])
    (rows : returned.batches ≠ [] →
      returned.batches.flatMap RecordBatch.rows = returned.consumed.flatMap (source.rows table) ∧
        ∀ batch ∈ returned.batches, batch.schema = source.schema table) :
    ∃ handed, (leaveReads config table batchId shared returned).1.history =
        shared.history ++ handed.map (Event.handed table) ∧
      (handed.Pairwise (· < ·) → Landing config.mutations source table shared task
        (leaveReads config table batchId shared returned) handed) := by
  unfold leaveReads
  dsimp only
  split_ifs with empty
  · exact ⟨[], by simp [Shared.withSteps], fun _ => .quiet trivial rfl reading.symm⟩
  · obtain ⟨same, schema⟩ := rows (by simpa using empty)
    exact ⟨_, rfl, fun ascending => startWrites_landing orderly batchId returned.keyColumns ascending _ reading rfl
      same schema⟩

theorem joinRead_landing (orderly : source.Orderly config.mutations) {reads : ReadLoop Key Data}
    (faithful : reads.Faithful source table) {batchId : Nat} {result : Option (ReadResult Key Data)}
    (answers : ∀ value, result = some value → source.Answers table batchId value) :
    ∃ handed, (joinRead config table shared reads batchId (.ok result)).1.history =
        shared.history ++ handed.map (Event.handed table) ∧
      (handed.Pairwise (· < ·) → Landing config.mutations source table shared (.reading reads)
        (joinRead config table shared reads batchId (.ok result)) handed) := by
  have joined : ReadLoop.Faithful source table { reads with
      inFlight := reads.inFlight.erase batchId
      completed := (batchId, result) :: reads.completed } := by
    refine ⟨faithful.gathered, faithful.schema, ?_⟩
    intro entry member
    rcases List.mem_cons.mp member with rfl | old
    · exact answers
    · exact faithful.completed entry old
  unfold joinRead
  dsimp only
  split
  · rename_i returned drained
    exact leaveReads_landing orderly _ rfl (drain_leave_faithful joined drained)
  · rename_i next drained
    have still := drain_again_faithful joined drained
    split
    · exact leaveReads_landing orderly _ rfl fun _ => ⟨still.gathered, still.schema⟩
    · exact ⟨[], by simp, fun _ => .quiet trivial rfl rfl⟩

/-- The next batch is split into segments that name a key once. -/
theorem nextBatch_landing {writes : WriteLoop Key Data} {batch : RecordBatch Key Data}
    {pending : List (RecordBatch Key Data)} (netRows : Table → Option Int)
    (orderly : (TaskState.writing writes).Orderly config.mutations) (chunks : writes.chunks = [])
    (segments : writes.segments = []) (waiting : writes.pending = batch :: pending) :
    Landing config.mutations source table shared (.writing writes) ({ shared with netRows },
      .writing { writes with
        pending
        segments := buildSegmentsForBatch config.opIndexSort batch writes.keyColumns config.mutations }) [] := by
  obtain ⟨batches, _, _⟩ := orderly
  rw [waiting] at batches
  obtain ⟨schema, rows⟩ := batches batch List.mem_cons_self
  apply Landing.quiet
  · exact ⟨fun other member => batches other (List.mem_cons_of_mem _ member),
      rows.nodup_segments schema _ _, by simp [chunks]⟩
  · rfl
  · simp only [TaskState.upcoming, chunks, segments, waiting, List.flatten_nil, entriesWith, List.map_nil,
      List.flatMap_cons, rows.segmentsTrace schema config.opIndexSort writes.keyColumns, List.nil_append]
    rfl

/-- The chunks of the next segment share no key. -/
theorem nextSegment_landing {writes : WriteLoop Key Data} {segment : OpSegment Key Data}
    {segments : List (OpSegment Key Data)} (orderly : (TaskState.writing writes).Orderly config.mutations)
    (chunks : writes.chunks = []) (waiting : writes.segments = segment :: segments) :
    Landing config.mutations source table shared (.writing writes) (shared, .writing { writes with
      segments, op := segment.op, chunks := sinkChunks config.sinkChunkRows segment }) [] := by
  obtain ⟨batches, distinct, _⟩ := orderly
  rw [waiting] at distinct
  apply Landing.quiet
  · refine ⟨batches, fun other member => distinct other (List.mem_cons_of_mem _ member), ?_⟩
    rw [sinkChunks_flatten]
    exact distinct segment List.mem_cons_self
  · rfl
  · simp [TaskState.upcoming, chunks, waiting, sinkChunks_flatten, segmentsTrace, entriesWith]

/-- A chunk passes only entries of other keys. -/
theorem writeChunk_landing {writes : WriteLoop Key Data} {index : Nat} {chunk : List (Key × Data)}
    (orderly : (TaskState.writing writes).Orderly config.mutations) (found : writes.chunks[index]? = some chunk) :
    Landing config.mutations source table shared (.writing writes)
      ({ shared with sink := shared.sink ++ [⟨table, writes.batchId, writes.op, chunk⟩] },
        .writing { writes with chunks := writes.chunks.eraseIdx index }) [] := by
  obtain ⟨batches, segments, distinct⟩ := orderly
  obtain ⟨inside, rfl⟩ := List.getElem?_eq_some_iff.mp found
  have moved : (writes.chunks[index] ++ (writes.chunks.eraseIdx index).flatten).Perm writes.chunks.flatten := by
    have perm := (List.getElem_cons_eraseIdx_perm inside).flatten
    rwa [List.flatten_cons] at perm
  have kept : ((writes.chunks.eraseIdx index).flatten.map Prod.fst).Nodup := by
    have whole := ((moved.map Prod.fst).nodup_iff).mpr distinct
    rw [List.map_append] at whole
    exact whole.of_append_right
  refine ⟨⟨batches, segments, kept⟩, ?_, ?_⟩
  · intro _
    have one : sinkTrace table [⟨table, writes.batchId, writes.op, writes.chunks[index]⟩] =
        entriesWith writes.op writes.chunks[index] := by
      simp [sinkTrace]
    have same : SameByKey entryKey (entriesWith writes.op writes.chunks[index] ++
        entriesWith writes.op (writes.chunks.eraseIdx index).flatten)
        (entriesWith writes.op writes.chunks.flatten) := by
      rw [← entriesWith_append]
      refine .of_perm ?_ (moved.map _)
      rw [entryKey_entriesWith]
      exact ((moved.map Prod.fst).nodup_iff).mpr distinct
    have split : sinkTrace table (shared.sink ++ [⟨table, writes.batchId, writes.op, writes.chunks[index]⟩]) =
        sinkTrace table shared.sink ++ entriesWith writes.op writes.chunks[index] := by
      rw [← one]
      simp [sinkTrace]
    simp only [split, TaskState.upcoming, List.flatMap_nil, streamTrace, List.map_nil, List.append_nil,
      List.append_assoc]
    refine (SameByKey.refl _).append ?_
    rw [← List.append_assoc]
    exact same.append (.refl _)
  · intro other differ
    simp [sinkTrace, Ne.symm differ]

/-- Every step of a task that fails nowhere lands its entries in order. -/
theorem taskStep_landing (served : source.Orderly config.mutations) {maxBatchId : Option Nat}
    {action : TaskAction Key Data} {result : Shared Table Key Data × TaskState Key Data}
    (orderly : task.Orderly config.mutations) (faithful : task.Faithful source table) (healthy : action.Healthy)
    (answered : action.Answered source table)
    (stepped : taskStep config maxBatchId table shared task action = some result) :
    ∃ handed, result.1.history = shared.history ++ handed.map (Event.handed table) ∧
      (handed.Pairwise (· < ·) → Landing config.mutations source table shared task result handed) := by
  have still : ∀ {reads : ReadLoop Key Data} {steps : WorkPlan Table},
      Landing config.mutations source table shared task (shared.withSteps steps, .reading reads) [] →
      ∃ handed, (shared.withSteps steps).history = shared.history ++ handed.map (Event.handed table) ∧
        (handed.Pairwise (· < ·) →
          Landing config.mutations source table shared task (shared.withSteps steps, .reading reads) handed) :=
    fun landing => ⟨[], by simp [Shared.withSteps], fun _ => landing⟩
  unfold taskStep at stepped
  split at stepped
  · split at stepped
    · rename_i batchId firstId outcome same
      subst same
      obtain ⟨read, rfl, _⟩ := healthy
      obtain rfl := Option.some.inj stepped
      obtain ⟨rows, schema⟩ := answered read rfl
      refine ⟨[firstId], rfl, fun ascending => ?_⟩
      refine startWrites_landing served firstId read.keyColumns ascending _ rfl rfl ?_ schema
      rw [List.flatMap_singleton]
      exact rows
    · simp at stepped
  · split at stepped
    · split at stepped
      · obtain rfl := Option.some.inj stepped
        exact ⟨[], by simp, fun _ => .quiet trivial rfl rfl⟩
      · obtain rfl := Option.some.inj stepped
        exact still (.quiet trivial rfl rfl)
    · simp at stepped
  · split at stepped
    · simp at stepped
    · split at stepped
      · obtain ⟨read, rfl, _⟩ := healthy
        obtain rfl := Option.some.inj stepped
        refine joinRead_landing served faithful ?_
        intro value same
        exact answered value (by rw [same])
      · simp at stepped
  · split at stepped
    · simp at stepped
    · split at stepped
      · obtain rfl := Option.some.inj stepped
        exact leaveReads_landing served _ rfl fun _ => ⟨faithful.gathered, faithful.schema⟩
      · simp at stepped
  · split at stepped
    · rename_i writes _ _ _ batch pending chunks segments waiting
      obtain rfl := Option.some.inj stepped
      exact ⟨[], by simp, fun _ => nextBatch_landing _ orderly chunks segments waiting⟩
    · simp at stepped
  · split at stepped
    · rename_i writes segment segments chunks waiting
      obtain rfl := Option.some.inj stepped
      exact ⟨[], by simp, fun _ => nextSegment_landing orderly chunks waiting⟩
    · simp at stepped
  · split at stepped
    · rename_i writes index _ _ chunk found
      obtain rfl := Option.some.inj stepped
      exact ⟨[], by simp, fun _ => writeChunk_landing orderly found⟩
    · simp [TaskAction.Healthy] at healthy
    · simp at stepped
  · split at stepped
    · rename_i writes empty
      obtain rfl := Option.some.inj stepped
      simp only [Bool.and_eq_true, List.isEmpty_iff] at empty
      obtain ⟨⟨chunks, segments⟩, pending⟩ := empty
      refine ⟨[], by simp, fun _ => .quiet trivial rfl ?_⟩
      simp [TaskState.upcoming, chunks, segments, pending, entriesWith, segmentsTrace]
    · simp at stepped
  · simp at stepped

end Tasks

section Runs

variable [DecidableEq Table] {config : EtlConfig Key Data} {source : Source Table Key Data}
  {past : List (Event Table)} {base : Table → List (TargetEntry Key Data)} {shared next : Shared Table Key Data}
  {run after : RunTask Table Key Data} {action : RunAction Table Key Data}

/-- These entries of a table were handed to the tasks of the run and are not in the sink yet. -/
def RunTask.upcoming (run : RunTask Table Key Data) (table : Table) : List (TargetEntry Key Data) :=
  match run.phase with
  | .processing _ _ active tasks => if table ∈ active then (tasks table).upcoming else []
  | _ => []

def RunTask.Orderly (config : MutationConfig) (run : RunTask Table Key Data) : Prop :=
  match run.phase with
  | .processing _ _ active tasks => ∀ table ∈ active, (tasks table).Orderly config
  | _ => True

/-- The entries of the ids that were handed over since the past follow the base, in the order of each key, in the
sink or on their way to it. -/
structure RunLanded (config : MutationConfig) (source : Source Table Key Data) (past : List (Event Table))
    (base : Table → List (TargetEntry Key Data)) (shared : Shared Table Key Data) (run : RunTask Table Key Data) :
    Prop where
  orderly : run.Orderly config
  trace : ∀ [DecidableEq Key] table, SameByKey entryKey (sinkTrace table shared.sink ++ run.upcoming table)
    (base table ++ streamTrace ((handedSince past shared table).flatMap (source.rows table)))

/-- A step that touches neither the sink nor the history, and leaves the same entries upcoming. -/
theorem RunLanded.quiet (landed : RunLanded config.mutations source past base shared run)
    (orderly : after.Orderly config.mutations) (history : next.history = shared.history)
    (sink : next.sink = shared.sink) (upcoming : after.upcoming = run.upcoming) :
    RunLanded config.mutations source past base next after := by
  refine ⟨orderly, ?_⟩
  intro _ table
  have since : handedSince past next table = handedSince past shared table := by
    simp [handedSince, history]
  rw [since, sink, upcoming]
  exact landed.trace table

/-- A run outside of a step has nothing upcoming. -/
theorem RunTask.upcoming_of_phase
    (idle : ∀ outerSteps batchId active tasks, run.phase ≠ .processing outerSteps batchId active tasks) :
    run.upcoming = fun _ => [] := by
  funext table
  unfold RunTask.upcoming
  split
  · rename_i busy
    exact absurd busy (idle _ _ _ _)
  · rfl

omit [DecidableEq Table] in
theorem RunTask.orderly_of_phase
    (idle : ∀ outerSteps batchId active tasks, run.phase ≠ .processing outerSteps batchId active tasks) :
    run.Orderly config.mutations := by
  unfold RunTask.Orderly
  split
  · rename_i busy
    exact absurd busy (idle _ _ _ _)
  · trivial

/-- Between two states without open steps the entries carry over. -/
theorem RunLanded.idle (landed : RunLanded config.mutations source past base shared run)
    (before : run.upcoming = fun _ => [])
    (idle : ∀ outerSteps batchId active tasks, after.phase ≠ .processing outerSteps batchId active tasks)
    (history : next.history = shared.history) (sink : next.sink = shared.sink) :
    RunLanded config.mutations source past base next after := by
  have nothing := RunTask.upcoming_of_phase idle
  exact landed.quiet (RunTask.orderly_of_phase idle) history sink (nothing.trans before.symm)

/-- A step of one task keeps what has landed. -/
theorem RunLanded.task (landed : RunLanded config.mutations source past base shared run)
    (grown : past <+: shared.history) {table : Table} {task result : TaskState Key Data} {handed : List Nat}
    (mine : run.upcoming table = task.upcoming) (orderly : after.Orderly config.mutations)
    (history : next.history = shared.history ++ handed.map (Event.handed table))
    (step : Landing config.mutations source table shared task (next, result) handed)
    (upcoming : after.upcoming = Function.update run.upcoming table result.upcoming) :
    RunLanded config.mutations source past base next after := by
  refine ⟨orderly, ?_⟩
  intro _ other
  rw [upcoming, handedSince_extend grown history, handedIds_handed]
  by_cases same : other = table
  · subst same
    rw [Function.update_self, if_pos rfl, List.flatMap_append, streamTrace_append, ← List.append_assoc (base other)]
    refine step.trace.trans ?_
    rw [← List.append_assoc, ← mine]
    exact (landed.trace other).append (.refl _)
  · have sink : sinkTrace other next.sink = sinkTrace other shared.sink := step.others other same
    rw [Function.update_of_ne same, if_neg (Ne.symm same), List.append_nil, sink]
    exact landed.trace other

/-- What a task of the run takes, gathers or writes stays in order. -/
theorem RunLanded.taskStep (landed : RunLanded config.mutations source past base shared run)
    (served : source.Orderly config.mutations) (grown : past <+: shared.history) {outerSteps later : Nat}
    {batchId laterId : Nat} {active : List Table} {tasks : Table → TaskState Key Data} {table : Table}
    {maxBatchId : Option Nat} {taskAction : TaskAction Key Data} {result : TaskState Key Data}
    (busy : run.phase = .processing outerSteps batchId active tasks)
    (begun : after.phase = .processing later laterId active (Function.update tasks table result))
    (member : table ∈ active) (faithful : (tasks table).Faithful source table) (healthy : taskAction.Healthy)
    (answered : taskAction.Answered source table) (ascending : (handedSince past next table).Pairwise (· < ·))
    (stepped : Etl.taskStep config maxBatchId table shared (tasks table) taskAction = some (next, result)) :
    RunLanded config.mutations source past base next after := by
  have orderly := landed.orderly
  simp only [RunTask.Orderly, busy] at orderly
  obtain ⟨handed, history, step⟩ := taskStep_landing served (orderly table member) faithful healthy answered stepped
  rw [handedSince_extend grown history, handedIds_handed, if_pos rfl] at ascending
  have landing := step (List.pairwise_append.mp ascending).2.1
  refine landed.task grown ?_ ?_ history landing ?_
  · simp [RunTask.upcoming, busy, member]
  · simp only [RunTask.Orderly, begun]
    intro other inside
    by_cases same : other = table
    · subst same
      rw [Function.update_self]
      exact landing.orderly
    · rw [Function.update_of_ne same]
      exact orderly other inside
  · funext other
    by_cases same : other = table
    · subst same
      simp [RunTask.upcoming, begun, member]
    · simp [RunTask.upcoming, begun, busy, same]

/-- A finished task has nothing on its way. -/
theorem RunLanded.collect (landed : RunLanded config.mutations source past base shared run) {outerSteps later : Nat}
    {batchId laterId : Nat} {active : List Table} {tasks : Table → TaskState Key Data} {table : Table}
    {outcome : Except String TaskReport} (busy : run.phase = .processing outerSteps batchId active tasks)
    (begun : after.phase = .processing later laterId (active.erase table) tasks) (done : tasks table = .done outcome)
    (history : next.history = shared.history) (sink : next.sink = shared.sink) :
    RunLanded config.mutations source past base next after := by
  have orderly := landed.orderly
  simp only [RunTask.Orderly, busy] at orderly
  refine landed.quiet ?_ history sink ?_
  · simp only [RunTask.Orderly, begun]
    exact fun other inside => orderly other (List.mem_of_mem_erase inside)
  · funext other
    by_cases collected : other = table
    · subst collected
      simp [RunTask.upcoming, begun, busy, done, TaskState.upcoming]
    · simp [RunTask.upcoming, begun, busy, List.mem_erase_of_ne collected]

/-- A healthy step of a run keeps what has landed. -/
theorem RunMove.landed (moved : RunMove config shared next run after action)
    (served : source.Orderly config.mutations) (grown : past <+: shared.history)
    (ascending : ∀ table, (handedSince past next table).Pairwise (· < ·)) (fine : run.Healthy shared)
    (faithful : run.Faithful source) (healthy : action.Healthy) (answered : action.Answered source)
    (landed : RunLanded config.mutations source past base shared run) :
    RunLanded config.mutations source past base next after := by
  have idle : ∀ phase, run.phase = phase →
      (∀ outerSteps batchId active tasks, phase ≠ .processing outerSteps batchId active tasks) →
      run.upcoming = fun _ => [] := by
    intro phase same quiet
    exact RunTask.upcoming_of_phase (same ▸ quiet)
  cases moved with
  | start fresh same begun =>
      exact landed.idle (idle _ fresh (by simp)) (by simp [begun]) (by rw [same]) (by rw [same])
  | giveUp _ _ _ _ head returned spent =>
      have same : next = shared := by
        rcases spent with ⟨same, _⟩ | ⟨_, failed, _⟩
        · exact same
        · exact absurd healthy.2 failed
      exact landed.idle (idle _ head (by simp)) (by simp [returned]) (by rw [same]) (by rw [same])
  | pop outerSteps _ _ popId tables steps head popped same begun =>
      have before := idle _ head (by simp)
      subst same begun
      refine landed.quiet ?_ rfl rfl ?_
      · unfold RunTask.Orderly
        dsimp only
        split_ifs
        · trivial
        · exact fun table _ => trivial
      · rw [before]
        funext table
        unfold RunTask.upcoming
        dsimp only
        split_ifs
        · rfl
        · simp [TaskState.upcoming]
  | task _ _ active tasks table taskAction result busy member stepped begun =>
      simp only [RunTask.Faithful, busy] at faithful
      exact landed.taskStep served grown busy (by rw [begun]) member (faithful table member) healthy answered
        (ascending table) stepped
  | collect _ _ active tasks table report busy member done same begun =>
      exact landed.collect busy (by rw [begun]) done (by rw [same]) (by rw [same])
  | collectError _ _ active tasks table message busy member done same begun =>
      simp only [RunTask.Healthy, busy] at fine
      have ended := fine.2 table member
      rw [done] at ended
      obtain ⟨_, reported, _⟩ := ended
      simp at reported
  | stepDone _ _ _ busy same begun =>
      have nothing : run.upcoming = fun _ => [] := by
        funext table
        simp [RunTask.upcoming, busy]
      exact landed.idle nothing (by simp [begun]) (by rw [same]) (by rw [same])
  | cancel => exact absurd healthy (by simp [RunAction.Healthy])

/-- A spawned run starts with the entries that are in the sink. -/
theorem RunLanded.spawn (config : EtlConfig Key Data) (source : Source Table Key Data)
    (shared : Shared Table Key Data) (stepLimit : Option Nat) :
    RunLanded config.mutations source shared.history (fun table => sinkTrace table shared.sink) shared
      (.spawn stepLimit) := by
  refine ⟨trivial, ?_⟩
  intro _ table
  simp only [handedSince, List.drop_length, handedIds_nil, List.flatMap_nil, streamTrace, List.map_nil,
    RunTask.upcoming, RunTask.spawn]
  exact .refl _

/-- What has landed is kept along every run in a healthy environment that serves an orderly source. -/
theorem Segment.landed {environment : Environment Table Key Data} {stepLimit : Option Nat} {start : WorkPlan Table}
    {sink : Table → List (Key × Data)} {net : Table → Int} {final : Shared Table Key Data × RunTask Table Key Data}
    (healthy : environment.Healthy start.Pending) (serves : environment.Serves source start.Pending)
    (served : source.Orderly config.mutations)
    (reached : (runMachine config environment).Reaches (shared, run) final)
    (segment : Segment stepLimit start past shared run)
    (delivered : RunDelivered config source past sink net shared run)
    (landed : RunLanded config.mutations source past base shared run) :
    RunLanded config.mutations source past base final.1 final.2 := by
  have all : Segment stepLimit start past final.1 final.2 ∧ RunDelivered config source past sink net final.1 final.2 ∧
      RunLanded config.mutations source past base final.1 final.2 := by
    apply reached.invariant
      (fun state => Segment stepLimit start past state.1 state.2 ∧
        RunDelivered config source past sink net state.1 state.2 ∧
        RunLanded config.mutations source past base state.1 state.2) ?_ ⟨segment, delivered, landed⟩
    intro state following holds stepping
    obtain ⟨segment, delivered, landed⟩ := holds
    obtain ⟨action, admitted, stepped⟩ := stepping
    have moved := runStep_moves stepped
    have line : ∀ table, ∀ batchId ∈ state.2.held table, start.Pending table batchId := by
      intro table batchId member
      exact segment.ledger.line table batchId (List.mem_append_right _ member)
    have fine := healthy.runAction segment.healthy line admitted moved
    have answered := serves.runAction segment.healthy line admitted moved
    have after := segment.step moved fine
    refine ⟨after, moved.delivered segment.ledger.grown segment.healthy fine answered delivered, ?_⟩
    refine moved.landed served segment.ledger.grown ?_ segment.healthy delivered.1 fine answered landed
    exact fun table => (List.pairwise_append.mp (after.ledger.ascending table)).1
  exact all.2.2

/-- Once a run has returned, the entries of what it handed over follow those that were in the sink. -/
theorem sinkTrace_of_returned {environment : Environment Table Key Data} {stepLimit : Option Nat}
    (positive : stepLimit ≠ some 0) (unfinished : shared.work.finishedTables = [])
    (healthy : environment.Healthy shared.work.steps.Pending)
    (serves : environment.Serves source shared.work.steps.Pending) (served : source.Orderly config.mutations)
    (reached : (runMachine config environment).Reaches (shared, .spawn stepLimit) (next, after))
    {outcome : PipelineState} (ended : after.phase = .returned outcome) [DecidableEq Key] (table : Table) :
    SameByKey entryKey (sinkTrace table next.sink) (sinkTrace table shared.sink ++
      streamTrace ((handedSince shared.history next table).flatMap (source.rows table))) := by
  have landed := Segment.landed healthy serves served reached (.spawn shared unfinished positive)
    (.spawn config source shared stepLimit) (.spawn config source shared stepLimit)
  simpa [RunTask.upcoming, ended] using landed.trace table

end Runs

section Target

variable [DecidableEq Table] {config : EtlConfig Key Data} {environment : Environment Table Key Data}
  {source : Source Table Key Data} {start final : Shared Table Key Data} {limit count : Nat}

/-- The entries of the first `count` keys of a plan were handed over in ascending order, and follow those that were
in the sink at first. -/
structure Handover (source : Source Table Key Data) (start final : Shared Table Key Data) (count : Nat) : Prop where
  grown : start.history <+: final.history
  unfinished : final.work.finishedTables = []
  ascending : ∀ table, (handedSince start.history final table).Pairwise (· < ·)
  handed : ∀ table batchId, batchId ∈ handedSince start.history final table ↔
    start.work.steps.Pending table batchId ∧ batchId ∈ start.work.steps.keys.take count
  pending : ∀ table batchId, final.work.steps.Pending table batchId ↔
    start.work.steps.Pending table batchId ∧ batchId ∉ start.work.steps.keys.take count
  trace : ∀ [DecidableEq Key] table, SameByKey entryKey (sinkTrace table final.sink) (sinkTrace table start.sink ++
    streamTrace ((handedSince start.history final table).flatMap (source.rows table)))

theorem Handover.fresh (source : Source Table Key Data) (unfinished : start.work.finishedTables = []) :
    Handover source start start 0 where
  grown := List.prefix_refl _
  unfinished := unfinished
  ascending table := by simp [handedSince]
  handed table batchId := by simp [handedSince]
  pending table batchId := by simp
  trace := by
    intro _ table
    simp only [handedSince, List.drop_length, handedIds_nil, List.flatMap_nil, streamTrace, List.map_nil,
      List.append_nil]
    exact .refl _

/-- A run that returns hands over the next keys of the plan. -/
theorem Handover.run (handover : Handover source start final count) (positive : limit ≠ 0)
    (healthy : environment.Healthy start.work.steps.Pending)
    (serves : environment.Serves source start.work.steps.Pending) (served : source.Orderly config.mutations)
    {next : Shared Table Key Data} {run : RunTask Table Key Data}
    (reached : (runMachine config environment).Reaches (final, .spawn (some limit)) (next, run))
    {outcome : PipelineState} (ended : run.phase = .returned outcome) :
    Handover source start next (count + limit) := by
  have fewer : ∀ table batchId, final.work.steps.Pending table batchId → start.work.steps.Pending table batchId :=
    fun table batchId member => ((handover.pending table batchId).mp member).1
  have limited : some limit ≠ some 0 := by simpa using positive
  have calm := healthy.mono fewer
  have answers : environment.Serves source final.work.steps.Pending :=
    fun table batchId result member => serves table batchId result (fewer table batchId member)
  have done := Segment.reached calm reached (.spawn final handover.unfinished limited)
  obtain ⟨_, more, left⟩ := done.returned_keys ended
  have since := handedSince_trans handover.grown done.ledger.grown
  have split : ∀ batchId, batchId ∈ start.work.steps.keys.take (count + limit) ↔
      batchId ∈ start.work.steps.keys.take count ∨ batchId ∈ final.work.steps.keys.take limit := by
    intro batchId
    rw [List.take_add, List.mem_append, keys_eq_drop handover.pending]
  refine ⟨handover.grown.trans done.ledger.grown, done.healthy.1, ?_, ?_, ?_, ?_⟩
  · intro table
    rw [since, List.pairwise_append]
    refine ⟨handover.ascending table, (List.pairwise_append.mp (done.ledger.ascending table)).1, ?_⟩
    intro early handed late after
    obtain ⟨_, first⟩ := (handover.handed table early).mp handed
    obtain ⟨_, later⟩ := (more table late).mp after
    have second := List.mem_of_mem_take later
    rw [keys_eq_drop handover.pending] at second
    have order := start.work.steps.keys_ascending
    rw [← List.take_append_drop count start.work.steps.keys, List.pairwise_append] at order
    exact order.2.2 early first late second
  · intro table batchId
    rw [since, List.mem_append, handover.handed, more, handover.pending, split]
    by_cases early : batchId ∈ start.work.steps.keys.take count <;> simp [early]
  · intro table batchId
    rw [left, handover.pending, split]
    tauto
  · intro _ table
    have later := sinkTrace_of_returned limited handover.unfinished calm answers served reached ended table
    rw [since, List.flatMap_append, streamTrace_append, ← List.append_assoc]
    exact later.trans ((handover.trace table).append (.refl _))

/-- A run that completes leaves nothing pending. -/
theorem Handover.exhausted (handover : Handover source start final count) (positive : limit ≠ 0)
    (healthy : environment.Healthy start.work.steps.Pending) {next : Shared Table Key Data}
    {run : RunTask Table Key Data}
    (reached : (runMachine config environment).Reaches (final, .spawn (some limit)) (next, run))
    (ended : run.phase = .returned (.stopped .completed)) (table : Table) (batchId : Nat) :
    ¬ next.work.steps.Pending table batchId := by
  have limited : some limit ≠ some 0 := by simpa using positive
  have calm := healthy.mono fun table batchId member => ((handover.pending table batchId).mp member).1
  have done := Segment.reached calm reached (.spawn final handover.unfinished limited)
  obtain ⟨outcome, _, left⟩ := done.returned_keys ended
  have short : final.work.steps.keys.length ≤ limit := by
    by_contra long
    rw [if_pos (by omega)] at outcome
    exact nomatch outcome
  intro pending
  obtain ⟨planned, outside⟩ := (left table batchId).mp pending
  rw [List.take_of_length_le short] at outside
  exact outside (WorkPlan.mem_keys_iff.mpr ⟨table, planned⟩)

/-- The content of a target table after the writes of a sink, where each entry changes the cell of its own key. -/
def targetContent {Cell : Type} [DecidableEq Key] (effect : TargetEntry Key Data → Cell → Cell) (content : Key → Cell)
    (table : Table) (sink : List (SinkWrite Table Key Data)) : Key → Cell :=
  replayTrace entryKey effect content (sinkTrace table sink)

/-- The target table holds what it held at first, changed by the rows of the taken ids one after another. -/
def TargetFollows (source : Source Table Key Data) (start final : Shared Table Key Data) (table : Table)
    (taken : Nat → Prop) : Prop :=
  ∃ ids : List Nat, ids.Pairwise (· < ·) ∧ (∀ batchId, batchId ∈ ids ↔ taken batchId) ∧
    ∀ {Cell : Type} [DecidableEq Key] (effect : TargetEntry Key Data → Cell → Cell) (content : Key → Cell),
      targetContent effect content table final.sink = replayTrace entryKey effect
        (targetContent effect content table start.sink) (streamTrace (ids.flatMap (source.rows table)))

theorem Handover.target (handover : Handover source start final count) (table : Table) :
    TargetFollows source start final table fun batchId =>
      start.work.steps.Pending table batchId ∧ batchId ∈ start.work.steps.keys.take count := by
  refine ⟨handedSince start.history final table, handover.ascending table, handover.handed table, ?_⟩
  intro Cell _ effect content
  unfold targetContent
  rw [← replayTrace_append]
  exact (handover.trace table).replay effect content

end Target

end Spicebench.Etl
