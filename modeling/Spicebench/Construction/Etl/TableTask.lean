/-
This file embeds one table task: the speculative read loop and the writes of its segments.
-/

import Spicebench.Construction.Etl.Segments
import Spicebench.Construction.Etl.WorkPlan

namespace Spicebench.Etl

open DataGeneration

variable {Table Key Data : Type} [DecidableEq Table]

/-- The environment variables and arguments that stay fixed during a run. -/
structure EtlConfig (Key Data : Type) where
  targetBatchRows : Nat
  targetPositive : 0 < targetBatchRows
  sinkChunkRows : Nat
  mutations : MutationConfig
  opIndexSort : OpIndexSort Key Data

structure ReadResult (Key Data : Type) where
  batches : List (RecordBatch Key Data)
  keyColumns : List String

def ReadResult.numRows (result : ReadResult Key Data) : Nat :=
  (result.batches.map RecordBatch.numRows).sum

def ReadResult.rows (result : ReadResult Key Data) : List (Row Key Data) :=
  result.batches.flatMap RecordBatch.rows

/-- `read_logical_batch` fails, finds no batch, or returns the batch. -/
abbrev ReadOutcome (Key Data : Type) := Except String (Option (ReadResult Key Data))

/-- One call of `Sink::write`. -/
structure SinkWrite (Table Key Data : Type) where
  table : Table
  batchId : Nat
  op : InsertOp
  rows : List (Key × Data)

/-- The history records which logical batches were handed to the sink, and each failed read,
write or flush. No part of the program reads it. -/
inductive Event (Table : Type) where
  | handed (table : Table) (batchId : Nat)
  | failed
  deriving DecidableEq, Repr

/-- The state that the background task and its table tasks share. -/
structure Shared (Table Key Data : Type) where
  work : PipelineWorkState Table
  netRows : Table → Option Int
  sink : List (SinkWrite Table Key Data)
  history : List (Event Table)

def Shared.withSteps (shared : Shared Table Key Data) (steps : WorkPlan Table) :
    Shared Table Key Data :=
  { shared with work := { shared.work with steps } }

def Shared.fail (shared : Shared Table Key Data) : Shared Table Key Data :=
  { shared with history := shared.history ++ [.failed] }

def Shared.hand (shared : Shared Table Key Data) (table : Table) (batchIds : List Nat) :
    Shared Table Key Data :=
  { shared with history := shared.history ++ batchIds.map (Event.handed table) }

/-- The local variables of `read_batches_until_min_rows`; `consumed` lists the merged ids. -/
structure ReadLoop (Key Data : Type) where
  startBatchId : Nat
  allBatches : List (RecordBatch Key Data)
  totalRows : Nat
  keyColumns : Option (List String)
  reserveCursor : Nat
  readAny : Bool
  consumedWorkUnits : Nat
  rowsRead : Nat
  canReserveMore : Bool
  inFlight : List Nat
  scheduled : List Nat
  completed : List (Nat × Option (ReadResult Key Data))
  consumed : List Nat

/-- The loop starts with the read of the first id in flight. -/
def ReadLoop.start (batchId : Nat) : ReadLoop Key Data where
  startBatchId := batchId
  allBatches := []
  totalRows := 0
  keyColumns := none
  reserveCursor := batchId
  readAny := false
  consumedWorkUnits := 1
  rowsRead := 0
  canReserveMore := true
  inFlight := [batchId]
  scheduled := [batchId]
  completed := []
  consumed := []

/-- At most two source reads of one table task are in flight. -/
def maxInFlightSourceBatchReads : Nat := 2

/-- This is the condition of the inner reservation loop. -/
def ReadLoop.wantsMore (target : Nat) (reads : ReadLoop Key Data) : Bool :=
  reads.canReserveMore && decide (reads.inFlight.length < maxInFlightSourceBatchReads) &&
    decide (reads.totalRows < target)

/-- One read result joins the accumulated batches. -/
def ReadLoop.merge (reads : ReadLoop Key Data) (batchId : Nat) (result : ReadResult Key Data) :
    ReadLoop Key Data :=
  { reads with
    completed := reads.completed.filter (·.1 ≠ batchId)
    keyColumns := reads.keyColumns.or (some result.keyColumns)
    totalRows := reads.totalRows + result.numRows
    rowsRead := reads.rowsRead + result.numRows
    allBatches := reads.allBatches ++ result.batches
    readAny := true
    consumed := reads.consumed ++ [batchId] }

/-- The loop returns its batches, the table-finished flag, the counts, and the ids to restore. -/
structure ReadReturn (Key Data : Type) where
  batches : List (RecordBatch Key Data)
  keyColumns : List String
  tableFinished : Bool
  consumedWorkUnits : Nat
  rowsRead : Nat
  consumed : List Nat
  restored : List Nat

def ReadLoop.toReturn (reads : ReadLoop Key Data) (tableFinished : Bool) (restored : List Nat) :
    ReadReturn Key Data where
  batches := reads.allBatches
  keyColumns := reads.keyColumns.getD []
  tableFinished := tableFinished
  consumedWorkUnits := reads.consumedWorkUnits - restored.length
  rowsRead := reads.rowsRead
  consumed := reads.consumed
  restored := restored

/-- Draining the completed reads either continues the loop or leaves it. -/
inductive Drained (Key Data : Type) where
  | again (reads : ReadLoop Key Data)
  | leave (result : ReadReturn Key Data)

/-- The completed reads are merged in the order in which their ids were scheduled. -/
def ReadLoop.drain (target : Nat) : List Nat → ReadLoop Key Data → Drained Key Data
  | [], reads => .again { reads with scheduled := [] }
  | batchId :: rest, reads =>
      match reads.completed.lookup batchId with
      | none => .again { reads with scheduled := batchId :: rest }
      | some none =>
          -- A missing batch ends the table; without earlier data the later reservations go back.
          if reads.readAny then .leave (reads.toReturn true [])
          else .leave { reads.toReturn true rest with batches := [], keyColumns := [] }
      | some (some result) =>
          let reads := reads.merge batchId result
          if target ≤ reads.totalRows then .leave (reads.toReturn false rest)
          else ReadLoop.drain target rest reads

/-- A finished table task reports whether its table is finished, and its counts. -/
structure TaskReport where
  tableFinished : Bool
  consumedWorkUnits : Nat
  rowsRead : Nat
  deriving DecidableEq, Repr

/-- The state of a table task while it writes its coalesced batches. -/
structure WriteLoop (Key Data : Type) where
  batchId : Nat
  keyColumns : List String
  pending : List (RecordBatch Key Data)
  segments : List (OpSegment Key Data)
  op : InsertOp
  chunks : List (List (Key × Data))
  report : TaskReport

inductive TaskState (Key Data : Type) where
  | initial (batchId : Nat)
  | reading (reads : ReadLoop Key Data)
  | writing (writes : WriteLoop Key Data)
  | done (result : Except String TaskReport)

inductive TaskAction (Key Data : Type) where
  | firstRead (batchId : Nat) (outcome : ReadOutcome Key Data)
  | reserve
  | join (batchId : Nat) (outcome : ReadOutcome Key Data)
  | joinNone
  | nextBatch
  | nextSegment
  | writeChunk (index : Nat) (outcome : Except String Unit)
  | finish

/-- The task starts to write its coalesced batches. -/
def startWrites (config : EtlConfig Key Data) (batchId : Nat) (keyColumns : List String)
    (batches : List (RecordBatch Key Data)) (report : TaskReport) : TaskState Key Data :=
  .writing ⟨batchId, keyColumns, coalesceBatches config.targetBatchRows batches, [], .insert, [], report⟩

/-- The task leaves its read loop: it restores reservations, and hands its batches over. -/
def leaveReads (config : EtlConfig Key Data) (table : Table) (batchId : Nat)
    (shared : Shared Table Key Data) (result : ReadReturn Key Data) :
    Shared Table Key Data × TaskState Key Data :=
  let shared := shared.withSteps
    (shared.work.steps.restoreUnconsumedReservations table result.restored)
  if result.batches.isEmpty then
    (shared, .done (.ok ⟨true, result.consumedWorkUnits, result.rowsRead⟩))
  else
    (shared.hand table result.consumed,
      startWrites config batchId result.keyColumns result.batches
        ⟨result.tableFinished, result.consumedWorkUnits, result.rowsRead⟩)

/-- One read of the loop has completed and is joined. -/
def joinRead (config : EtlConfig Key Data) (table : Table) (shared : Shared Table Key Data)
    (reads : ReadLoop Key Data) (batchId : Nat) (outcome : ReadOutcome Key Data) :
    Shared Table Key Data × TaskState Key Data :=
  match outcome with
  | .error message => (shared.fail, .done (.error message))
  | .ok result =>
      let reads := { reads with
        inFlight := reads.inFlight.erase batchId
        completed := (batchId, result) :: reads.completed }
      match reads.drain config.targetBatchRows reads.scheduled with
      | .leave returned => leaveReads config table reads.startBatchId shared returned
      | .again reads =>
          if reads.inFlight.isEmpty && reads.completed.isEmpty then
            leaveReads config table reads.startBatchId shared (reads.toReturn false [])
          else (shared, .reading reads)

/-- `initialize` reads the first batch of a table and treats a missing one as an error. -/
def firstRead (config : EtlConfig Key Data) (table : Table) (shared : Shared Table Key Data)
    (batchId : Nat) (outcome : ReadOutcome Key Data) : Shared Table Key Data × TaskState Key Data :=
  match outcome with
  | .error message => (shared.fail, .done (.error message))
  | .ok none => (shared.fail, .done (.error s!"No data for table at batch {batchId}"))
  | .ok (some result) => (shared.hand table [batchId],
      startWrites config batchId result.keyColumns result.batches ⟨false, 1, result.numRows⟩)

/-- The net row count of a table changes when a batch is split into segments. -/
def countNetRows (netRows : Table → Option Int) (table : Table) (delta : Int) : Table → Option Int :=
  if delta = 0 then netRows
  else Function.update netRows table (some ((netRows table).getD 0 + delta))

/-- One step of a table task. The lock on the work state is held for at most one step. -/
def taskStep (config : EtlConfig Key Data) (maxBatchId : Option Nat) (table : Table)
    (shared : Shared Table Key Data) (task : TaskState Key Data) (action : TaskAction Key Data) :
    Option (Shared Table Key Data × TaskState Key Data) :=
  match task, action with
  | .initial batchId, .firstRead firstBatchId outcome =>
      if firstBatchId = batchId then some (firstRead config table shared batchId outcome) else none
  | .reading reads, .reserve =>
      if reads.wantsMore config.targetBatchRows then
        match shared.work.steps.reserveNextBatchIdForTable table reads.reserveCursor maxBatchId with
        | none => some (shared, .reading { reads with canReserveMore := false })
        | some (batchId, steps) => some (shared.withSteps steps, .reading { reads with
            reserveCursor := batchId
            consumedWorkUnits := reads.consumedWorkUnits + 1
            scheduled := reads.scheduled ++ [batchId]
            inFlight := reads.inFlight ++ [batchId] })
      else none
  | .reading reads, .join batchId outcome =>
      if reads.wantsMore config.targetBatchRows then none
      else if batchId ∈ reads.inFlight then some (joinRead config table shared reads batchId outcome)
      else none
  | .reading reads, .joinNone =>
      if reads.wantsMore config.targetBatchRows then none
      else if reads.inFlight.isEmpty then
        some (leaveReads config table reads.startBatchId shared (reads.toReturn false []))
      else none
  | .writing writes, .nextBatch =>
      match writes.chunks, writes.segments, writes.pending with
      | [], [], batch :: pending =>
          let segments := buildSegmentsForBatch config.opIndexSort batch writes.keyColumns config.mutations
          some ({ shared with netRows := countNetRows shared.netRows table (netDelta segments) },
            .writing { writes with pending, segments })
      | _, _, _ => none
  | .writing writes, .nextSegment =>
      match writes.chunks, writes.segments with
      | [], segment :: segments => some (shared, .writing { writes with
          segments, op := segment.op, chunks := sinkChunks config.sinkChunkRows segment })
      | _, _ => none
  | .writing writes, .writeChunk index outcome =>
      match writes.chunks[index]?, outcome with
      | some chunk, .ok () => some
          ({ shared with sink := shared.sink ++ [⟨table, writes.batchId, writes.op, chunk⟩] },
            .writing { writes with chunks := writes.chunks.eraseIdx index })
      | some _, .error message => some (shared.fail, .done (.error message))
      | none, _ => none
  | .writing writes, .finish =>
      if writes.chunks.isEmpty && writes.segments.isEmpty && writes.pending.isEmpty then
        some (shared, .done (.ok writes.report))
      else none
  | _, _ => none

end Spicebench.Etl
