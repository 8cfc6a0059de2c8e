/-
This file embeds the writes and flushes of the ADBC sink over its shared map of bulk ingest streams.
-/

import Spicebench.Construction.Etl.Segments
import Spicebench.Construction.Sink.Ingest
import Spicebench.Library.Machine
import Spicebench.Library.OrderedMap
import Mathlib.Data.List.Perm.Basic

namespace Spicebench.Sink

open Library Etl

variable {Schema Row : Type} [DecidableEq Schema]

inductive UpdateStrategy where
  | statement
  | stagingTable
  | bulkIngestUpsert
  deriving DecidableEq, Repr

/-- The settings of the sink, with the texts of its statements. -/
structure AdbcSink (Schema Row : Type) where
  target : AdbcTarget
  sizes : Sizes Schema Row
  updateStrategy : UpdateStrategy
  reuseBulkIngestStreams : Bool
  flushStreamBeforeUpsert : Bool
  bulkIngestStreamBuffer : Nat
  stagingAdapter : Bool
  deleteSqlStatements : String → RecordBatch Schema Row → List String → Except String (List String)
  updateSqlStatements : String → RecordBatch Schema Row → List String → Except String (List String)
  stagingMergeSql : String → String → Schema → List String → Except String String

/-- A write names its table, its batch and its operation, and reads the clock for a staging table. -/
structure WriteCall (Schema Row : Type) where
  table : String
  batch : RecordBatch Schema Row
  op : InsertOp
  clock : Nat

/-- The target sees rows, rows in a staging table, and statements. -/
inductive Event (Row : Type) where
  | row (row : Row)
  | staged (row : Row)
  | statement (sql : String)
  deriving DecidableEq, Repr

/-- The pool, the driver and the system adapter answer a call. -/
structure Surroundings (Schema Row : Type) where
  connection : Except String Unit
  createStagingTable : Except String Unit
  driver : Driver Schema Row
  execute : List String → String → Except String Unit

/-- The rows that the accepted calls of a log handed over. -/
def ingestedRows (log : List (IngestCall Schema Row)) : List Row :=
  (log.filter (·.accepted)).flatMap fun call => call.batches.flatMap (·.rows)

/-- The statements are executed up to the first one that fails. -/
def executeAll (answer : List String → String → Except String Unit) (failed : String → String) :
    List String → List String → Except String Unit × List String
  | before, [] => (.ok (), before)
  | before, sql :: rest =>
      match answer before sql with
      | .ok () => executeAll answer failed (before ++ [sql]) rest
      | .error message => (.error (failed message), before)

namespace AdbcSink

variable (sink : AdbcSink Schema Row)

def splitInsertBatchForIngest (batch : RecordBatch Schema Row) : Except String (List (RecordBatch Schema Row)) :=
  let maxIngestBytes := sink.target.maxIngestBatchBytes
  let approxSize := sink.sizes.approxSerializedBatchSize batch
  if approxLikelySafe approxSize maxIngestBytes then .ok [batch]
  else if approxLikelyTooLarge approxSize maxIngestBytes then splitForSize sink.sizes batch maxIngestBytes
  else
    match sink.sizes.serializedBatchSize batch with
    | .error message => .error message
    | .ok exactSize =>
        if exactSize ≤ maxIngestBytes then .ok [batch] else splitForSize sink.sizes batch maxIngestBytes

/-- The stream of the table is ended before these operations. -/
def shouldFlush (op : InsertOp) : Bool :=
  sink.reuseBulkIngestStreams && match op with
    | .insert => false
    | .update _ => sink.updateStrategy ≠ .bulkIngestUpsert || sink.flushStreamBeforeUpsert
    | .delete _ => true

/-- The rows of these operations go through the stream of the table. -/
def usesStream (op : InsertOp) : Bool :=
  sink.reuseBulkIngestStreams && match op with
    | .insert => true
    | .update _ => sink.updateStrategy = .bulkIngestUpsert && !sink.flushStreamBeforeUpsert
    | .delete _ => false

def ingestDirectly (driver : Driver Schema Row) (tableName : String) (batch : RecordBatch Schema Row) :
    Except String Unit × List Row :=
  let (result, log) := sink.target.ingestInsertBatch driver tableName sink.sizes batch []
  (result, ingestedRows log)

def stagingTableName (call : WriteCall Schema Row) : String := s!"_spicebench_stg_{call.table}_{call.clock}"

/-- The batch goes into a staging table, which is merged into the target; what happens to the staging
table itself is left out. -/
def stagingMergeUpdate (around : Surroundings Schema Row) (call : WriteCall Schema Row) (keyColumns : List String) :
    Except String Unit × List (Event Row) :=
  let stagingTable := stagingTableName call
  match sink.stagingMergeSql call.table stagingTable call.batch.schema keyColumns with
  | .error message => (.error message, [])
  | .ok mergeSql =>
      match if sink.stagingAdapter then around.createStagingTable else .ok () with
      | .error message =>
          (.error s!"Failed to create staging table '{stagingTable}' for '{call.table}': {message}", [])
      | .ok () =>
          match sink.ingestDirectly around.driver stagingTable call.batch with
          | (.error _, rows) =>
              (.error s!"Failed to ingest update data into staging table '{stagingTable}'", rows.map .staged)
          | (.ok (), rows) =>
              match around.execute [] mergeSql with
              | .ok () => (.ok (), rows.map .staged ++ [.statement mergeSql])
              | .error message =>
                  (.error s!"MERGE INTO update failed for '{call.table}': {message}", rows.map .staged)

def executeStatements (around : Surroundings Schema Row) (failed : String → String)
    (statements : Except String (List String)) : Except String Unit × List (Event Row) :=
  match statements with
  | .error message => (.error message, [])
  | .ok statements =>
      let (result, executed) := executeAll around.execute failed [] statements
      (result, executed.map .statement)

/-- A write that does not go through a stream has its effects itself. -/
def perform (around : Surroundings Schema Row) (call : WriteCall Schema Row) :
    Except String Unit × List (Event Row) :=
  let direct : Except String Unit × List (Event Row) :=
    let (result, rows) := sink.ingestDirectly around.driver call.table call.batch
    (result, rows.map .row)
  match around.connection with
  | .error message => (.error s!"Failed to get ADBC connection from pool: {message}", [])
  | .ok () =>
      match call.op with
      | .insert => direct
      | .delete keyColumns =>
          executeStatements around (fun message => s!"ADBC delete execution failed for '{call.table}': {message}")
            (sink.deleteSqlStatements call.table call.batch keyColumns)
      | .update keyColumns =>
          match sink.updateStrategy with
          | .stagingTable => sink.stagingMergeUpdate around call keyColumns
          | .bulkIngestUpsert => direct
          | .statement =>
              executeStatements around (fun message => s!"ADBC update execution failed for '{call.table}': {message}")
                (sink.updateSqlStatements call.table call.batch keyColumns)

end AdbcSink

/-- An open stream remembers the schema of its batches and the worker that its channel feeds. -/
structure TableBulkIngestStream (Schema : Type) where
  schema : Schema
  worker : Nat
  deriving DecidableEq

/-- A worker runs until its ingest returns; after an error it first drops its receiver. -/
inductive WorkerStatus where
  | running
  | stopping (message : String)
  | ended (result : Except String Unit)

/-- The join handle of a worker is held until it is awaited, or dropped. -/
inductive Handle where
  | held
  | joined
  | dropped
  deriving DecidableEq, Repr

/-- A worker receives the batches of its channel, each with the write that sent it, and its ingest
applies them in order. -/
structure Worker (Schema Row : Type) where
  table : String
  queue : List (Nat × RecordBatch Schema Row)
  received : List (Nat × RecordBatch Schema Row)
  pending : List (Nat × RecordBatch Schema Row)
  status : WorkerStatus
  handle : Handle

def Worker.spawned (table : String) : Worker Schema Row := ⟨table, [], [], [], .running, .held⟩

def Worker.isFinished (worker : Worker Schema Row) : Bool :=
  match worker.status with
  | .ended _ => true
  | _ => false

/-- A write is at one of the places where others may go first. -/
inductive Phase (Schema Row : Type) where
  | started
  | lookup (subBatches : List (RecordBatch Schema Row))
  | ending (subBatches : Option (List (RecordBatch Schema Row)))
  | closing (worker : Nat) (subBatches : Option (List (RecordBatch Schema Row)))
  | spawning (subBatches : List (RecordBatch Schema Row))
  | sending (worker : Nat) (subBatches : List (RecordBatch Schema Row))
  | failing (worker : Nat)
  | surfacing (worker removed : Nat)
  | performing
  | finished (result : Except String Unit)

/-- A write keeps its clone of the sender until it returns, and a removed stream keeps its own while
the error of its worker is awaited. -/
def Phase.keepsSender (worker : Nat) : Phase Schema Row → Bool
  | .sending own _ => own = worker
  | .failing own => own = worker
  | .surfacing own removed => own = worker || removed = worker
  | _ => false

def Phase.isFinished : Phase Schema Row → Bool
  | .finished _ => true
  | _ => false

/-- What follows the end of a stream: new batches need another one, and other writes go on themselves. -/
def Phase.afterEnding : Option (List (RecordBatch Schema Row)) → Phase Schema Row
  | some subBatches => .spawning subBatches
  | none => .performing

structure Task (Schema Row : Type) where
  call : WriteCall Schema Row
  phase : Phase Schema Row

/-- A flush closes the drained streams one after the other and remembers the first error. -/
inductive FlushPhase where
  | idle
  | closing (streams : List (String × Nat)) (firstErr : Option String)
  | returned (result : Except String Unit)

/-- The streams that wait for their turn keep their senders. -/
def FlushPhase.keepsSender (worker : Nat) : FlushPhase → Bool
  | .closing (_ :: rest) _ => rest.any fun stream => stream.2 = worker
  | _ => false

/-- The sink is called again after a flush that went through. -/
def FlushPhase.isOpen : FlushPhase → Bool
  | .idle => true
  | .returned (.ok ()) => true
  | _ => false

/-- An event on a table belongs to the write that made it. -/
structure LogEntry (Row : Type) where
  table : String
  write : Nat
  event : Event Row

/-- The sink, its writes and its workers, and the events on the target. -/
structure State (Schema Row : Type) where
  streams : OrderedMap String (TableBulkIngestStream Schema)
  workers : List (Worker Schema Row)
  writes : List (Task Schema Row)
  flush : FlushPhase
  log : List (LogEntry Row)

namespace State

def initial : State Schema Row := ⟨.empty, [], [], .idle, []⟩

variable (state : State Schema Row)

def setPhase (write : Nat) (phase : Phase Schema Row) : State Schema Row :=
  { state with writes := state.writes.modify write fun task => { task with phase } }

def modifyWorker (worker : Nat) (change : Worker Schema Row → Worker Schema Row) : State Schema Row :=
  { state with workers := state.workers.modify worker change }

/-- Awaiting a worker takes its handle. -/
def join (worker : Nat) : State Schema Row :=
  state.modifyWorker worker fun worker => { worker with handle := .joined }

def removeStream (table : String) : State Schema Row :=
  { state with streams := state.streams.alter table fun _ => none }

/-- The stream of a new worker takes the place of the table's stream, whose handle is dropped. -/
def insertStream (table : String) (schema : Schema) : State Schema Row :=
  let replaced := match state.streams.get? table with
    | some stream => state.modifyWorker stream.worker fun worker => { worker with handle := .dropped }
    | none => state
  { replaced with
    workers := replaced.workers ++ [.spawned table]
    streams := state.streams.alter table fun _ => some ⟨schema, state.workers.length⟩ }

/-- Some sender of the worker's channel is alive. -/
def senderAlive (worker : Nat) : Bool :=
  state.streams.entries.any (fun entry => entry.2.worker = worker) ||
  state.writes.any (fun task => task.phase.keepsSender worker) ||
  state.flush.keepsSender worker

def record (table : String) (write : Nat) (events : List (Event Row)) : State Schema Row :=
  { state with log := state.log ++ events.map fun event => ⟨table, write, event⟩ }

end State

inductive WriteMove (Schema Row : Type) where
  | start
  | lookUp
  | remove
  | await
  | spawn
  | send
  | perform (around : Surroundings Schema Row)

inductive WorkerMove where
  | receive
  | apply
  | complete
  | abort (message : String)
  | finish

inductive Action (Schema Row : Type) where
  | call (call : WriteCall Schema Row)
  | write (write : Nat) (move : WriteMove Schema Row)
  | worker (worker : Nat) (move : WorkerMove)
  | drain (order : List (String × Nat))
  | awaitFlush

namespace AdbcSink

variable (sink : AdbcSink Schema Row) (state : State Schema Row)

/-- A write without rows returns at once, and the others take the way of their operation. -/
def startPhase (call : WriteCall Schema Row) : Phase Schema Row :=
  if call.batch.numRows = 0 then .finished (.ok ())
  else if sink.shouldFlush call.op then .ending none
  else if sink.usesStream call.op then
    match sink.splitInsertBatchForIngest call.batch with
    | .error message => .finished (.error message)
    | .ok [] => .finished (.error "Expected at least one insert batch")
    | .ok subBatches => .lookup subBatches
  else .performing

/-- An open stream of the same schema is used when its worker has not finished. -/
def lookUpPhase (table : String) (schema : Schema) (subBatches : List (RecordBatch Schema Row)) :
    Phase Schema Row :=
  match state.streams.get? table with
  | some stream =>
      match state.workers[stream.worker]? with
      | some worker =>
          if stream.schema = schema ∧ ¬ worker.isFinished then .sending stream.worker subBatches
          else .ending (some subBatches)
      | none => .ending (some subBatches)
  | none => .ending (some subBatches)

/-- The map is locked to take the stream of the table out. -/
def removeStep (write : Nat) (task : Task Schema Row) : Option (State Schema Row) :=
  match task.phase, state.streams.get? task.call.table with
  | .ending subBatches, some stream =>
      some ((state.removeStream task.call.table).setPhase write (.closing stream.worker subBatches))
  | .ending subBatches, none => some (state.setPhase write (.afterEnding subBatches))
  | .failing own, some stream =>
      some ((state.removeStream task.call.table).setPhase write (.surfacing own stream.worker))
  | .failing _, none => some (state.setPhase write (.finished
      (.error s!"Bulk ingest stream for table '{task.call.table}' is no longer available")))
  | _, _ => none

/-- The worker of a stream that was taken out is awaited. -/
def awaitStep (write : Nat) (task : Task Schema Row) : Option (State Schema Row) :=
  match task.phase with
  | .closing index subBatches =>
      match (state.workers[index]?).map Worker.status with
      | some (.ended (.ok ())) => some ((state.join index).setPhase write (.afterEnding subBatches))
      | some (.ended (.error message)) => some ((state.join index).setPhase write (.finished (.error message)))
      | _ => none
  | .surfacing _ index =>
      match (state.workers[index]?).map Worker.status with
      | some (.ended (.ok ())) => some ((state.join index).setPhase write (.finished (.error
          s!"Bulk ingest worker for '{task.call.table}' exited without error but before all data was sent")))
      | some (.ended (.error _)) => some ((state.join index).setPhase write (.finished (.error
          s!"Bulk ingest worker for '{task.call.table}' failed")))
      | _ => none
  | _ => none

/-- A batch is queued when the channel has room, and fails when the receiver is gone. -/
def sendStep (write : Nat) (task : Task Schema Row) : Option (State Schema Row) :=
  match task.phase with
  | .sending index (batch :: rest) =>
      match state.workers[index]? with
      | some worker =>
          match worker.status with
          | .running =>
              if worker.queue.length < sink.bulkIngestStreamBuffer then
                some ((state.modifyWorker index fun worker =>
                  { worker with queue := worker.queue ++ [(write, batch)] }).setPhase write
                    (if rest = [] then .finished (.ok ()) else .sending index rest))
              else none
          | _ => some (state.setPhase write (.failing index))
      | none => none
  | _ => none

/-- The steps of a worker: its ingest returns without an error once the channel is closed and all
batches are applied. -/
def workerStep (index : Nat) (worker : Worker Schema Row) : WorkerMove → Option (State Schema Row)
  | .receive =>
      match worker.status, worker.queue with
      | .running, item :: rest => some (state.modifyWorker index fun worker =>
          { worker with queue := rest, received := worker.received ++ [item], pending := worker.pending ++ [item] })
      | _, _ => none
  | .apply =>
      match worker.status, worker.pending with
      | .running, item :: rest =>
          some ((state.modifyWorker index fun worker => { worker with pending := rest }).record worker.table item.1
            (item.2.rows.map .row))
      | _, _ => none
  | .complete =>
      match worker.status, worker.queue, worker.pending with
      | .running, [], [] =>
          if state.senderAlive index then none
          else some (state.modifyWorker index fun worker => { worker with status := .ended (.ok ()) })
      | _, _, _ => none
  | .abort message =>
      match worker.status with
      | .running => some (state.modifyWorker index fun worker => { worker with status := .stopping message })
      | _ => none
  | .finish =>
      match worker.status with
      | .stopping message =>
          some (state.modifyWorker index fun worker => { worker with status := .ended (.error message) })
      | _ => none

/-- All streams are taken out of the map, in the order in which it yields them. -/
def drainStep (order : List (String × Nat)) : Option (State Schema Row) :=
  if state.flush.isOpen ∧ state.writes.all (·.phase.isFinished) then
    if sink.reuseBulkIngestStreams then
      if order.isPerm (state.streams.entries.map fun entry => (entry.1, entry.2.worker)) then
        some { state with streams := .empty, flush := .closing order none }
      else none
    else some { state with flush := .returned (.ok ()) }
  else none

/-- The flush awaits the worker of the next stream, or returns. -/
def awaitFlushStep : Option (State Schema Row) :=
  match state.flush with
  | .closing [] firstErr => some { state with flush := .returned (match firstErr with
      | some message => .error message
      | none => .ok ()) }
  | .closing ((_, index) :: rest) firstErr =>
      match (state.workers[index]?).map Worker.status with
      | some (.ended (.ok ())) => some { state.join index with flush := .closing rest firstErr }
      | some (.ended (.error message)) =>
          some { state.join index with flush := .closing rest (some (firstErr.getD message)) }
      | _ => none
  | _ => none

/-- The steps of a write. -/
def writeStep (write : Nat) (task : Task Schema Row) : WriteMove Schema Row → Option (State Schema Row)
  | .start =>
      match task.phase with
      | .started => some (state.setPhase write (sink.startPhase task.call))
      | _ => none
  | .lookUp =>
      match task.phase with
      | .lookup (first :: rest) =>
          some (state.setPhase write (lookUpPhase state task.call.table first.schema (first :: rest)))
      | _ => none
  | .remove => removeStep state write task
  | .await => awaitStep state write task
  | .spawn =>
      match task.phase with
      | .spawning (first :: rest) =>
          some ((state.insertStream task.call.table first.schema).setPhase write
            (.sending state.workers.length (first :: rest)))
      | _ => none
  | .send => sink.sendStep state write task
  | .perform around =>
      match task.phase with
      | .performing =>
          let (result, events) := sink.perform around task.call
          some ((state.record task.call.table write events).setPhase write (.finished result))
      | _ => none

def step : Action Schema Row → Option (State Schema Row)
  | .call call =>
      if state.flush.isOpen then
        some { state with writes := state.writes ++ [⟨call, .started⟩], flush := .idle }
      else none
  | .write write move => (state.writes[write]?).bind fun task => sink.writeStep state write task move
  | .worker index move => (state.workers[index]?).bind fun worker => workerStep state index worker move
  | .drain order => sink.drainStep state order
  | .awaitFlush => awaitFlushStep state

def machine : Machine (State Schema Row) (Action Schema Row) := ⟨sink.step, fun _ => True⟩

end AdbcSink

end Spicebench.Sink
