/-
This file embeds the data generator: its table tasks, the counters and the map that they share, and the metadata of
the version; and what the generate command makes of its result.
-/

import Spicebench.Construction.Dataset.Storage
import Spicebench.Library.Machine

namespace Spicebench.DataGeneration

open Library

variable {Store Fault Key Data : Type}

structure VersionConfig where
  scenario : String
  scaleFactor : Double
  numSteps : UInt16
  datasetType : String
  updateRatio : F64
  deleteRatio : F64
  bootstrap : Bool
  numMutationSteps : UInt16
  churnFraction : F64

/-- What a dataset says of its tables. -/
structure DatasetTables where
  tables : KeyedMap String DatasetTable
  primaryKey : String → List String

structure Metrics where
  batchesGenerated : Nat
  batchesWritten : Nat
  rowsWritten : Nat
  bytesWritten : Nat
  writeErrors : Nat
  rowsCreated : Nat
  rowsUpdated : Nat
  rowsDeleted : Nat
  deriving DecidableEq, Repr

namespace Metrics

def new : Metrics := ⟨0, 0, 0, 0, 0, 0, 0, 0⟩

/-- The rows are counted by their `_op`, when the batch has that column. -/
def recordGeneration (metrics : Metrics) (batch : RecordBatch Key Data) : Metrics :=
  let count := fun op : Op => if batch.schema.hasOp then batch.rows.countP fun row => row.op == some op else 0
  { metrics with
    batchesGenerated := metrics.batchesGenerated + 1
    rowsCreated := metrics.rowsCreated + count .create
    rowsUpdated := metrics.rowsUpdated + count .update
    rowsDeleted := metrics.rowsDeleted + count .delete }

def recordWrite (metrics : Metrics) (result : WriteResult) : Metrics :=
  { metrics with
    batchesWritten := metrics.batchesWritten + 1
    rowsWritten := metrics.rowsWritten + result.rowsWritten
    bytesWritten := metrics.bytesWritten + result.bytesWritten }

def recordError (metrics : Metrics) : Metrics := { metrics with writeErrors := metrics.writeErrors + 1 }

end Metrics

/-- The split parts of each logical batch that was written, by table and batch id. -/
abbrev WrittenBatches := KeyedMap String (KeyedMap Nat (List Nat))

/-- Batches without split parts are left out of the part lists. -/
def tableMetadata (dataset : DatasetTables) (tableName : String) (batchParts : KeyedMap Nat (List Nat)) :
    TableMetadata where
  name := tableName
  schema := ((dataset.tables.lookup tableName).map DatasetTable.rehydratedSchema).getD []
  timeColumn := ((dataset.tables.lookup tableName).map DatasetTable.timeColumn).getD ""
  keyColumns := dataset.primaryKey tableName
  batchIds := batchParts.sortedKeys
  batchParts := batchParts.rebuild fun _ partIds =>
    if partIds.isEmpty then none else some (partIds.insertionSort (· ≤ ·))

def versionMetadata (config : VersionConfig) (dataset : DatasetTables) (written : WrittenBatches) :
    VersionMetadata where
  version := formatScaleFactor config.scaleFactor
  scenario := config.scenario
  scaleFactor := config.scaleFactor
  numSteps := config.numSteps
  datasetType := config.datasetType
  mutations := ⟨config.updateRatio, config.deleteRatio, config.bootstrap, config.numMutationSteps,
    config.churnFraction⟩
  tables := written.rebuild fun tableName batchParts => some (tableMetadata dataset tableName batchParts)

/-- The task of a table awaits the dataset or the storage, has their answer, has returned, or is joined. -/
inductive TablePhase (Key Data : Type) where
  | generating (batchId : Nat)
  | writing (batchId : Nat) (batch : RecordBatch Key Data)
  | written (batchId : Nat) (outcome : Except String WriteResult)
  | returned (result : Except String Unit)
  | panicked (message : String)
  | joined

/-- The tasks and what they share. The batches produced and the parts reported are a history that no part of the
program reads. The command has failed, or has got past its error check, when it has ended. -/
structure GenerateState (Store Key Data : Type) where
  phase : String → TablePhase Key Data
  store : Store
  written : WrittenBatches
  metrics : Metrics
  ended : Option (Except String Unit)
  produced : String → List (RecordBatch Key Data)
  reported : String → Nat → Option (List Nat)

namespace GenerateState

variable (state : GenerateState Store Key Data)

def start (store : Store) : GenerateState Store Key Data where
  phase := fun _ => .generating 0
  store := store
  written := ∅
  metrics := .new
  ended := none
  produced := fun _ => []
  reported := fun _ _ => none

def enter (tableName : String) (phase : TablePhase Key Data) : GenerateState Store Key Data :=
  { state with phase := Function.update state.phase tableName phase }

/-- The dataset has answered with a batch, with the end of the table, or with an error. -/
def answered (tableName : String) (batchId : Nat) (answer : Except String (Option (RecordBatch Key Data))) :
    GenerateState Store Key Data :=
  match answer with
  | .ok (some batch) =>
      { state.enter tableName (.writing batchId batch) with
        metrics := state.metrics.recordGeneration batch
        produced := Function.update state.produced tableName (state.produced tableName ++ [batch]) }
  | .ok none => state.enter tableName (.returned (.ok ()))
  | .error message => state.enter tableName (.returned (.error s!"Dataset error for table {tableName}: {message}"))

def wrote (tableName : String) (batchId : Nat) (answer : Except String WriteResult × Store) :
    GenerateState Store Key Data :=
  { state.enter tableName (.written batchId answer.1) with
    store := answer.2
    reported := Function.update state.reported tableName
      (Function.update (state.reported tableName) batchId (answer.1.toOption.map WriteResult.partIds)) }

/-- The batch id advances after a failed write too. -/
def noted (tableName : String) (batchId : Nat) (outcome : Except String WriteResult) : GenerateState Store Key Data :=
  match outcome with
  | .ok result =>
      { state.enter tableName (.generating (batchId + 1)) with
        metrics := state.metrics.recordWrite result
        written := state.written.insertAt tableName batchId result.partIds }
  | .error _ =>
      { state.enter tableName (.generating (batchId + 1)) with metrics := state.metrics.recordError }

/-- The command ends with the first error of a task. -/
def join (tableName : String) : Option (GenerateState Store Key Data) :=
  match state.phase tableName with
  | .returned (.ok ()) => some (state.enter tableName .joined)
  | .returned (.error message) => some { state with ended := some (.error message) }
  | .panicked message => some { state with ended := some (.error s!"Task panicked: {message}") }
  | _ => none

def allJoined (dataset : DatasetTables) : Bool :=
  dataset.tables.keys.all fun tableName =>
    match state.phase tableName with
    | .joined => true
    | _ => false

/-- The metadata is written, and the errors of the tasks are counted. -/
def finish (answer : Except String Unit × Store) : GenerateState Store Key Data :=
  match answer with
  | (.error message, store) => { state with store, ended := some (.error message) }
  | (.ok (), store) =>
      if 0 < state.metrics.writeErrors then
        { state with store, ended := some (.error s!"Ingestion completed with {state.metrics.writeErrors} errors") }
      else { state with store, ended := some (.ok ()) }

end GenerateState

/-- The dataset answers the task of a table, its write is done, the answer of the storage is noted, the task is joined
or has panicked, or all tasks are done and the metadata is written. -/
inductive GenerateAction (Fault Key Data : Type) where
  | nextBatch (tableName : String) (answer : Except String (Option (RecordBatch Key Data)))
  | write (tableName : String) (fault : Option Fault)
  | note (tableName : String)
  | panic (tableName message : String)
  | join (tableName : String)
  | finish (fault : Option Fault)

/-- One step of a table's task. -/
def taskStep (storage : DataStorage Store Fault Key Data) (state : GenerateState Store Key Data) :
    GenerateAction Fault Key Data → Option (GenerateState Store Key Data)
  | .nextBatch tableName answer =>
      match state.phase tableName with
      | .generating batchId => some (state.answered tableName batchId answer)
      | _ => none
  | .write tableName fault =>
      match state.phase tableName with
      | .writing batchId batch =>
          some (state.wrote tableName batchId (storage.write state.store fault tableName batchId batch))
      | _ => none
  | .note tableName =>
      match state.phase tableName with
      | .written batchId outcome => some (state.noted tableName batchId outcome)
      | _ => none
  | .panic tableName message =>
      match state.phase tableName with
      | .generating _ => some (state.enter tableName (.panicked message))
      | .writing _ _ => some (state.enter tableName (.panicked message))
      | _ => none
  | .join tableName => state.join tableName
  | .finish _ => none

/-- The table whose task the action is a step of. -/
def GenerateAction.table? : GenerateAction Fault Key Data → Option String
  | .nextBatch tableName _ => some tableName
  | .write tableName _ => some tableName
  | .note tableName => some tableName
  | .panic tableName _ => some tableName
  | .join tableName => some tableName
  | .finish _ => none

/-- One step of the generate command. -/
def generateStep (storage : DataStorage Store Fault Key Data) (config : VersionConfig) (dataset : DatasetTables)
    (state : GenerateState Store Key Data) (action : GenerateAction Fault Key Data) :
    Option (GenerateState Store Key Data) :=
  match state.ended, action with
  | some _, _ => none
  | none, .finish fault =>
      if state.allJoined dataset then
        some (state.finish
          (storage.writeVersionMetadata state.store fault (versionMetadata config dataset state.written)))
      else none
  | none, action =>
      if action.table?.any (· ∈ dataset.tables.keys) then taskStep storage state action else none

/-- The tasks of different tables interleave in any order, the dataset answers anything, and any write may fail. -/
def generate (storage : DataStorage Store Fault Key Data) (config : VersionConfig) (dataset : DatasetTables) :
    Machine (GenerateState Store Key Data) (GenerateAction Fault Key Data) where
  step := generateStep storage config dataset
  admits _ := True

end Spicebench.DataGeneration
