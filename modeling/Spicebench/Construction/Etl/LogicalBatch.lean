/-
This file embeds `read_logical_batch`: the reads of the parts of a batch run side by side and are merged in order.
-/

import Spicebench.Construction.Dataset.S3Storage
import Spicebench.Library.Machine

namespace Spicebench.Etl

open Library DataGeneration

variable {Source Key Data Bytes : Type}

/-- The reads of a storage, which may fill its caches. -/
structure SourceStorage (Source Key Data : Type) where
  readBatchParts : String → Nat → Fallible Source (List Nat)
  readBatch : String → Nat → Option Nat → Fallible Source (Option (DataGeneration.ReadResult Key Data))

def s3Source (parquet : Parquet Key Data Bytes) (json : MetadataJson Bytes) (store : Checkpointer.ObjectStore Bytes) :
    SourceStorage S3Storage Key Data where
  readBatchParts := S3Storage.readBatchParts json store
  readBatch := S3Storage.readBatch parquet json store

/-- At most two part reads are in flight. -/
def maxInFlightSourcePartReads : Nat := 2

/-- The local variables of `read_logical_batch`; the join set holds reads that run and reads that are done. -/
structure PartReads (Key Data : Type) where
  remaining : List Nat
  running : List Nat
  done : List (Nat × Except String (DataGeneration.ReadResult Key Data))
  scheduled : List Nat
  completed : KeyedMap Nat (DataGeneration.ReadResult Key Data)
  mergedBatches : List (RecordBatch Key Data)
  rowsRead : Nat
  bytesRead : Nat
  keyColumns : Option (List String)

namespace PartReads

def start (partIds : List Nat) : PartReads Key Data where
  remaining := partIds
  running := []
  done := []
  scheduled := []
  completed := ∅
  mergedBatches := []
  rowsRead := 0
  bytesRead := 0
  keyColumns := none

def inFlight (reads : PartReads Key Data) : Nat := reads.running.length + reads.done.length

def spawn (reads : PartReads Key Data) (partId : Nat) : PartReads Key Data :=
  { reads with running := reads.running ++ [partId], scheduled := reads.scheduled ++ [partId] }

/-- The inner loop spawns reads of the next parts while there is room. -/
def fill (reads : PartReads Key Data) : List Nat → PartReads Key Data
  | [] => { reads with remaining := [] }
  | partId :: rest =>
      if reads.inFlight < max maxInFlightSourcePartReads 1 then (reads.spawn partId).fill rest
      else { reads with remaining := partId :: rest }

/-- The key columns of the first part stay. -/
def merge (reads : PartReads Key Data) (partId : Nat) (result : DataGeneration.ReadResult Key Data) :
    PartReads Key Data :=
  { reads with
    completed := reads.completed.erase partId
    keyColumns := reads.keyColumns.or (some result.keyColumns)
    rowsRead := reads.rowsRead + result.rowsRead
    bytesRead := reads.bytesRead + result.bytesRead
    mergedBatches := reads.mergedBatches ++ result.batches }

/-- The completed reads are merged in the order in which they were scheduled. -/
def drain (reads : PartReads Key Data) : List Nat → PartReads Key Data
  | [] => { reads with scheduled := [] }
  | partId :: rest =>
      match reads.completed.lookup partId with
      | some result => (reads.merge partId result).drain rest
      | none => { reads with scheduled := partId :: rest }

def toResult (reads : PartReads Key Data) : DataGeneration.ReadResult Key Data :=
  ⟨reads.mergedBatches, reads.rowsRead, reads.bytesRead, reads.keyColumns.getD []⟩

end PartReads

/-- The function lists the parts, reads the object of a batch without parts, reads parts, or has returned. -/
inductive LogicalProgress (Key Data : Type) where
  | listing
  | whole
  | parts (reads : PartReads Key Data)
  | returned (outcome : Except String (Option (DataGeneration.ReadResult Key Data)))

structure LogicalRead (Source Key Data : Type) where
  source : Source
  progress : LogicalProgress Key Data

/-- The parts are listed, the only object is read, the read of a part is done, or it is joined. -/
inductive LogicalAction where
  | list
  | readWhole
  | read (partId : Nat)
  | join (partId : Nat)

/-- An object that the metadata lists has to be there. -/
def partOutcome (tableName : String) (batchId partId : Nat) :
    Except String (Option (DataGeneration.ReadResult Key Data)) → Except String (DataGeneration.ReadResult Key Data)
  | .ok (some result) => .ok result
  | .ok none =>
      .error s!"Missing object for {tableName} batch {batchId} part {partId} listed in metadata"
  | .error message => .error s!"read {tableName} batch {batchId} part {partId}: {message}"

/-- What is completed is merged as far as the order allows, and the loop goes on or returns. -/
def PartReads.settle (reads : PartReads Key Data) : LogicalProgress Key Data :=
  let reads := reads.drain reads.scheduled
  if reads.inFlight = 0 ∧ reads.remaining = [] then .returned (.ok (some reads.toResult))
  else .parts (reads.fill reads.remaining)

/-- The read of a part is joined. -/
def joinPart (reads : PartReads Key Data) (partId : Nat)
    (outcome : Except String (DataGeneration.ReadResult Key Data)) : LogicalProgress Key Data :=
  match outcome with
  | .error message => .returned (.error message)
  | .ok result =>
      PartReads.settle { reads with
        done := reads.done.eraseP (·.1 = partId)
        completed := reads.completed.insert partId result }

def logicalStep (storage : SourceStorage Source Key Data) (tableName : String) (batchId : Nat)
    (state : LogicalRead Source Key Data) (action : LogicalAction) : Option (LogicalRead Source Key Data) :=
  match action, state.progress with
  | .list, .listing =>
      match storage.readBatchParts tableName batchId state.source with
      | (.error message, source) =>
          some ⟨source, .returned (.error s!"read {tableName} batch {batchId} parts: {message}")⟩
      | (.ok [], source) => some ⟨source, .whole⟩
      | (.ok partIds, source) =>
          let partIds := partIds.insertionSort (· ≤ ·)
          some ⟨source, .parts ((PartReads.start partIds).fill partIds)⟩
  | .readWhole, .whole =>
      match storage.readBatch tableName batchId none state.source with
      | (.error message, source) => some ⟨source, .returned (.error s!"read {tableName} batch {batchId}: {message}")⟩
      | (.ok result, source) => some ⟨source, .returned (.ok result)⟩
  | .read partId, .parts reads =>
      if partId ∈ reads.running then
        let (outcome, source) := storage.readBatch tableName batchId (some partId) state.source
        some ⟨source, .parts { reads with
          running := reads.running.erase partId
          done := reads.done ++ [(partId, partOutcome tableName batchId partId outcome)] }⟩
      else none
  | .join partId, .parts reads =>
      match reads.done.lookup partId with
      | some outcome => some ⟨state.source, joinPart reads partId outcome⟩
      | none => none
  | _, _ => none

/-- The reads are done and joined in any order. -/
def readLogicalBatch (storage : SourceStorage Source Key Data) (tableName : String) (batchId : Nat) :
    Machine (LogicalRead Source Key Data) LogicalAction where
  step := logicalStep storage tableName batchId
  admits _ := True

end Spicebench.Etl
