/-
This file embeds the S3 storage: the split of large batches into parts, the object paths, and the cached metadata.
-/

import Spicebench.Construction.Checkpointer
import Spicebench.Construction.Dataset.DataGenerator
import Spicebench.Library.Fallible

namespace Spicebench.DataGeneration

open Library
open Checkpointer (ObjectPath ObjectStore parseUsize)

variable {Key Data Bytes : Type}

def minRowsPerFile : Nat := 32000

def largestMaxRowsPerFile : Nat := 64000

def defaultMaxRowsPerFile : Nat := 48000

/-- A file holds at least one row. -/
structure RowLimit where
  rows : Nat
  positive : 0 < rows

/-- The environment sets the limit within its bounds; a text that is no positive number sets none. -/
def maxRowsPerFile (setting : Option String) : RowLimit :=
  match (setting.bind fun text => parseUsize text.toList).filter (0 < ·) with
  | some value => ⟨max minRowsPerFile (min value largestMaxRowsPerFile), lt_max_of_lt_left (by decide)⟩
  | none => ⟨defaultMaxRowsPerFile, by decide⟩

def RecordBatch.slice (batch : RecordBatch Key Data) (offset len : Nat) : RecordBatch Key Data :=
  ⟨batch.schema, (batch.rows.drop offset).take len⟩

/-- The loop of `split_record_batch` from an offset on. -/
def splitFrom (batch : RecordBatch Key Data) (limit : RowLimit) (offset : Nat) : List (RecordBatch Key Data) :=
  if offset < batch.numRows then
    let len := min limit.rows (batch.numRows - offset)
    batch.slice offset len :: splitFrom batch limit (offset + len)
  else []
termination_by batch.numRows - offset
decreasing_by
  have positive := limit.positive
  omega

def splitRecordBatch (batch : RecordBatch Key Data) (limit : RowLimit) : List (RecordBatch Key Data) :=
  if batch.numRows ≤ limit.rows then [batch] else splitFrom batch limit 0

/-- The text of `version.json`. -/
structure MetadataJson (Bytes : Type) where
  encode : VersionMetadata → Bytes
  decode : Bytes → Except String VersionMetadata

/-- The two caches are empty at first. The outer option of the second one tells whether it has been filled. -/
structure S3Storage where
  root : List String
  keyColumnsCache : KeyedMap String (List String)
  versionMetadataCache : Option (Option VersionMetadata)

structure ReadResult (Key Data : Type) where
  batches : List (RecordBatch Key Data)
  rowsRead : Nat
  bytesRead : Nat
  keyColumns : List String

def ReadResult.rows (result : ReadResult Key Data) : List (Row Key Data) := result.batches.flatMap RecordBatch.rows

namespace S3Storage

def new (root : List String) : S3Storage := ⟨root, ∅, none⟩

def batchObjectPath (root : List String) (tableName : String) (batchId : Nat) : ObjectPath :=
  root ++ batchPath tableName batchId

def batchPartObjectPath (root : List String) (tableName : String) (batchId partIdx : Nat) : ObjectPath :=
  root ++ batchPartPath tableName batchId partIdx

def versionMetadataObjectPath (root : List String) : ObjectPath := root ++ versionMetadataPath

variable (parquet : Parquet Key Data Bytes) (json : MetadataJson Bytes)

/-- One chunk is put; the store may refuse it. -/
def putChunk (faults : ObjectPath → Option String) (path : Nat → ObjectPath) (chunk : RecordBatch Key Data × Nat) :
    Fallible (ObjectStore Bytes) Unit := do
  Fallible.raise (faults (path chunk.2))
  Fallible.modify (·.put (path chunk.2) (parquet.encode chunk.1))

/-- The path of a chunk: a batch that is not split has no part number. -/
def chunkPath (root : List String) (tableName : String) (batchId : Nat) (chunks : List (RecordBatch Key Data))
    (partIdx : Nat) : ObjectPath :=
  if chunks.length = 1 then batchObjectPath root tableName batchId
  else batchPartObjectPath root tableName batchId partIdx

def partIds (chunks : List (RecordBatch Key Data)) : List Nat :=
  if 1 < chunks.length then List.range chunks.length else []

def write (faults : ObjectPath → Option String) (setting : Option String) (root : List String) (tableName : String)
    (batchId : Nat) (batch : RecordBatch Key Data) : Fallible (ObjectStore Bytes) WriteResult := do
  let chunks := splitRecordBatch batch (maxRowsPerFile setting)
  Fallible.forEach (putChunk parquet faults (chunkPath root tableName batchId chunks)) chunks.zipIdx
  pure ⟨batch.numRows, (chunks.map fun chunk => parquet.size (parquet.encode chunk)).sum, partIds chunks⟩

/-- A cache that is filled keeps its content. -/
def writeVersionMetadata (faults : ObjectPath → Option String) (metadata : VersionMetadata) :
    Fallible (S3Storage × ObjectStore Bytes) Unit := fun (storage, store) =>
  match faults (versionMetadataObjectPath storage.root) with
  | some message => (.error message, storage, store)
  | none =>
      (.ok (), { storage with versionMetadataCache := storage.versionMetadataCache.or (some (some metadata)) },
        store.put (versionMetadataObjectPath storage.root) (json.encode metadata))

/-- An error leaves the cache empty, and an absent file fills it. -/
def cachedVersionMetadata (store : ObjectStore Bytes) : Fallible S3Storage (Option VersionMetadata) := fun storage =>
  match storage.versionMetadataCache with
  | some cached => (.ok cached, storage)
  | none =>
      match store.get (versionMetadataObjectPath storage.root) with
      | .error .notFound => (.ok none, { storage with versionMetadataCache := some none })
      | .error (.other message) => (.error message, storage)
      | .ok content =>
          match json.decode content with
          | .error message => (.error message, storage)
          | .ok metadata => (.ok (some metadata), { storage with versionMetadataCache := some (some metadata) })

def readKeyColumns (store : ObjectStore Bytes) (tableName : String) : Fallible S3Storage (List String) := do
  let metadata ← cachedVersionMetadata json store
  pure (((metadata.bind fun metadata => metadata.tables.lookup tableName).map TableMetadata.keyColumns).getD [])

def cachedKeyColumns (store : ObjectStore Bytes) (tableName : String) : Fallible S3Storage (List String) := do
  let storage ← Fallible.get
  match storage.keyColumnsCache.lookup tableName with
  | some cached => pure cached
  | none =>
      let keyColumns ← readKeyColumns json store tableName
      let storage ← Fallible.get
      match storage.keyColumnsCache.lookup tableName with
      | some cached => pure cached
      | none =>
          Fallible.modify fun storage =>
            { storage with keyColumnsCache := storage.keyColumnsCache.insert tableName keyColumns }
          pure keyColumns

def readBatchParts (store : ObjectStore Bytes) (tableName : String) (batchId : Nat) :
    Fallible S3Storage (List Nat) := do
  let metadata ← cachedVersionMetadata json store
  let recorded := metadata.bind fun metadata => metadata.tables.lookup tableName
  pure (((recorded.bind fun recorded => recorded.batchParts.lookup batchId).getD []).insertionSort (· ≤ ·))

/-- An object that is not there is no error. -/
def readBatch (store : ObjectStore Bytes) (tableName : String) (batchId : Nat) (partId : Option Nat) :
    Fallible S3Storage (Option (ReadResult Key Data)) := fun storage =>
  let location := match partId with
    | some partId => batchPartObjectPath storage.root tableName batchId partId
    | none => batchObjectPath storage.root tableName batchId
  match store.get location with
  | .error .notFound => (.ok none, storage)
  | .error (.other message) => (.error message, storage)
  | .ok content =>
      match parquet.decode content with
      | .error message => (.error message, storage)
      | .ok file =>
          match cachedKeyColumns json store tableName storage with
          | (.error message, storage) => (.error message, storage)
          | (.ok keyColumns, storage) =>
              (.ok (some ⟨file.batches, (file.batches.map RecordBatch.numRows).sum, parquet.size content, keyColumns⟩),
                storage)

end S3Storage

/-- One call of the S3 storage's write, with the row limit that the environment sets then. -/
structure S3Write (Key Data : Type) where
  setting : Option String
  tableName : String
  batchId : Nat
  batch : RecordBatch Key Data

/-- A batch is written, and the parts of a successful write are noted. -/
def S3Write.record (parquet : Parquet Key Data Bytes) (faults : ObjectPath → Option String) (root : List String)
    (state : ObjectStore Bytes × WrittenBatches) (call : S3Write Key Data) : ObjectStore Bytes × WrittenBatches :=
  match S3Storage.write parquet faults call.setting root call.tableName call.batchId call.batch state.1 with
  | (.ok result, store) => (store, state.2.insertAt call.tableName call.batchId result.partIds)
  | (.error _, store) => (store, state.2)

end Spicebench.DataGeneration
