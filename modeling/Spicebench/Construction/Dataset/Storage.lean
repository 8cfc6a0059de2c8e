/-
This file embeds the storage of a generated version: its metadata, the layout of its files, and the local storage.
-/

import Spicebench.Construction.Dataset.Batch
import Spicebench.Library.FloatText
import Spicebench.Library.KeyedMap

namespace Spicebench.DataGeneration

open Library

/-- The type of a column, by its text unless it is the one of the time column. -/
inductive DataType where
  | timestampUtcMicroseconds
  | other (text : String)
  deriving DecidableEq, Repr

structure Field where
  name : String
  dataType : DataType
  nullable : Bool
  deriving DecidableEq, Repr

/-- The schema is the one without the time column. -/
structure DatasetTable where
  name : String
  schema : List Field
  timeColumn : String
  deriving DecidableEq, Repr

def DatasetTable.rehydratedSchema (table : DatasetTable) : List Field :=
  table.schema ++ [⟨table.timeColumn, .timestampUtcMicroseconds, true⟩]

structure TableMetadata where
  name : String
  schema : List Field
  timeColumn : String
  keyColumns : List String
  batchIds : List Nat
  batchParts : KeyedMap Nat (List Nat)

structure VersionMetadata where
  version : String
  scenario : String
  scaleFactor : Double
  numSteps : UInt16
  datasetType : String
  mutations : MutationConfig
  tables : KeyedMap String TableMetadata

/-- A whole number is written with one decimal place. -/
def formatScaleFactor (scaleFactor : Double) : String :=
  let text := scaleFactor.display
  String.ofList (if '.' ∈ text then text else text ++ ".0".toList)

structure WriteResult where
  rowsWritten : Nat
  bytesWritten : Nat
  partIds : List Nat
  deriving DecidableEq, Repr

/-- A Parquet file has one schema, and its reader hands the rows out in batches. -/
structure ParquetFile (Key Data : Type) where
  schema : Schema
  batches : List (RecordBatch Key Data)

variable {Key Data Bytes : Type}

def ParquetFile.rows (file : ParquetFile Key Data) : List (Row Key Data) := file.batches.flatMap RecordBatch.rows

/-- The content of the file as one batch. -/
def ParquetFile.whole (file : ParquetFile Key Data) : RecordBatch Key Data := ⟨file.schema, file.rows⟩

structure Parquet (Key Data Bytes : Type) where
  encode : RecordBatch Key Data → Bytes
  decode : Bytes → Except String (ParquetFile Key Data)
  size : Bytes → Nat

/-- What is written as Parquet is read back. -/
def Parquet.Faithful (parquet : Parquet Key Data Bytes) : Prop :=
  ∀ batch, ∃ file, parquet.decode (parquet.encode batch) = .ok file ∧ file.whole = batch

/-- The segments of a path below the directory or the prefix of a version. -/
abbrev StoragePath := List String

def batchFile (batchId : Nat) : String :=
  String.ofList ("batch-".toList ++ padded 6 batchId ++ ".parquet".toList)

def batchPartFile (batchId partIdx : Nat) : String :=
  String.ofList ("batch-".toList ++ padded 6 batchId ++ "-part-".toList ++ padded 3 partIdx ++ ".parquet".toList)

def batchPath (tableName : String) (batchId : Nat) : StoragePath := ["tables", tableName, batchFile batchId]

def batchPartPath (tableName : String) (batchId partIdx : Nat) : StoragePath :=
  ["tables", tableName, batchPartFile batchId partIdx]

def versionMetadataPath : StoragePath := ["version.json"]

/-- The writes of a storage, where a fault of its surroundings may make one fail or go on. -/
structure DataStorage (Store Fault Key Data : Type) where
  write : Store → Option Fault → String → Nat → RecordBatch Key Data → Except String WriteResult × Store
  writeVersionMetadata : Store → Option Fault → VersionMetadata → Except String Unit × Store

/-- The faults of the local file system; a file that cannot be written whole may be left in any state. -/
inductive FileFault (Bytes : Type) where
  | createDir (message : String)
  | encode (message : String)
  | write (message : String) (left : Option Bytes)

abbrev Files (Bytes : Type) := StoragePath → Option Bytes

def Files.set (files : Files Bytes) (path : StoragePath) (content : Option Bytes) : Files Bytes :=
  Function.update files path content

namespace FileStorage

variable (parquet : Parquet Key Data Bytes) (json : VersionMetadata → Bytes)

def write (files : Files Bytes) (fault : Option (FileFault Bytes)) (tableName : String) (batchId : Nat)
    (batch : RecordBatch Key Data) : Except String WriteResult × Files Bytes :=
  match fault with
  | some (.createDir message) => (.error message, files)
  | some (.encode message) => (.error message, files)
  | some (.write message left) => (.error message, files.set (batchPath tableName batchId) left)
  | none =>
      let buf := parquet.encode batch
      (.ok ⟨batch.numRows, parquet.size buf, []⟩, files.set (batchPath tableName batchId) (some buf))

def writeVersionMetadata (files : Files Bytes) (fault : Option (FileFault Bytes)) (metadata : VersionMetadata) :
    Except String Unit × Files Bytes :=
  match fault with
  | some (.createDir message) => (.error message, files)
  | some (.encode message) => (.error message, files)
  | some (.write message left) => (.error message, files.set versionMetadataPath left)
  | none => (.ok (), files.set versionMetadataPath (some (json metadata)))

/-- The local storage of the generate command. -/
def storage : DataStorage (Files Bytes) (FileFault Bytes) Key Data where
  write := write parquet
  writeVersionMetadata := writeVersionMetadata json

/-- The batch that the file of an id holds. -/
def storedBatch (files : Files Bytes) (tableName : String) (batchId : Nat) : Option (RecordBatch Key Data) :=
  match files (batchPath tableName batchId) with
  | none => none
  | some content =>
      match parquet.decode content with
      | .ok file => some file.whole
      | .error _ => none

end FileStorage

end Spicebench.DataGeneration
