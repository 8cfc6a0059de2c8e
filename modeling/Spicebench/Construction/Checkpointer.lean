/-
This file embeds the store of checkpoints: the local manifest, the upload and the download.
-/

import Spicebench.Library.Decimal
import Spicebench.Library.OrderedMap
import Mathlib.Data.List.Sort
import Mathlib.Data.String.Basic

namespace Spicebench.Checkpointer

open Library

def usizeMax : Nat := 2 ^ 64 - 1

/-- `str::parse` for an unsigned machine word. -/
def parseUsize (text : List Char) : Option Nat := parseUnsigned (usizeMax + 1) text

structure ScenarioCheckpoint where
  checkpointIndexes : List Nat
  queryIndexes : List Nat
  checkpointIntervalSteps : Nat
  deriving DecidableEq, Repr

/-- The manifest maps the name of a scenario to its entry. -/
structure CheckpointManifest where
  scenarios : List (String × ScenarioCheckpoint)

def CheckpointManifest.insert (manifest : CheckpointManifest) (scenario : String) (entry : ScenarioCheckpoint) :
    CheckpointManifest :=
  ⟨(scenario, entry) :: manifest.scenarios.filter fun other => other.1 ≠ scenario⟩

variable {Bytes : Type}

/-- The manifest is written as JSON and read back. -/
structure Codec (Bytes : Type) where
  encode : CheckpointManifest → Bytes
  decode : Bytes → Except String CheckpointManifest

/-- A local directory holds files and directories of files. -/
inductive Entry (Bytes : Type) where
  | file (content : Bytes)
  | directory (files : List (String × Bytes))

abbrev LocalDir (Bytes : Type) := List (String × Entry Bytes)

/-- The stem and the extension of a file name are parted by its last dot, unless it starts the name. -/
def splitExtension (name : List Char) : Option (List Char × List Char) :=
  match name.reverse.dropWhile (· ≠ '.') with
  | [] => none
  | [_] => none
  | _ :: before => some (before.reverse, (name.reverse.takeWhile (· ≠ '.')).reverse)

/-- The stem of a name with the extension of a Parquet file. -/
def parquetStem (name : String) : Option (List Char) :=
  match splitExtension name.toList with
  | some (stem, extension) => if extension = "parquet".toList then some stem else none
  | none => none

def sortByName {Content : Type} (entries : List (String × Content)) : List (String × Content) :=
  entries.insertionSort fun one other => one.1 ≤ other.1

def Entry.files? : Entry Bytes → Option (List (String × Bytes))
  | .directory files => some files
  | .file _ => none

/-- The directories of a local directory, sorted by name. -/
def checkpointDirs (dir : LocalDir Bytes) : List (String × List (String × Bytes)) :=
  sortByName (dir.filterMap fun entry => entry.2.files?.map (Prod.mk entry.1))

/-- The Parquet files of a directory, with the stems of their names. -/
def queryFiles (files : List (String × Bytes)) : List (List Char × Bytes) :=
  (sortByName files).filterMap fun file => (parquetStem file.1).map fun stem => (stem, file.2)

def insertIndex (indexes : OrderedMap Nat Unit) (index : Nat) : OrderedMap Nat Unit :=
  indexes.alter index fun _ => some ()

/-- A name that is no number stands for the largest machine word. -/
def indexOrMax (text : List Char) : Nat := (parseUsize text).getD usizeMax

/-- A name that is no number stands for zero. -/
def indexOrZero (text : List Char) : Nat := (parseUsize text).getD 0

/-- The entry that `write_local_manifest` writes for a directory: names that are no numbers are
skipped. -/
def writeLocalManifest (dir : LocalDir Bytes) (checkpointIntervalSteps : Nat) : ScenarioCheckpoint :=
  let numbered := (checkpointDirs dir).filter fun entry => indexOrMax entry.1.toList ≠ usizeMax
  let queryIndexes := numbered.foldl (fun indexes entry =>
    (queryFiles entry.2).foldl (fun indexes file =>
      if indexOrMax file.1 ≠ usizeMax then insertIndex indexes (indexOrMax file.1) else indexes) indexes) .empty
  ⟨numbered.map fun entry => indexOrMax entry.1.toList, queryIndexes.keys, checkpointIntervalSteps⟩

/-- The segments of a path in the object store. -/
abbrev ObjectPath := List String

inductive GetError where
  | notFound
  | other (message : String)

/-- Reading an object may fail, for a reason of the store's own. -/
structure ObjectStore (Bytes : Type) where
  objects : ObjectPath → Option Bytes
  failing : ObjectPath → Option String

namespace ObjectStore

def get (store : ObjectStore Bytes) (path : ObjectPath) : Except GetError Bytes :=
  match store.failing path, store.objects path with
  | some message, _ => .error (.other message)
  | none, none => .error .notFound
  | none, some content => .ok content

def put (store : ObjectStore Bytes) (path : ObjectPath) (content : Bytes) : ObjectStore Bytes :=
  { store with objects := fun other => if other = path then some content else store.objects other }

end ObjectStore

/-- The segments of the prefix that all paths of a store have. -/
structure CheckpointStore where
  root : List String

namespace CheckpointStore

def manifestPath (paths : CheckpointStore) : ObjectPath := paths.root ++ ["checkpoints.json"]

def checkpointParquetPath (paths : CheckpointStore) (checkpointIdx queryIdx : Nat) : ObjectPath :=
  paths.root ++ ["checkpoints", toString checkpointIdx, toString queryIdx ++ ".parquet"]

def checkpointRowCountsPath (paths : CheckpointStore) (checkpointIdx : Nat) : ObjectPath :=
  paths.root ++ ["checkpoints", toString checkpointIdx, "row_counts.json"]

/-- The store and the indexes while the directories are uploaded. -/
structure Upload (Bytes : Type) where
  store : ObjectStore Bytes
  checkpointIndexes : List Nat
  queryIndexes : OrderedMap Nat Unit

def uploadFile (paths : CheckpointStore) (checkpointIdx : Nat) (upload : Upload Bytes) (file : List Char × Bytes) :
    Upload Bytes :=
  let queryIdx := indexOrZero file.1
  { upload with
    store := upload.store.put (paths.checkpointParquetPath checkpointIdx queryIdx) file.2
    queryIndexes := insertIndex upload.queryIndexes queryIdx }

def uploadRowCounts (paths : CheckpointStore) (checkpointIdx : Nat) (files : List (String × Bytes))
    (upload : Upload Bytes) : Upload Bytes :=
  match files.lookup "row_counts.json" with
  | some content => { upload with store := upload.store.put (paths.checkpointRowCountsPath checkpointIdx) content }
  | none => upload

/-- A directory whose name is no number is uploaded as checkpoint zero. -/
def uploadDirectory (paths : CheckpointStore) (upload : Upload Bytes) (entry : String × List (String × Bytes)) :
    Upload Bytes :=
  let checkpointIdx := indexOrZero entry.1.toList
  let upload := (queryFiles entry.2).foldl (paths.uploadFile checkpointIdx) upload
  let upload := paths.uploadRowCounts checkpointIdx entry.2 upload
  { upload with checkpointIndexes := upload.checkpointIndexes ++ [checkpointIdx] }

/-- The manifest could not be read when the store fails, has none, or has another text there. -/
def downloadManifest (paths : CheckpointStore) (codec : Codec Bytes) (store : ObjectStore Bytes) :
    Except String CheckpointManifest :=
  match store.get paths.manifestPath with
  | .error .notFound => .error "not found"
  | .error (.other message) => .error message
  | .ok content => codec.decode content

/-- All directories are uploaded, and the manifest is merged with the one that can be read. -/
def uploadCheckpoints (paths : CheckpointStore) (codec : Codec Bytes) (store : ObjectStore Bytes) (scenario : String)
    (dir : LocalDir Bytes) (checkpointIntervalSteps : Nat) : ObjectStore Bytes × ScenarioCheckpoint :=
  let upload := (checkpointDirs dir).foldl paths.uploadDirectory ⟨store, [], .empty⟩
  let entry : ScenarioCheckpoint := ⟨upload.checkpointIndexes, upload.queryIndexes.keys, checkpointIntervalSteps⟩
  let manifest := match paths.downloadManifest codec upload.store with
    | .ok manifest => manifest
    | .error _ => ⟨[]⟩
  (upload.store.put paths.manifestPath (codec.encode (manifest.insert scenario entry)), entry)

/-- The files of a local directory, by the names of their directory and of their own. -/
abbrev LocalFiles (Bytes : Type) := String → String → Option Bytes

def writeFile (files : LocalFiles Bytes) (dir name : String) (content : Bytes) : LocalFiles Bytes :=
  fun otherDir otherName => if otherDir = dir ∧ otherName = name then some content else files otherDir otherName

def downloadFile (paths : CheckpointStore) (store : ObjectStore Bytes) (checkpointIdx : Nat) (files : LocalFiles Bytes)
    (queryIdx : Nat) : Except String (LocalFiles Bytes) :=
  match store.get (paths.checkpointParquetPath checkpointIdx queryIdx) with
  | .ok content => .ok (writeFile files (toString checkpointIdx) (toString queryIdx ++ ".parquet") content)
  | .error .notFound => .error "not found"
  | .error (.other message) => .error message

def downloadDirectory (paths : CheckpointStore) (store : ObjectStore Bytes) (queryIndexes : List Nat)
    (files : LocalFiles Bytes) (checkpointIdx : Nat) : Except String (LocalFiles Bytes) := do
  let files ← queryIndexes.foldlM (paths.downloadFile store checkpointIdx) files
  match store.get (paths.checkpointRowCountsPath checkpointIdx) with
  | .ok content => .ok (writeFile files (toString checkpointIdx) "row_counts.json" content)
  | .error .notFound => .ok files
  | .error (.other message) => .error message

/-- Every pair of a checkpoint and a query of the entry is downloaded. -/
def downloadCheckpoints (paths : CheckpointStore) (store : ObjectStore Bytes) (info : ScenarioCheckpoint)
    (files : LocalFiles Bytes) : Except String (LocalFiles Bytes) :=
  info.checkpointIndexes.foldlM (paths.downloadDirectory store info.queryIndexes) files

end CheckpointStore

end Spicebench.Checkpointer
