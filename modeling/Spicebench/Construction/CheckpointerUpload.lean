/-
This file embeds the upload of checkpoints with the errors of the file system and of the object store.
-/

import Spicebench.Construction.Checkpointer
import Spicebench.Library.Fallible

namespace Spicebench.Checkpointer

open Library

variable {Bytes : Type}

/-- The errors that the upload meets, by the path of what it touches; an object that fails to be put is not stored. -/
structure UploadFaults where
  readDir : Option String
  readSubdirectory : String → Option String
  readParquet : String → List Char → Option String
  readRowCounts : String → Option String
  put : ObjectPath → Option String

namespace CheckpointStore

variable (paths : CheckpointStore) (faults : UploadFaults)

def tryUploadFile (dirName : String) (file : List Char × Bytes) : Fallible (Upload Bytes) Unit := do
  let checkpointIdx := indexOrZero dirName.toList
  Fallible.raise (faults.readParquet dirName file.1)
  Fallible.raise (faults.put (paths.checkpointParquetPath checkpointIdx (indexOrZero file.1)))
  Fallible.modify (paths.uploadFile checkpointIdx · file)

/-- A directory without row counts has none to upload. -/
def tryUploadRowCounts (entry : String × List (String × Bytes)) : Fallible (Upload Bytes) Unit :=
  let checkpointIdx := indexOrZero entry.1.toList
  match entry.2.lookup "row_counts.json" with
  | none => Fallible.pure ()
  | some _ => do
      Fallible.raise (faults.readRowCounts entry.1)
      Fallible.raise (faults.put (paths.checkpointRowCountsPath checkpointIdx))
      Fallible.modify (paths.uploadRowCounts checkpointIdx entry.2)

def tryUploadDirectory (entry : String × List (String × Bytes)) : Fallible (Upload Bytes) Unit := do
  Fallible.raise (faults.readSubdirectory entry.1)
  Fallible.forEach (paths.tryUploadFile faults entry.1) (queryFiles entry.2)
  paths.tryUploadRowCounts faults entry
  Fallible.modify fun upload =>
    { upload with checkpointIndexes := upload.checkpointIndexes ++ [indexOrZero entry.1.toList] }

/-- The upload stops at the first error, and what it has stored until then stays in the store. -/
def tryUploadCheckpoints (codec : Codec Bytes) (store : ObjectStore Bytes) (scenario : String)
    (dir : Option (LocalDir Bytes)) (checkpointIntervalSteps : Nat) : Except String Unit × ObjectStore Bytes :=
  match dir with
  | none => (.error "Checkpoint directory does not exist", store)
  | some dir =>
      let uploading : Fallible (Upload Bytes) Unit := do
        Fallible.raise faults.readDir
        Fallible.forEach (paths.tryUploadDirectory faults) (checkpointDirs dir)
      match uploading ⟨store, [], .empty⟩ with
      | (.error message, upload) => (.error message, upload.store)
      | (.ok (), upload) =>
          let manifest := match paths.downloadManifest codec upload.store with
            | .ok manifest => manifest
            | .error _ => ⟨[]⟩
          let entry : ScenarioCheckpoint :=
            ⟨upload.checkpointIndexes, upload.queryIndexes.keys, checkpointIntervalSteps⟩
          match faults.put paths.manifestPath with
          | some message => (.error message, upload.store)
          | none => (.ok (), upload.store.put paths.manifestPath (codec.encode (manifest.insert scenario entry)))

end CheckpointStore

end Spicebench.Checkpointer
