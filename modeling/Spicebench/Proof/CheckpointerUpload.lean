import Spicebench.Construction.CheckpointerUpload
import Spicebench.Library.Traversal
import Spicebench.Proof.Checkpointer

namespace Spicebench.Checkpointer

open Library CheckpointStore

variable {Bytes : Type} {paths : CheckpointStore} {faults : UploadFaults} {dir : LocalDir Bytes}

/-- The upload of a directory meets no error. -/
structure CleanDirectory (paths : CheckpointStore) (faults : UploadFaults)
    (entry : String × List (String × Bytes)) : Prop where
  subdirectory : faults.readSubdirectory entry.1 = none
  files : ∀ file ∈ queryFiles entry.2, faults.readParquet entry.1 file.1 = none ∧
    faults.put (paths.checkpointParquetPath (indexOrZero entry.1.toList) (indexOrZero file.1)) = none
  rowCounts : (entry.2.lookup "row_counts.json").isSome → faults.readRowCounts entry.1 = none ∧
    faults.put (paths.checkpointRowCountsPath (indexOrZero entry.1.toList)) = none

/-- The upload meets no error, up to the manifest that it writes. -/
structure Faultless (paths : CheckpointStore) (faults : UploadFaults) (dir : LocalDir Bytes) : Prop where
  readDir : faults.readDir = none
  directories : ∀ entry ∈ checkpointDirs dir, CleanDirectory paths faults entry
  manifest : faults.put paths.manifestPath = none

/-- The manifest in the store is left as it is. -/
def SameManifest (paths : CheckpointStore) (upload next : Upload Bytes) : Prop :=
  next.store.objects paths.manifestPath = upload.store.objects paths.manifestPath

theorem SameManifest.refl (upload : Upload Bytes) : SameManifest paths upload upload := rfl

theorem SameManifest.trans (one other third : Upload Bytes) (first : SameManifest paths one other)
    (second : SameManifest paths other third) : SameManifest paths one third := Eq.trans second first

/-- An object of a checkpoint is not the manifest. -/
theorem sameManifest_put {suffix : List String} (long : suffix.length ≠ 1) (upload : Upload Bytes) (content : Bytes) :
    (upload.store.put (paths.root ++ suffix) content).objects paths.manifestPath =
      upload.store.objects paths.manifestPath := by
  unfold ObjectStore.put
  dsimp only
  rw [if_neg (manifestPath_ne long).symm]

section Guards

variable (paths faults)

theorem tryUploadFile_guarded (dirName : String) (file : List Char × Bytes) :
    Fallible.Guarded (SameManifest paths) (paths.tryUploadFile faults dirName file)
      (faults.readParquet dirName file.1 = none ∧
        faults.put (paths.checkpointParquetPath (indexOrZero dirName.toList) (indexOrZero file.1)) = none)
      (paths.uploadFile (indexOrZero dirName.toList) · file) := by
  have puts : Fallible.Guarded (SameManifest paths)
      (Fallible.modify (paths.uploadFile (indexOrZero dirName.toList) · file)) True
      (paths.uploadFile (indexOrZero dirName.toList) · file) := by
    apply Fallible.Guarded.modify
    intro upload
    exact sameManifest_put (by simp) upload file.2
  have guarded := (Fallible.Guarded.raise .refl (faults.readParquet dirName file.1)).bind SameManifest.trans
    ((Fallible.Guarded.raise .refl
      (faults.put (paths.checkpointParquetPath (indexOrZero dirName.toList) (indexOrZero file.1)))).bind
        SameManifest.trans puts)
  exact guarded.congr (by rw [and_true]) fun _ => rfl

theorem tryUploadRowCounts_guarded (entry : String × List (String × Bytes)) :
    Fallible.Guarded (SameManifest paths) (paths.tryUploadRowCounts faults entry)
      ((entry.2.lookup "row_counts.json").isSome → faults.readRowCounts entry.1 = none ∧
        faults.put (paths.checkpointRowCountsPath (indexOrZero entry.1.toList)) = none)
      (paths.uploadRowCounts (indexOrZero entry.1.toList) entry.2) := by
  unfold CheckpointStore.tryUploadRowCounts CheckpointStore.uploadRowCounts
  cases entry.2.lookup "row_counts.json" with
  | none =>
      have nothing : Fallible.Guarded (SameManifest paths) (Fallible.modify id : Fallible (Upload Bytes) Unit)
          True id := .modify .refl
      exact nothing.congr (by simp) fun _ => rfl
  | some content =>
      have puts : Fallible.Guarded (SameManifest paths)
          (Fallible.modify fun upload : Upload Bytes =>
            { upload with store := upload.store.put (paths.checkpointRowCountsPath (indexOrZero entry.1.toList)) content })
          True fun upload : Upload Bytes =>
            { upload with
              store := upload.store.put (paths.checkpointRowCountsPath (indexOrZero entry.1.toList)) content } := by
        apply Fallible.Guarded.modify
        intro upload
        exact sameManifest_put (by simp) upload content
      have guarded := (Fallible.Guarded.raise .refl (faults.readRowCounts entry.1)).bind SameManifest.trans
        ((Fallible.Guarded.raise .refl
          (faults.put (paths.checkpointRowCountsPath (indexOrZero entry.1.toList)))).bind SameManifest.trans puts)
      exact guarded.congr (by simp) fun _ => rfl

theorem tryUploadDirectory_guarded (entry : String × List (String × Bytes)) :
    Fallible.Guarded (SameManifest paths) (paths.tryUploadDirectory faults entry) (CleanDirectory paths faults entry)
      (paths.uploadDirectory · entry) := by
  have files := Fallible.Guarded.forEach .refl SameManifest.trans
    (tryUploadFile_guarded paths faults entry.1) (queryFiles entry.2)
  have pushes : Fallible.Guarded (SameManifest paths) (Fallible.modify fun upload : Upload Bytes =>
      { upload with checkpointIndexes := upload.checkpointIndexes ++ [indexOrZero entry.1.toList] }) True _ :=
    .modify fun _ => rfl
  have guarded := (Fallible.Guarded.raise .refl (faults.readSubdirectory entry.1)).bind SameManifest.trans
    (files.bind SameManifest.trans ((tryUploadRowCounts_guarded paths faults entry).bind SameManifest.trans pushes))
  apply guarded.congr
  · constructor
    · intro clean
      exact ⟨clean.1, clean.2.1, clean.2.2.1⟩
    · intro clean
      exact ⟨clean.subdirectory, clean.files, clean.rowCounts, trivial⟩
  · intro upload
    rfl

/-- The upload of all directories returns when none of them meets an error, and it keeps the manifest. -/
theorem uploading_guarded (dir : LocalDir Bytes) :
    Fallible.Guarded (SameManifest paths)
      (do Fallible.raise faults.readDir
          Fallible.forEach (paths.tryUploadDirectory faults) (checkpointDirs dir))
      (faults.readDir = none ∧ ∀ entry ∈ checkpointDirs dir, CleanDirectory paths faults entry)
      ((checkpointDirs dir).foldl paths.uploadDirectory ·) :=
  (Fallible.Guarded.raise .refl faults.readDir).bind SameManifest.trans
    (.forEach .refl SameManifest.trans (tryUploadDirectory_guarded paths faults) (checkpointDirs dir))

end Guards

section Attempt

variable {codec : Codec Bytes} {store : ObjectStore Bytes} {scenario : String} {interval : Nat}

/-- Without errors the upload is the one that knows of none. -/
theorem tryUploadCheckpoints_faultless (faultless : Faultless paths faults dir) :
    paths.tryUploadCheckpoints faults codec store scenario (some dir) interval =
      (.ok (), (paths.uploadCheckpoints codec store scenario dir interval).1) := by
  have runs := (uploading_guarded paths faults dir ⟨store, [], .empty⟩).1
    ⟨faultless.readDir, faultless.directories⟩
  unfold CheckpointStore.tryUploadCheckpoints
  dsimp only
  rw [runs]
  dsimp only
  rw [faultless.manifest]
  rfl

/-- With an error the upload fails, and it leaves the manifest as it was. -/
theorem tryUploadCheckpoints_fails (faulty : ¬ Faultless paths faults dir) :
    ∃ message after, paths.tryUploadCheckpoints faults codec store scenario (some dir) interval =
      (.error message, after) ∧ after.objects paths.manifestPath = store.objects paths.manifestPath := by
  obtain ⟨runs, fails, keeps⟩ := uploading_guarded paths faults dir ⟨store, [], .empty⟩
  unfold CheckpointStore.tryUploadCheckpoints
  dsimp only
  by_cases clean : faults.readDir = none ∧ ∀ entry ∈ checkpointDirs dir, CleanDirectory paths faults entry
  · rw [runs clean]
    cases rejected : faults.put paths.manifestPath with
    | none => exact absurd ⟨clean.1, clean.2, rejected⟩ faulty
    | some message => exact ⟨message, _, rfl, keeps⟩
  · obtain ⟨message, upload, failed, kept⟩ := fails clean
    rw [failed]
    exact ⟨message, upload.store, rfl, kept⟩

end Attempt

section Download

variable {store other : ObjectStore Bytes} {info : ScenarioCheckpoint}

theorem get_eq_ok_iff {path : ObjectPath} {content : Bytes} :
    store.get path = .ok content ↔ store.failing path = none ∧ store.objects path = some content := by
  unfold ObjectStore.get
  cases store.failing path with
  | some message => simp
  | none =>
      cases store.objects path with
      | none => simp
      | some stored => simp

/-- The download of an entry finds every Parquet file, and no read of it fails. -/
structure Downloadable (paths : CheckpointStore) (store : ObjectStore Bytes) (info : ScenarioCheckpoint) : Prop where
  parquet : ∀ checkpoint ∈ info.checkpointIndexes, ∀ query ∈ info.queryIndexes,
    store.failing (paths.checkpointParquetPath checkpoint query) = none ∧
      (store.objects (paths.checkpointParquetPath checkpoint query)).isSome
  rowCounts : ∀ checkpoint ∈ info.checkpointIndexes, store.failing (paths.checkpointRowCountsPath checkpoint) = none

/-- Two stores hold the same objects where the download of an entry reads. -/
structure SameReads (paths : CheckpointStore) (store other : ObjectStore Bytes) (info : ScenarioCheckpoint) : Prop where
  parquet : ∀ checkpoint ∈ info.checkpointIndexes, ∀ query ∈ info.queryIndexes,
    store.objects (paths.checkpointParquetPath checkpoint query) =
      other.objects (paths.checkpointParquetPath checkpoint query)
  rowCounts : ∀ checkpoint ∈ info.checkpointIndexes,
    store.objects (paths.checkpointRowCountsPath checkpoint) = other.objects (paths.checkpointRowCountsPath checkpoint)

theorem downloadable_of_download {files result : LocalFiles Bytes}
    (downloaded : paths.downloadCheckpoints store info files = .ok result) : Downloadable paths store info := by
  have directory : ∀ checkpoint ∈ info.checkpointIndexes, ∃ before after,
      paths.downloadDirectory store info.queryIndexes before checkpoint = .ok after :=
    fun checkpoint member => exists_of_foldlM downloaded member
  constructor
  · intro checkpoint member query asked
    obtain ⟨before, after, ran⟩ := directory checkpoint member
    obtain ⟨middle, queried, -⟩ := bind_eq_ok_iff.mp ran
    obtain ⟨files, next, ran⟩ := exists_of_foldlM queried asked
    unfold CheckpointStore.downloadFile at ran
    split at ran
    case h_1 content found =>
      obtain ⟨works, stored⟩ := get_eq_ok_iff.mp found
      exact ⟨works, Option.isSome_iff_exists.mpr ⟨content, stored⟩⟩
    all_goals cases ran
  · intro checkpoint member
    obtain ⟨before, after, ran⟩ := directory checkpoint member
    obtain ⟨middle, -, ran⟩ := bind_eq_ok_iff.mp ran
    by_contra fails
    obtain ⟨message, fails⟩ := Option.ne_none_iff_exists'.mp fails
    have refused : store.get (paths.checkpointRowCountsPath checkpoint) = .error (.other message) := by
      simp [ObjectStore.get, fails]
    rw [refused] at ran
    cases ran

/-- A download depends on no more than the objects that it reads, once none of the reads fails. -/
theorem downloadCheckpoints_congr (downloadable : Downloadable paths store info)
    (same : SameReads paths store other info) (works : Downloadable paths other info) (files : LocalFiles Bytes) :
    paths.downloadCheckpoints store info files = paths.downloadCheckpoints other info files := by
  apply foldlM_congr
  intro checkpoint member files
  have gets {path : ObjectPath} (one : store.failing path = none) (two : other.failing path = none)
      (objects : store.objects path = other.objects path) : store.get path = other.get path := by
    simp only [ObjectStore.get, one, two, objects]
  have counts := gets (downloadable.rowCounts checkpoint member) (works.rowCounts checkpoint member)
    (same.rowCounts checkpoint member)
  have queries : ∀ query ∈ info.queryIndexes, ∀ files,
      paths.downloadFile store checkpoint files query = paths.downloadFile other checkpoint files query := by
    intro query asked files
    unfold CheckpointStore.downloadFile
    rw [gets (downloadable.parquet checkpoint member query asked).1 (works.parquet checkpoint member query asked).1
      (same.parquet checkpoint member query asked)]
  unfold CheckpointStore.downloadDirectory
  rw [foldlM_congr queries, counts]

/-- What a download returns shows the objects that it has read. -/
theorem downloaded_of_downloadable (downloadable : Downloadable paths store info) :
    ∃ result, paths.downloadCheckpoints store info (fun _ _ => none) = .ok result ∧
      (∀ checkpoint ∈ info.checkpointIndexes, ∀ query ∈ info.queryIndexes,
        result (toString checkpoint) (toString query ++ ".parquet") =
          store.objects (paths.checkpointParquetPath checkpoint query)) ∧
      ∀ checkpoint ∈ info.checkpointIndexes,
        result (toString checkpoint) "row_counts.json" = store.objects (paths.checkpointRowCountsPath checkpoint) := by
  -- A store with the same objects that never fails stands in for the one whose other paths may fail.
  have steady : Downloadable paths { store with failing := fun _ => none } info :=
    ⟨fun checkpoint member query asked => ⟨rfl, (downloadable.parquet checkpoint member query asked).2⟩,
      fun _ _ => rfl⟩
  have same : SameReads paths store { store with failing := fun _ => none } info :=
    ⟨fun _ _ _ _ => rfl, fun _ _ => rfl⟩
  have congr := downloadCheckpoints_congr downloadable same steady fun _ _ => none
  have stored : ∀ checkpoint ∈ info.checkpointIndexes, ∀ query ∈ info.queryIndexes,
      (store.objects (paths.checkpointParquetPath checkpoint query)).isSome := fun checkpoint member query asked =>
    (steady.parquet checkpoint member query asked).2
  obtain ⟨result, ran, downloaded⟩ := @downloadCheckpoints_downloaded Bytes
    { store with failing := fun _ => none } paths (fun _ => rfl) info.checkpointIndexes info.queryIndexes
    info.checkpointIntervalSteps stored fun _ _ => none
  refine ⟨result, congr.trans ran, downloaded.parquet, ?_⟩
  intro checkpoint member
  rw [downloaded.rowCounts checkpoint member, Option.or_none]

end Download

theorem lookup_insert_self (manifest : CheckpointManifest) (scenario : String) (entry : ScenarioCheckpoint) :
    (manifest.insert scenario entry).scenarios.lookup scenario = some entry := by
  simp [CheckpointManifest.insert]

theorem lookup_insert_ne (manifest : CheckpointManifest) {scenario other : String} (differs : other ≠ scenario)
    (entry : ScenarioCheckpoint) :
    (manifest.insert scenario entry).scenarios.lookup other = manifest.scenarios.lookup other := by
  have apart : (other == scenario) = false := by simpa using differs
  rw [CheckpointManifest.insert, List.lookup_cons, apart]
  show List.lookup other (manifest.scenarios.filter fun listed => listed.1 ≠ scenario) = _
  induction manifest.scenarios with
  | nil => rfl
  | cons listed rest ih =>
      obtain ⟨name, value⟩ := listed
      rw [List.filter_cons]
      by_cases same : name = scenario
      · have skipped : (other == name) = false := by simpa [same] using differs
        rw [if_neg (by simpa using same), ih, List.lookup_cons, skipped]
      · rw [if_pos (by simpa using same), List.lookup_cons, List.lookup_cons, ih]

section Frame

variable {codec : Codec Bytes} {store : ObjectStore Bytes} {scenario : String} {interval : Nat}

/-- The entry of a scenario in the stored manifest, if one is stored and can be read. -/
def storedEntry (paths : CheckpointStore) (codec : Codec Bytes) (store : ObjectStore Bytes) (scenario : String) :
    Option ScenarioCheckpoint :=
  match store.objects paths.manifestPath with
  | none => none
  | some content =>
      match codec.decode content with
      | .ok manifest => manifest.scenarios.lookup scenario
      | .error _ => none

/-- The entry that describes the upload of a directory. -/
def uploadEntry (dir : LocalDir Bytes) (interval : Nat) : ScenarioCheckpoint where
  checkpointIndexes := (checkpointDirs dir).map fun entry => indexOrZero entry.1.toList
  queryIndexes := ((checkpointDirs dir).foldl (fun indexes entry =>
    (queryFiles entry.2).foldl (fun indexes file => insertIndex indexes (indexOrZero file.1)) indexes) .empty).keys
  checkpointIntervalSteps := interval

/-- The content of the last local file whose destination is this path. -/
def destined (paths : CheckpointStore) (dir : LocalDir Bytes) (path : ObjectPath) : Option Bytes :=
  (((checkpointDirs dir).flatMap (putsOf paths)).filter fun entry => entry.1 = path).getLast?.map Prod.snd

/-- The stored manifest could be read, it has the new entry of one scenario and the old ones of all others, and their
downloads return what they returned. -/
structure OthersUnchanged (paths : CheckpointStore) (codec : Codec Bytes) (before after : ObjectStore Bytes)
    (scenario : String) (entry : ScenarioCheckpoint) : Prop where
  readable : ∀ content, before.objects paths.manifestPath = some content →
    ∃ manifest, codec.decode content = .ok manifest
  stored : ∃ content manifest, after.objects paths.manifestPath = some content ∧ codec.decode content = .ok manifest ∧
    manifest.scenarios.lookup scenario = some entry ∧
    ∀ other, other ≠ scenario → manifest.scenarios.lookup other = storedEntry paths codec before other
  downloads : ∀ other, other ≠ scenario → ∀ info, storedEntry paths codec before other = some info →
    ∀ files result, paths.downloadCheckpoints before info files = .ok result →
      paths.downloadCheckpoints after info files = .ok result

/-- An upload fails and leaves the manifest, or it leaves the other scenarios unchanged. -/
def LeavesOthersAlone (paths : CheckpointStore) (codec : Codec Bytes) (faults : UploadFaults)
    (store : ObjectStore Bytes) (scenario : String) (dir : Option (LocalDir Bytes)) (interval : Nat) : Prop :=
  match paths.tryUploadCheckpoints faults codec store scenario dir interval with
  | (.error _, after) => after.objects paths.manifestPath = store.objects paths.manifestPath
  | (.ok (), after) =>
      ∃ tree, dir = some tree ∧ OthersUnchanged paths codec store after scenario (uploadEntry tree interval)

/-- A stored manifest can be decoded, and read unless it lists no other scenario; no local file is destined for an
object of other content that the download of another scenario reads. -/
structure Undisturbed (paths : CheckpointStore) (codec : Codec Bytes) (store : ObjectStore Bytes) (scenario : String)
    (dir : LocalDir Bytes) : Prop where
  manifest : ∀ content, store.objects paths.manifestPath = some content →
    ∃ manifest, codec.decode content = .ok manifest ∧
      (store.failing paths.manifestPath = none ∨ ∀ other, other ≠ scenario → manifest.scenarios.lookup other = none)
  parquet : ∀ other, other ≠ scenario → ∀ info, storedEntry paths codec store other = some info →
    Downloadable paths store info → ∀ checkpoint ∈ info.checkpointIndexes, ∀ query ∈ info.queryIndexes, ∀ content,
      destined paths dir (paths.checkpointParquetPath checkpoint query) = some content →
        store.objects (paths.checkpointParquetPath checkpoint query) = some content
  rowCounts : ∀ other, other ≠ scenario → ∀ info, storedEntry paths codec store other = some info →
    Downloadable paths store info → ∀ checkpoint ∈ info.checkpointIndexes, ∀ content,
      destined paths dir (paths.checkpointRowCountsPath checkpoint) = some content →
        store.objects (paths.checkpointRowCountsPath checkpoint) = some content

/-- The manifest that the upload starts from. -/
def startManifest (paths : CheckpointStore) (codec : Codec Bytes) (store : ObjectStore Bytes) : CheckpointManifest :=
  match paths.downloadManifest codec store with
  | .ok manifest => manifest
  | .error _ => ⟨[]⟩

/-- The upload writes the manifest that it starts from, with the new entry. -/
theorem uploadCheckpoints_manifest :
    (paths.uploadCheckpoints codec store scenario dir interval).1.objects paths.manifestPath =
      some (codec.encode ((startManifest paths codec store).insert scenario (uploadEntry dir interval))) := by
  obtain ⟨puts, checkpoints, queries⟩ := uploadDirectory_foldl paths (checkpointDirs dir) ⟨store, [], .empty⟩
  have kept := (uploading_guarded paths ⟨none, fun _ => none, fun _ _ => none, fun _ => none, fun _ => none⟩ dir
    ⟨store, [], .empty⟩).2.2
  have failing : (putAll store ((checkpointDirs dir).flatMap (putsOf paths))).failing = store.failing :=
    failing_putAll _
  rw [← puts] at failing
  have same : paths.downloadManifest codec ((checkpointDirs dir).foldl paths.uploadDirectory ⟨store, [], .empty⟩).store =
      paths.downloadManifest codec store := by
    have kept : ((checkpointDirs dir).foldl paths.uploadDirectory ⟨store, [], .empty⟩).store.objects
        paths.manifestPath = store.objects paths.manifestPath := kept
    simp only [CheckpointStore.downloadManifest, ObjectStore.get, failing, kept]
  unfold CheckpointStore.uploadCheckpoints startManifest uploadEntry ObjectStore.put
  dsimp only
  rewrite [if_pos rfl, same, checkpoints, queries, List.nil_append]
  rfl

/-- An object of a checkpoint is what the last local file that is destined for it has put there. -/
theorem uploadCheckpoints_destined {suffix : List String} (long : suffix.length ≠ 1) :
    (paths.uploadCheckpoints codec store scenario dir interval).1.objects (paths.root ++ suffix) =
      (destined paths dir (paths.root ++ suffix)).or (store.objects (paths.root ++ suffix)) := by
  rw [uploadCheckpoints_objects long, objects_putAll, destined]

/-- The start manifest has the stored entries of the others when the upload is undisturbed. -/
theorem startManifest_lookup (undisturbed : Undisturbed paths codec store scenario dir) {other : String}
    (differs : other ≠ scenario) :
    (startManifest paths codec store).scenarios.lookup other = storedEntry paths codec store other := by
  unfold startManifest CheckpointStore.downloadManifest storedEntry ObjectStore.get
  cases stored : store.objects paths.manifestPath with
  | none => cases store.failing paths.manifestPath <;> rfl
  | some content =>
      obtain ⟨manifest, decoded, reads⟩ := undisturbed.manifest content stored
      cases fails : store.failing paths.manifestPath with
      | none => simp only [decoded]
      | some message =>
          have alone := reads.resolve_left (by simp [fails])
          simp only [decoded, alone other differs]
          rfl

/-- Undisturbed uploads leave the objects of the other scenarios as they are. -/
theorem sameReads_of_undisturbed (undisturbed : Undisturbed paths codec store scenario dir) {other : String}
    (differs : other ≠ scenario) {info : ScenarioCheckpoint} (listed : storedEntry paths codec store other = some info)
    (downloadable : Downloadable paths store info) :
    SameReads paths store (paths.uploadCheckpoints codec store scenario dir interval).1 info := by
  have kept {suffix : List String} (long : suffix.length ≠ 1)
      (same : ∀ content, destined paths dir (paths.root ++ suffix) = some content →
        store.objects (paths.root ++ suffix) = some content) :
      store.objects (paths.root ++ suffix) =
        (paths.uploadCheckpoints codec store scenario dir interval).1.objects (paths.root ++ suffix) := by
    rw [uploadCheckpoints_destined long]
    cases found : destined paths dir (paths.root ++ suffix) with
    | none => rfl
    | some content => exact same content found
  constructor
  · intro checkpoint member query asked
    exact kept (by simp) (undisturbed.parquet other differs info listed downloadable checkpoint member query asked)
  · intro checkpoint member
    exact kept (by simp) (undisturbed.rowCounts other differs info listed downloadable checkpoint member)

theorem Downloadable.of_sameReads {other : ObjectStore Bytes} {info : ScenarioCheckpoint}
    (downloadable : Downloadable paths store info) (same : SameReads paths store other info)
    (failing : other.failing = store.failing) : Downloadable paths other info := by
  constructor
  · intro checkpoint member query asked
    rw [failing, ← same.parquet checkpoint member query asked]
    exact downloadable.parquet checkpoint member query asked
  · intro checkpoint member
    rw [failing]
    exact downloadable.rowCounts checkpoint member

/-- Downloads that return the same have read the same objects. -/
theorem sameReads_of_downloads {other : ObjectStore Bytes} {info : ScenarioCheckpoint}
    (downloadable : Downloadable paths store info)
    (same : ∀ files result, paths.downloadCheckpoints store info files = .ok result →
      paths.downloadCheckpoints other info files = .ok result) : SameReads paths store other info := by
  obtain ⟨result, ran, parquet, rowCounts⟩ := downloaded_of_downloadable downloadable
  have again := same _ result ran
  obtain ⟨result', ran', parquet', rowCounts'⟩ := downloaded_of_downloadable (downloadable_of_download again)
  obtain rfl : result = result' := Except.ok.inj (again.symm.trans ran')
  constructor
  · intro checkpoint member query asked
    rw [← parquet checkpoint member query asked, parquet' checkpoint member query asked]
  · intro checkpoint member
    rw [← rowCounts checkpoint member, rowCounts' checkpoint member]

/-- The upload of one scenario leaves the others alone when it meets an error or disturbs no other scenario, and
only then. -/
theorem upload_leaves_others_iff (paths : CheckpointStore) (codec : Codec Bytes) (faults : UploadFaults)
    (store : ObjectStore Bytes) (scenario : String) (dir : Option (LocalDir Bytes)) (interval : Nat)
    (lossless : ∀ manifest, ∃ decoded, codec.decode (codec.encode manifest) = .ok decoded ∧
      ∀ name, decoded.scenarios.lookup name = manifest.scenarios.lookup name) :
    LeavesOthersAlone paths codec faults store scenario dir interval ↔
      ∀ tree, dir = some tree → Faultless paths faults tree → Undisturbed paths codec store scenario tree := by
  constructor
  · rintro leaves tree rfl faultless
    rw [LeavesOthersAlone, tryUploadCheckpoints_faultless faultless] at leaves
    obtain ⟨_, isTree, unchanged⟩ := leaves
    obtain rfl := Option.some.inj isTree
    have reads {other : String} (differs : other ≠ scenario) {info : ScenarioCheckpoint}
        (listed : storedEntry paths codec store other = some info) (downloadable : Downloadable paths store info) :
        SameReads paths store (paths.uploadCheckpoints codec store scenario tree interval).1 info :=
      sameReads_of_downloads downloadable (unchanged.downloads other differs info listed)
    have put {suffix : List String} (long : suffix.length ≠ 1) {content : Bytes}
        (found : destined paths tree (paths.root ++ suffix) = some content) :
        (paths.uploadCheckpoints codec store scenario tree interval).1.objects (paths.root ++ suffix) =
          some content := by
      rw [uploadCheckpoints_destined long, found]
      rfl
    constructor
    · intro content stored
      obtain ⟨manifest, decoded⟩ := unchanged.readable content stored
      refine ⟨manifest, decoded, ?_⟩
      by_cases works : store.failing paths.manifestPath = none
      · exact Or.inl works
      · right
        intro other differs
        obtain ⟨message, fails⟩ := Option.ne_none_iff_exists'.mp works
        obtain ⟨written, rewritten, object, read, -, others⟩ := unchanged.stored
        rw [uploadCheckpoints_manifest] at object
        obtain rfl := Option.some.inj object
        have start : startManifest paths codec store = ⟨[]⟩ := by
          simp only [startManifest, CheckpointStore.downloadManifest, ObjectStore.get, fails]
        obtain ⟨decoded', read', entries⟩ := lossless ((startManifest paths codec store).insert scenario
          (uploadEntry tree interval))
        obtain rfl : rewritten = decoded' := Except.ok.inj (read.symm.trans read')
        have entry := others other differs
        rw [entries, lookup_insert_ne _ differs, start] at entry
        have listed : storedEntry paths codec store other = manifest.scenarios.lookup other := by
          simp only [storedEntry, stored, decoded]
        exact (entry.trans listed).symm
    · intro other differs info listed downloadable checkpoint member query asked content found
      rw [(reads differs listed downloadable).parquet checkpoint member query asked]
      exact put (by simp) found
    · intro other differs info listed downloadable checkpoint member content found
      rw [(reads differs listed downloadable).rowCounts checkpoint member]
      exact put (by simp) found
  · intro condition
    cases dir with
    | none => exact rfl
    | some tree =>
        by_cases faultless : Faultless paths faults tree
        · have undisturbed := condition tree rfl faultless
          rw [LeavesOthersAlone, tryUploadCheckpoints_faultless faultless]
          refine ⟨tree, rfl, ?_, ?_, ?_⟩
          · intro content stored
            obtain ⟨manifest, decoded, -⟩ := undisturbed.manifest content stored
            exact ⟨manifest, decoded⟩
          · obtain ⟨decoded, read, entries⟩ := lossless ((startManifest paths codec store).insert scenario
              (uploadEntry tree interval))
            refine ⟨_, decoded, uploadCheckpoints_manifest, read, ?_, ?_⟩
            · rw [entries, lookup_insert_self]
            · intro other differs
              rw [entries, lookup_insert_ne _ differs, startManifest_lookup undisturbed differs]
          · intro other differs info listed files result downloaded
            have downloadable := downloadable_of_download downloaded
            have same : SameReads paths store (paths.uploadCheckpoints codec store scenario tree interval).1 info :=
              sameReads_of_undisturbed undisturbed differs listed downloadable
            have works := downloadable.of_sameReads same uploadCheckpoints_failing
            rw [← downloadCheckpoints_congr downloadable same works, downloaded]
        · obtain ⟨message, after, failed, kept⟩ : ∃ message after,
              paths.tryUploadCheckpoints faults codec store scenario (some tree) interval = (.error message, after) ∧
                after.objects paths.manifestPath = store.objects paths.manifestPath :=
            tryUploadCheckpoints_fails faultless
          rw [LeavesOthersAlone, failed]
          exact kept

end Frame

section Samples

/-- The store holds the checkpoint zero of one scenario, and its manifest may fail to be read. -/
def sharedStore (failing : Option String) : ObjectStore (Nat ⊕ CheckpointManifest) where
  objects path :=
    if path = ["run", "checkpoints.json"] then some (.inr ⟨[("other", ⟨[0], [0], 5⟩)]⟩)
    else if path = ["run", "checkpoints", "0", "0.parquet"] then some (.inl 7)
    else none
  failing path := if path = ["run", "checkpoints.json"] then failing else none

/-- Another scenario has written one result of its checkpoint one. -/
def laterTree : LocalDir (Nat ⊕ CheckpointManifest) := [("1", .directory [("0.parquet", .inl 9)])]

def noFaults : UploadFaults := ⟨none, fun _ => none, fun _ _ => none, fun _ => none, fun _ => none⟩

theorem noFaults_faultless : Faultless ⟨["run"]⟩ noFaults laterTree where
  readDir := rfl
  directories _ _ := ⟨rfl, fun _ _ => ⟨rfl, rfl⟩, fun _ => ⟨rfl, rfl⟩⟩
  manifest := rfl

theorem sampleCodec_lossless (manifest : CheckpointManifest) :
    ∃ decoded, sampleCodec.decode (sampleCodec.encode manifest) = .ok decoded ∧
      ∀ name, decoded.scenarios.lookup name = manifest.scenarios.lookup name := ⟨manifest, rfl, fun _ => rfl⟩

theorem storedEntry_sharedStore (failing : Option String) {scenario : String} {info : ScenarioCheckpoint}
    (listed : storedEntry ⟨["run"]⟩ sampleCodec (sharedStore failing) scenario = some info) : info = ⟨[0], [0], 5⟩ := by
  have entry : storedEntry ⟨["run"]⟩ sampleCodec (sharedStore failing) scenario =
      List.lookup scenario [("other", ⟨[0], [0], 5⟩)] := rfl
  rw [entry, List.lookup_cons] at listed
  split at listed
  · exact (Option.some.inj listed).symm
  · cases listed

/-- A manifest that can be read keeps the entry of the other scenario, whose files lie elsewhere. -/
theorem upload_leaves_others_iff_sample :
    LeavesOthersAlone ⟨["run"]⟩ sampleCodec noFaults (sharedStore none) "scenario" (some laterTree) 5 := by
  refine (upload_leaves_others_iff ⟨["run"]⟩ sampleCodec noFaults (sharedStore none) "scenario" (some laterTree) 5
    sampleCodec_lossless).mpr ?_
  intro tree isTree _
  obtain rfl := Option.some.inj isTree
  refine ⟨?_, ?_, ?_⟩
  · intro content stored
    obtain rfl := Option.some.inj stored
    exact ⟨_, rfl, Or.inl rfl⟩
  · intro other _ info listed _ checkpoint member query asked content found
    obtain rfl := storedEntry_sharedStore none listed
    obtain rfl : checkpoint = 0 := List.mem_singleton.mp member
    obtain rfl : query = 0 := List.mem_singleton.mp asked
    have undestined : destined ⟨["run"]⟩ laterTree ["run", "checkpoints", "0", "0.parquet"] = none := by rfl
    cases undestined.symm.trans found
  · intro other _ info listed _ checkpoint member content found
    obtain rfl := storedEntry_sharedStore none listed
    obtain rfl : checkpoint = 0 := List.mem_singleton.mp member
    have undestined : destined ⟨["run"]⟩ laterTree ["run", "checkpoints", "0", "row_counts.json"] = none := by rfl
    cases undestined.symm.trans found

/-- A manifest that cannot be read for a moment is replaced by one without the other scenario. -/
theorem transient_error_drops_scenario :
    ¬ LeavesOthersAlone ⟨["run"]⟩ sampleCodec noFaults (sharedStore (some "timeout")) "scenario" (some laterTree) 5 := by
  intro leaves
  rw [LeavesOthersAlone, tryUploadCheckpoints_faultless noFaults_faultless] at leaves
  obtain ⟨_, _, unchanged⟩ := leaves
  obtain ⟨written, manifest, object, read, -, others⟩ := unchanged.stored
  rw [uploadCheckpoints_manifest] at object
  obtain rfl := Option.some.inj object
  obtain rfl := Except.ok.inj read
  have entry := others "other" (by decide)
  rw [lookup_insert_ne _ (by decide)] at entry
  cases entry

end Samples

end Spicebench.Checkpointer
