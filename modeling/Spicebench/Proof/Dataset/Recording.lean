import Spicebench.Construction.Dataset.DataGenerator

namespace Spicebench.DataGeneration

open Library

variable {Store Fault Key Data Bytes : Type}

theorem batchFile_injective {batchId other : Nat} (same : batchFile batchId = batchFile other) : batchId = other := by
  have texts := String.ofList_injective same
  have digits : padded 6 batchId = padded 6 other := List.append_cancel_left (List.append_cancel_right texts)
  rw [← ofDigitChars_padded 6 batchId, digits, ofDigitChars_padded]

theorem batchPath_injective {tableName other : String} {batchId index : Nat}
    (same : batchPath tableName batchId = batchPath other index) : tableName = other ∧ batchId = index := by
  simp only [batchPath, List.cons.injEq, and_true, true_and] at same
  exact ⟨same.1, batchFile_injective same.2⟩

/-- A storage records its batches when a successful write can be read back, and no write touches another batch. -/
structure DataStorage.Records (storage : DataStorage Store Fault Key Data)
    (stored : Store → String → Nat → Option (RecordBatch Key Data)) (describes : Store → VersionMetadata → Prop) :
    Prop where
  write : ∀ {store fault tableName batchId batch result},
    (storage.write store fault tableName batchId batch).1 = .ok result →
      stored (storage.write store fault tableName batchId batch).2 tableName batchId = some batch
  write_ne : ∀ {store fault tableName batchId batch other index}, (other ≠ tableName ∨ index ≠ batchId) →
    stored (storage.write store fault tableName batchId batch).2 other index = stored store other index
  metadata : ∀ {store fault metadata}, (storage.writeVersionMetadata store fault metadata).1 = .ok () →
    describes (storage.writeVersionMetadata store fault metadata).2 metadata
  metadata_ne : ∀ {store fault metadata},
    stored (storage.writeVersionMetadata store fault metadata).2 = stored store

namespace FileStorage

variable {parquet : Parquet Key Data Bytes} {json : VersionMetadata → Bytes}

theorem storedBatch_set_ne {files : Files Bytes} {path : StoragePath} {content : Option Bytes} {tableName : String}
    {batchId : Nat} (differ : batchPath tableName batchId ≠ path) :
    storedBatch parquet (files.set path content) tableName batchId = storedBatch parquet files tableName batchId := by
  simp [storedBatch, Files.set, differ]

theorem records (faithful : parquet.Faithful) :
    (storage parquet json).Records (storedBatch parquet)
      (fun files metadata => files versionMetadataPath = some (json metadata)) where
  write := by
    intro files fault tableName batchId batch result wrote
    match fault with
    | none =>
        obtain ⟨file, decoded, whole⟩ := faithful batch
        simp [storage, write, storedBatch, Files.set, decoded, whole]
    | some (.createDir _) => cases wrote
    | some (.encode _) => cases wrote
    | some (.write _ _) => cases wrote
  write_ne := by
    intro files fault tableName batchId batch other index differ
    have elsewhere : batchPath other index ≠ batchPath tableName batchId := by
      intro same
      obtain ⟨rfl, rfl⟩ := batchPath_injective same
      exact differ.elim (· rfl) (· rfl)
    match fault with
    | none => exact storedBatch_set_ne elsewhere
    | some (.createDir _) => rfl
    | some (.encode _) => rfl
    | some (.write _ _) => exact storedBatch_set_ne elsewhere
  metadata := by
    intro files fault metadata wrote
    match fault with
    | none => simp [storage, writeVersionMetadata, Files.set]
    | some (.createDir _) => cases wrote
    | some (.encode _) => cases wrote
    | some (.write _ _) => cases wrote
  metadata_ne := by
    intro files fault metadata
    have elsewhere : ∀ tableName batchId, batchPath tableName batchId ≠ versionMetadataPath := by
      intro tableName batchId same
      simp [batchPath, versionMetadataPath] at same
    funext tableName batchId
    match fault with
    | none => exact storedBatch_set_ne (elsewhere tableName batchId)
    | some (.createDir _) => rfl
    | some (.encode _) => rfl
    | some (.write _ _) => exact storedBatch_set_ne (elsewhere tableName batchId)

end FileStorage

/-- What one table's task and its records look like. -/
structure TableView (Key Data : Type) where
  phase : TablePhase Key Data
  produced : List (RecordBatch Key Data)
  stored : Nat → Option (RecordBatch Key Data)
  reported : Nat → Option (List Nat)
  recorded : Nat → Option (List Nat)

namespace TableView

variable (view : TableView Key Data)

/-- The batch of an id is stored, and its parts are recorded as they were reported. -/
def Keeps (index : Nat) : Prop :=
  view.stored index = view.produced[index]? ∧ (view.reported index).isSome ∧ view.recorded index = view.reported index

/-- All batches below an id are kept, and no other one is recorded. -/
structure KeepsBelow (bound : Nat) : Prop where
  kept : ∀ index < bound, view.Keeps index
  fresh : ∀ index, bound ≤ index → view.recorded index = none

/-- While no write has failed, the records agree with the phase of the task. -/
def Agrees : Prop :=
  match view.phase with
  | .generating batchId => view.produced.length = batchId ∧ view.KeepsBelow batchId
  | .writing batchId batch =>
      view.produced.length = batchId + 1 ∧ view.produced[batchId]? = some batch ∧ view.KeepsBelow batchId
  | .written batchId (.ok result) =>
      view.produced.length = batchId + 1 ∧ view.stored batchId = view.produced[batchId]? ∧
        view.reported batchId = some result.partIds ∧ view.KeepsBelow batchId
  | .written _ (.error _) => True
  | .returned (.ok ()) => view.KeepsBelow view.produced.length
  | .returned (.error _) => True
  | .panicked _ => True
  | .joined => view.KeepsBelow view.produced.length

end TableView

variable (storage : DataStorage Store Fault Key Data) (stored : Store → String → Nat → Option (RecordBatch Key Data))

/-- The view of a table in a state. -/
def GenerateState.view (state : GenerateState Store Key Data) (tableName : String) : TableView Key Data where
  phase := state.phase tableName
  produced := state.produced tableName
  stored := stored state.store tableName
  reported := state.reported tableName
  recorded := state.written.lookupAt tableName

section Moves

variable {storage}

/-- What the task of a table can make of a state. -/
inductive Moves (storage : DataStorage Store Fault Key Data) (state : GenerateState Store Key Data)
    (tableName : String) : GenerateState Store Key Data → Prop where
  | answered (batchId : Nat) (answer : Except String (Option (RecordBatch Key Data)))
      (phase : state.phase tableName = .generating batchId) :
      Moves storage state tableName (state.answered tableName batchId answer)
  | wrote (batchId : Nat) (batch : RecordBatch Key Data) (fault : Option Fault)
      (phase : state.phase tableName = .writing batchId batch) :
      Moves storage state tableName
        (state.wrote tableName batchId (storage.write state.store fault tableName batchId batch))
  | noted (batchId : Nat) (outcome : Except String WriteResult)
      (phase : state.phase tableName = .written batchId outcome) :
      Moves storage state tableName (state.noted tableName batchId outcome)
  | panicked (message : String) : Moves storage state tableName (state.enter tableName (.panicked message))
  | joined (phase : state.phase tableName = .returned (.ok ())) :
      Moves storage state tableName (state.enter tableName .joined)
  | failed (message : String) : Moves storage state tableName { state with ended := some (.error message) }

theorem moves_of_taskStep {state next : GenerateState Store Key Data} {action : GenerateAction Fault Key Data}
    {tableName : String} (named : action.table? = some tableName)
    (stepped : taskStep storage state action = some next) : Moves storage state tableName next := by
  cases action with
  | nextBatch name answer =>
      obtain rfl := Option.some.inj named
      simp only [taskStep] at stepped
      split at stepped
      · next batchId phase => exact Option.some.inj stepped ▸ .answered batchId answer phase
      · cases stepped
  | write name fault =>
      obtain rfl := Option.some.inj named
      simp only [taskStep] at stepped
      split at stepped
      · next batchId batch phase => exact Option.some.inj stepped ▸ .wrote batchId batch fault phase
      · cases stepped
  | note name =>
      obtain rfl := Option.some.inj named
      simp only [taskStep] at stepped
      split at stepped
      · next batchId outcome phase => exact Option.some.inj stepped ▸ .noted batchId outcome phase
      · cases stepped
  | panic name message =>
      obtain rfl := Option.some.inj named
      simp only [taskStep] at stepped
      split at stepped
      · exact Option.some.inj stepped ▸ .panicked message
      · exact Option.some.inj stepped ▸ .panicked message
      · cases stepped
  | join name =>
      obtain rfl := Option.some.inj named
      simp only [taskStep, GenerateState.join] at stepped
      split at stepped
      · next phase => exact Option.some.inj stepped ▸ .joined phase
      · exact Option.some.inj stepped ▸ .failed _
      · exact Option.some.inj stepped ▸ .failed _
      · cases stepped
  | finish fault => cases named

/-- A step of the command is a step of a table's task, or the last one. -/
theorem generateStep_cases {config : VersionConfig} {dataset : DatasetTables}
    {state next : GenerateState Store Key Data} {action : GenerateAction Fault Key Data}
    (stepped : generateStep storage config dataset state action = some next) :
    state.ended = none ∧
      ((∃ tableName ∈ dataset.tables.keys, Moves storage state tableName next) ∨
        ∃ fault, state.allJoined dataset = true ∧ next = state.finish
          (storage.writeVersionMetadata state.store fault (versionMetadata config dataset state.written))) := by
  unfold generateStep at stepped
  split at stepped
  · cases stepped
  · next fault running =>
      rw [Option.ite_none_right_eq_some] at stepped
      exact ⟨running, .inr ⟨fault, stepped.1, (Option.some.inj stepped.2).symm⟩⟩
  · next running _ =>
      rw [Option.ite_none_right_eq_some, Option.any_eq_true] at stepped
      obtain ⟨⟨tableName, named, listed⟩, stepped⟩ := stepped
      exact ⟨running, .inl ⟨tableName, of_decide_eq_true listed, moves_of_taskStep named stepped⟩⟩

end Moves

section Step

variable {storage} {stored} {describes : Store → VersionMetadata → Prop}
  {state next : GenerateState Store Key Data} {tableName : String}

/-- The task of one table leaves the view of another one as it is. -/
theorem Moves.view_ne (records : storage.Records stored describes) (moved : Moves storage state tableName next)
    {other : String} (differ : other ≠ tableName) : next.view stored other = state.view stored other := by
  cases moved with
  | answered batchId answer phase =>
      match answer with
      | .ok (some batch) => simp [GenerateState.view, GenerateState.answered, GenerateState.enter, differ]
      | .ok none => simp [GenerateState.view, GenerateState.answered, GenerateState.enter, differ]
      | .error message => simp [GenerateState.view, GenerateState.answered, GenerateState.enter, differ]
  | wrote batchId batch fault phase =>
      have elsewhere : stored (storage.write state.store fault tableName batchId batch).2 other =
          stored state.store other := by
        funext index
        exact records.write_ne (.inl differ)
      simp [GenerateState.view, GenerateState.wrote, GenerateState.enter, differ, elsewhere]
  | noted batchId outcome phase =>
      cases outcome with
      | ok result =>
          have elsewhere : (state.written.insertAt tableName batchId result.partIds).lookupAt other =
              state.written.lookupAt other := by
            funext index
            exact KeyedMap.lookupAt_insertAt_ne _ _ _ _ differ index
          simp [GenerateState.view, GenerateState.noted, GenerateState.enter, differ, elsewhere]
      | error message => simp [GenerateState.view, GenerateState.noted, GenerateState.enter, differ]
  | panicked message => simp [GenerateState.view, GenerateState.enter, differ]
  | joined phase => simp [GenerateState.view, GenerateState.enter, differ]
  | failed message => rfl

theorem Moves.writeErrors (moved : Moves storage state tableName next) (clean : next.metrics.writeErrors = 0) :
    state.metrics.writeErrors = 0 := by
  cases moved with
  | answered batchId answer phase =>
      match answer with
      | .ok (some batch) => exact clean
      | .ok none => exact clean
      | .error message => exact clean
  | wrote batchId batch fault phase => exact clean
  | noted batchId outcome phase =>
      cases outcome with
      | ok result => exact clean
      | error message => exact absurd clean (Nat.succ_ne_zero _)
  | panicked message => exact clean
  | joined phase => exact clean
  | failed message => exact clean

/-- A produced batch waits for its write, and the earlier ones stay as they are. -/
theorem TableView.KeepsBelow.produce {view : TableView Key Data} {bound : Nat} (keeps : view.KeepsBelow bound)
    (long : view.produced.length = bound) (batch : RecordBatch Key Data) (phase : TablePhase Key Data) :
    TableView.KeepsBelow { view with phase, produced := view.produced ++ [batch] } bound where
  kept := by
    intro index below
    obtain ⟨same, rest⟩ := keeps.kept index below
    refine ⟨?_, rest⟩
    show view.stored index = (view.produced ++ [batch])[index]?
    rw [List.getElem?_append_left (long ▸ below), same]
  fresh := keeps.fresh

/-- The task of a table keeps the agreement, unless the command has ended or a write has failed. -/
theorem Moves.agrees (records : storage.Records stored describes) (moved : Moves storage state tableName next)
    (clean : next.metrics.writeErrors = 0) (running : next.ended = none)
    (agrees : (state.view stored tableName).Agrees) : (next.view stored tableName).Agrees := by
  cases moved with
  | answered batchId answer phase =>
      simp only [TableView.Agrees, GenerateState.view, phase] at agrees
      obtain ⟨long, keeps⟩ := agrees
      match answer with
      | .ok (some batch) =>
          simp only [TableView.Agrees, GenerateState.view, GenerateState.answered, GenerateState.enter,
            Function.update_self]
          refine ⟨by simp [long], by simp [← long], ?_⟩
          exact keeps.produce long batch (.writing batchId batch)
      | .ok none =>
          simp only [TableView.Agrees, GenerateState.view, GenerateState.answered, GenerateState.enter,
            Function.update_self]
          exact long ▸ ⟨keeps.kept, keeps.fresh⟩
      | .error message =>
          simp only [TableView.Agrees, GenerateState.view, GenerateState.answered, GenerateState.enter,
            Function.update_self]
  | wrote batchId batch fault phase =>
      simp only [TableView.Agrees, GenerateState.view, phase] at agrees
      obtain ⟨long, last, keeps⟩ := agrees
      simp only [TableView.Agrees, GenerateState.view, GenerateState.wrote, GenerateState.enter, Function.update_self]
      cases answered : (storage.write state.store fault tableName batchId batch).1 with
      | error message => trivial
      | ok result =>
          refine ⟨long, ?_, by simp [Except.toOption], ?_, keeps.fresh⟩
          · rw [records.write answered, last]
          · intro index below
            obtain ⟨same, reported, recorded⟩ := keeps.kept index below
            have other : index ≠ batchId := Nat.ne_of_lt below
            refine ⟨?_, ?_, ?_⟩
            · exact (records.write_ne (.inr other)).trans same
            · simpa [other] using reported
            · simpa [other] using recorded
  | noted batchId outcome phase =>
      simp only [TableView.Agrees, GenerateState.view, phase] at agrees
      cases outcome with
      | error message => exact absurd clean (Nat.succ_ne_zero _)
      | ok result =>
          obtain ⟨long, same, reported, keeps⟩ := agrees
          simp only [TableView.Agrees, GenerateState.view, GenerateState.noted, GenerateState.enter,
            Function.update_self]
          refine ⟨long, ?_, ?_⟩
          · intro index below
            by_cases last : index = batchId
            · subst last
              exact ⟨same, by simp [reported], by simp [reported]⟩
            · obtain ⟨same, reported, recorded⟩ := keeps.kept index (by omega)
              refine ⟨same, reported, ?_⟩
              exact (KeyedMap.lookupAt_insertAt_inner _ _ _ _ last).trans recorded
          · intro index above
            exact (KeyedMap.lookupAt_insertAt_inner _ _ _ _ (by omega)).trans (keeps.fresh index (by omega))
  | panicked message =>
      simp only [TableView.Agrees, GenerateState.view, GenerateState.enter, Function.update_self]
  | joined phase =>
      simp only [TableView.Agrees, GenerateState.view, phase] at agrees
      simp only [TableView.Agrees, GenerateState.view, GenerateState.enter, Function.update_self]
      exact ⟨agrees.kept, agrees.fresh⟩
  | failed message => cases running

/-- The metadata of a table lists the batches below an id with their parts in order. -/
def TableView.Listed (view : TableView Key Data) (metadata : VersionMetadata) (tableName : String) : Prop :=
  ∃ recorded, metadata.tables.lookup tableName = some recorded ∧
    recorded.batchIds = List.range view.produced.length ∧
    ∀ index < view.produced.length, view.stored index = view.produced[index]? ∧
      ∃ parts, view.reported index = some parts ∧
        (recorded.batchParts.lookup index).getD [] = parts.insertionSort (· ≤ ·)

theorem lookup_batchParts (dataset : DatasetTables) (tableName : String) {batchParts : KeyedMap Nat (List Nat)}
    {index : Nat} {parts : List Nat} (found : batchParts.lookup index = some parts) :
    ((tableMetadata dataset tableName batchParts).batchParts.lookup index).getD [] =
      parts.insertionSort (· ≤ ·) := by
  rw [tableMetadata, KeyedMap.lookup_rebuild, found, Option.bind_some]
  cases parts with
  | nil => rfl
  | cons first rest => rfl

/-- What is kept below the number of produced batches is listed. -/
theorem TableView.KeepsBelow.listed (config : VersionConfig) (dataset : DatasetTables)
    (keeps : (state.view stored tableName).KeepsBelow (state.produced tableName).length)
    (produced : state.produced tableName ≠ []) :
    (state.view stored tableName).Listed (versionMetadata config dataset state.written) tableName := by
  have recorded : ∀ index < (state.produced tableName).length,
      ∃ parts, state.reported tableName index = some parts ∧
        state.written.lookupAt tableName index = some parts := by
    intro index below
    obtain ⟨-, reported, same⟩ := keeps.kept index below
    obtain ⟨parts, reported⟩ := Option.isSome_iff_exists.mp reported
    exact ⟨parts, reported, same.trans reported⟩
  obtain ⟨first, -, firstFound⟩ := recorded 0 (List.length_pos_iff.mpr produced)
  obtain ⟨batchParts, entry, -⟩ := Option.bind_eq_some_iff.mp firstFound
  have inner : ∀ index, state.written.lookupAt tableName index = batchParts.lookup index := by
    intro index
    rw [KeyedMap.lookupAt, entry, Option.bind_some]
  refine ⟨tableMetadata dataset tableName batchParts, ?_, ?_, ?_⟩
  · rw [versionMetadata, KeyedMap.lookup_rebuild, entry, Option.bind_some]
  · apply KeyedMap.sortedKeys_eq_range
    intro index
    rw [← inner]
    constructor
    · intro found
      by_contra above
      rw [show state.written.lookupAt tableName index = none from keeps.fresh index (not_lt.mp above)] at found
      cases found
    · intro below
      obtain ⟨parts, -, found⟩ := recorded index below
      rw [found, Option.isSome_some]
  · intro index below
    obtain ⟨parts, reported, found⟩ := recorded index below
    refine ⟨(keeps.kept index below).1, parts, reported, ?_⟩
    exact lookup_batchParts dataset tableName ((inner index).symm.trans found)

/-- While the command runs, the tables agree with their records; when it gets past its error check, the metadata lists
what was produced. -/
def GenerateState.Sound (stored : Store → String → Nat → Option (RecordBatch Key Data))
    (describes : Store → VersionMetadata → Prop) (dataset : DatasetTables) (state : GenerateState Store Key Data) :
    Prop :=
  match state.ended with
  | none =>
      (state.metrics.writeErrors = 0 → ∀ tableName, (state.view stored tableName).Agrees) ∧
        ∀ tableName ∉ dataset.tables.keys, state.phase tableName = .generating 0
  | some (.error _) => True
  | some (.ok ()) => ∃ metadata, describes state.store metadata ∧
      ∀ tableName, state.produced tableName ≠ [] → (state.view stored tableName).Listed metadata tableName

theorem GenerateState.Sound.start (dataset : DatasetTables) (store : Store) :
    GenerateState.Sound stored describes dataset (.start store) := by
  refine ⟨fun _ tableName => ⟨rfl, ?_, ?_⟩, fun _ _ => rfl⟩
  · intro index below
    exact absurd below (Nat.not_lt_zero index)
  · intro index _
    rfl

theorem Moves.ended (moved : Moves storage state tableName next) (running : state.ended = none) :
    next.ended = none ∨ ∃ message, next.ended = some (.error message) := by
  cases moved with
  | answered batchId answer phase =>
      match answer with
      | .ok (some batch) => exact .inl running
      | .ok none => exact .inl running
      | .error message => exact .inl running
  | wrote batchId batch fault phase => exact .inl running
  | noted batchId outcome phase =>
      cases outcome with
      | ok result => exact .inl running
      | error message => exact .inl running
  | panicked message => exact .inl running
  | joined phase => exact .inl running
  | failed message => exact .inr ⟨message, rfl⟩

theorem Moves.sound (records : storage.Records stored describes) {dataset : DatasetTables}
    (moved : Moves storage state tableName next) (listed : tableName ∈ dataset.tables.keys)
    (running : state.ended = none) (sound : state.Sound stored describes dataset) :
    next.Sound stored describes dataset := by
  simp only [GenerateState.Sound, running] at sound
  obtain ⟨agrees, untouched⟩ := sound
  rcases moved.ended running with still | ⟨message, failed⟩
  · simp only [GenerateState.Sound, still]
    refine ⟨?_, ?_⟩
    · intro clean other
      have before := agrees (moved.writeErrors clean)
      by_cases same : other = tableName
      · exact same ▸ moved.agrees records clean still (before tableName)
      · exact moved.view_ne records same ▸ before other
    · intro other absent
      have differ : other ≠ tableName := fun same => absent (same ▸ listed)
      have kept := congrArg TableView.phase (moved.view_ne records differ)
      exact kept.trans (untouched other absent)
  · simp only [GenerateState.Sound, failed]

theorem joined_of_allJoined {dataset : DatasetTables} (joined : state.allJoined dataset = true)
    (listed : tableName ∈ dataset.tables.keys) : state.phase tableName = .joined := by
  have found := List.all_eq_true.mp joined tableName listed
  split at found
  · assumption
  · cases found

/-- The last step lists what was produced, unless a write has failed. -/
theorem finish_sound (records : storage.Records stored describes) (config : VersionConfig) {dataset : DatasetTables}
    (running : state.ended = none) (joined : state.allJoined dataset = true)
    (sound : state.Sound stored describes dataset) (fault : Option Fault) :
    (state.finish (storage.writeVersionMetadata state.store fault
      (versionMetadata config dataset state.written))).Sound stored describes dataset := by
  simp only [GenerateState.Sound, running] at sound
  obtain ⟨agrees, untouched⟩ := sound
  have described := @records.metadata state.store fault (versionMetadata config dataset state.written)
  have untouchedStore := @records.metadata_ne state.store fault (versionMetadata config dataset state.written)
  generalize storage.writeVersionMetadata state.store fault (versionMetadata config dataset state.written) = answer
    at described untouchedStore
  obtain ⟨message | ⟨⟩, store⟩ := answer
  · exact trivial
  · by_cases failed : 0 < state.metrics.writeErrors
    · rw [GenerateState.finish, if_pos failed]
      exact trivial
    · rw [GenerateState.finish, if_neg failed]
      refine ⟨_, described rfl, ?_⟩
      intro tableName produced
      have agreed := agrees (by omega) tableName
      have view : GenerateState.view stored { state with store, ended := some (.ok ()) } tableName =
          state.view stored tableName := by
        simp only [GenerateState.view]
        rw [show stored store tableName = stored state.store tableName from congrFun untouchedStore tableName]
      have nonempty : state.produced tableName ≠ [] := produced
      rw [view]
      apply TableView.KeepsBelow.listed config dataset _ nonempty
      by_cases listed : tableName ∈ dataset.tables.keys
      · simpa only [TableView.Agrees, GenerateState.view, joined_of_allJoined joined listed] using agreed
      · simp only [TableView.Agrees, GenerateState.view, untouched tableName listed] at agreed
        exact absurd (List.length_eq_zero_iff.mp agreed.1) nonempty

/-- Every run of the command is sound for a storage that records its batches. -/
theorem generate_sound (records : storage.Records stored describes) {config : VersionConfig} {dataset : DatasetTables}
    {store : Store} (reached : (generate storage config dataset).Reaches (.start store) state) :
    state.Sound stored describes dataset := by
  refine reached.invariant _ ?_ (.start dataset store)
  rintro before after sound ⟨action, -, stepped⟩
  obtain ⟨running, ⟨tableName, listed, moved⟩ | ⟨fault, joined, rfl⟩⟩ := generateStep_cases stepped
  · exact moved.sound records listed running sound
  · exact finish_sound records config running joined sound fault

end Step

/-- When the command gets past its error check, the version file lists all batches of every table that produced one:
the file of each id holds the batch of that position, with the parts that the storage reported. -/
theorem archive_is_complete {parquet : Parquet Key Data Bytes} (faithful : parquet.Faithful)
    {json : VersionMetadata → Bytes} {config : VersionConfig} {dataset : DatasetTables} {files : Files Bytes}
    {state : GenerateState (Files Bytes) Key Data}
    (reached : (generate (FileStorage.storage parquet json) config dataset).Reaches (.start files) state)
    (archived : state.ended = some (.ok ())) :
    ∃ metadata, state.store versionMetadataPath = some (json metadata) ∧
      ∀ tableName, state.produced tableName ≠ [] →
        ∃ recorded, metadata.tables.lookup tableName = some recorded ∧
          recorded.batchIds = List.range (state.produced tableName).length ∧
          ∀ index < (state.produced tableName).length,
            FileStorage.storedBatch parquet state.store tableName index = (state.produced tableName)[index]? ∧
            ∃ parts, state.reported tableName index = some parts ∧
              (recorded.batchParts.lookup index).getD [] = parts.insertionSort (· ≤ ·) := by
  have sound := generate_sound (FileStorage.records faithful) reached
  rw [GenerateState.Sound, archived] at sound
  exact sound

/-- A file of the sample is a batch or the metadata. -/
abbrev SampleFile := RecordBatch Nat Nat ⊕ VersionMetadata

def sampleParquet : Parquet Nat Nat SampleFile where
  encode := .inl
  decode
    | .inl batch => .ok ⟨batch.schema, [batch]⟩
    | .inr _ => .error "not a Parquet file"
  size _ := 1

theorem sampleParquet_faithful : sampleParquet.Faithful := by
  intro batch
  refine ⟨⟨batch.schema, [batch]⟩, rfl, ?_⟩
  simp [ParquetFile.whole, ParquetFile.rows]

def sampleBatch (key : Nat) : RecordBatch Nat Nat := ⟨changeSchema, [⟨key, 0, some .create, 0⟩]⟩

def sampleConfig : VersionConfig :=
  ⟨"test", .ofRat false 1 zero_le_one, 3, "mock", .finite 0, .finite 0, false, 0, .finite 0⟩

/-- Two tables without columns. -/
def sampleTables : DatasetTables :=
  ⟨(AList.singleton "a" ⟨"a", [], "a_created_at"⟩).insert "b" ⟨"b", [], "b_created_at"⟩, fun _ => []⟩

/-- The first table produces two batches and the second one a batch; their writes overtake each other. -/
def sampleActions : List (GenerateAction (FileFault SampleFile) Nat Nat) :=
  [.nextBatch "a" (.ok (some (sampleBatch 1))), .nextBatch "b" (.ok (some (sampleBatch 3))), .write "b" none,
    .write "a" none, .note "a", .nextBatch "a" (.ok (some (sampleBatch 2))), .write "a" none, .note "b", .note "a",
    .nextBatch "b" (.ok none), .nextBatch "a" (.ok none), .join "b", .join "a", .finish none]

def sampleGenerate :
    Machine (GenerateState (Files SampleFile) Nat Nat) (GenerateAction (FileFault SampleFile) Nat Nat) :=
  generate (FileStorage.storage sampleParquet .inr) sampleConfig sampleTables

theorem archive_is_complete_sample :
    ∃ state metadata recorded, sampleGenerate.run (.start fun _ => none) sampleActions = some state ∧
      state.produced "a" = [sampleBatch 1, sampleBatch 2] ∧
      state.store versionMetadataPath = some (.inr metadata) ∧ metadata.tables.lookup "a" = some recorded ∧
      recorded.batchIds = [0, 1] ∧
      FileStorage.storedBatch sampleParquet state.store "a" 1 = some (sampleBatch 2) ∧
      (recorded.batchParts.lookup 1).getD [] = [] := by
  obtain ⟨state, ran⟩ : ∃ state, sampleGenerate.run (.start fun _ => none) sampleActions = some state :=
    Option.isSome_iff_exists.mp (by decide)
  have archived : state.ended = some (.ok ()) := by
    have ended : (sampleGenerate.run (.start fun _ => none) sampleActions).bind (·.ended) = some (.ok ()) := by
      decide
    rwa [ran, Option.bind_some] at ended
  have produced : state.produced "a" = [sampleBatch 1, sampleBatch 2] := by
    have batches : (sampleGenerate.run (.start fun _ => none) sampleActions).map (·.produced "a") =
        some [sampleBatch 1, sampleBatch 2] := by decide +kernel
    rw [ran] at batches
    exact Option.some.inj batches
  have noParts : (sampleGenerate.run (.start fun _ => none) sampleActions).map (·.reported "a" 1) = some (some []) := by
    decide
  rw [ran] at noParts
  have reached := sampleGenerate.reaches_of_run (fun _ _ => trivial) ran
  obtain ⟨metadata, described, listed⟩ := archive_is_complete sampleParquet_faithful reached archived
  obtain ⟨recorded, found, ids, kept⟩ := listed "a" (by simp [produced])
  rw [produced] at ids kept
  obtain ⟨same, parts, reported, sorted⟩ := kept 1 (by decide)
  obtain rfl : [] = parts := Option.some.inj ((Option.some.inj noParts).symm.trans reported)
  exact ⟨state, metadata, recorded, ran, produced, described, found, ids, same, sorted⟩

end Spicebench.DataGeneration
