import Spicebench.Construction.Dataset.S3Storage

namespace Spicebench.DataGeneration

open Library
open Checkpointer (ObjectPath ObjectStore)

variable {Key Data Bytes : Type}

section Split

variable (batch : RecordBatch Key Data) (limit : RowLimit)

theorem splitFrom_rows (offset : Nat) :
    (splitFrom batch limit offset).flatMap RecordBatch.rows = batch.rows.drop offset := by
  fun_induction splitFrom batch limit offset with
  | case1 offset more len ih =>
      rw [List.flatMap_cons, ih, RecordBatch.slice, ← List.drop_drop]
      exact List.take_append_drop len _
  | case2 offset last =>
      rw [List.drop_eq_nil_of_le (not_lt.mp last), List.flatMap_nil]

/-- The chunks hold the rows of the batch in order. -/
theorem splitRecordBatch_rows : (splitRecordBatch batch limit).flatMap RecordBatch.rows = batch.rows := by
  unfold splitRecordBatch
  split_ifs
  · simp
  · rw [splitFrom_rows, List.drop_zero]

theorem splitRecordBatch_ne_nil : splitRecordBatch batch limit ≠ [] := by
  unfold splitRecordBatch
  split_ifs with fits
  · exact List.cons_ne_nil _ _
  · rw [splitFrom, if_pos (by omega)]
    exact List.cons_ne_nil _ _

end Split

section Paths

/-- A batch id at the start of a file name ends before what follows it. -/
theorem batchName_injective {batchId other : Nat} {rest tail : List Char}
    (stops : ∀ next ∈ rest.head?, next.isDigit = false) (halts : ∀ next ∈ tail.head?, next.isDigit = false)
    (same : "batch-".toList ++ (padded 6 batchId ++ rest) = "batch-".toList ++ (padded 6 other ++ tail)) :
    batchId = other ∧ rest = tail := by
  have read : some (batchId, rest) = some (other, tail) := by
    rw [← readNat_padded 6 stops, List.append_cancel_left same, readNat_padded 6 halts]
  exact Prod.mk.inj (Option.some.inj read)

theorem batchFile_eq (batchId : Nat) :
    batchFile batchId = String.ofList ("batch-".toList ++ (padded 6 batchId ++ ".parquet".toList)) :=
  congrArg String.ofList (List.append_assoc _ _ _)

theorem batchPartFile_eq (batchId partIdx : Nat) :
    batchPartFile batchId partIdx =
      String.ofList ("batch-".toList ++ (padded 6 batchId ++
        ("-part-".toList ++ (padded 3 partIdx ++ ".parquet".toList)))) := by
  have regroup : ∀ one two three four five : List Char,
      one ++ two ++ three ++ four ++ five = one ++ (two ++ (three ++ (four ++ five))) := by
    intro one two three four five
    simp only [List.append_assoc]
  exact congrArg String.ofList (regroup _ _ _ _ _)

theorem parquet_stops : ∀ next ∈ ".parquet".toList.head?, next.isDigit = false := by
  intro next found
  obtain rfl : '.' = next := Option.some.inj found
  rfl

theorem part_stops (rest : List Char) : ∀ next ∈ ("-part-".toList ++ rest).head?, next.isDigit = false := by
  intro next found
  obtain rfl : '-' = next := Option.some.inj found
  rfl

/-- A file belongs to a batch id when it holds the batch or a part of it. -/
def FileOf (batchId : Nat) (file : String) : Prop :=
  file = batchFile batchId ∨ ∃ partIdx, file = batchPartFile batchId partIdx

theorem FileOf.rest {batchId : Nat} {file : String} (owned : FileOf batchId file) :
    ∃ rest, (∀ next ∈ rest.head?, next.isDigit = false) ∧
      file = String.ofList ("batch-".toList ++ (padded 6 batchId ++ rest)) := by
  rcases owned with rfl | ⟨partIdx, rfl⟩
  · exact ⟨_, parquet_stops, batchFile_eq batchId⟩
  · exact ⟨_, part_stops _, batchPartFile_eq batchId partIdx⟩

theorem FileOf.unique {batchId other : Nat} {file : String} (owned : FileOf batchId file)
    (also : FileOf other file) : batchId = other := by
  obtain ⟨rest, stops, same⟩ := owned.rest
  obtain ⟨tail, halts, equal⟩ := also.rest
  exact (batchName_injective stops halts (String.ofList_injective (same.symm.trans equal))).1

theorem batchPartFile_injective {batchId partIdx other : Nat}
    (same : batchPartFile batchId partIdx = batchPartFile batchId other) : partIdx = other := by
  rw [batchPartFile_eq, batchPartFile_eq] at same
  have rest := (batchName_injective (part_stops _) (part_stops _) (String.ofList_injective same)).2
  have digits := List.append_cancel_right (List.append_cancel_left rest)
  rw [← ofDigitChars_padded 3 partIdx, digits, ofDigitChars_padded]

/-- The object paths of a table's batch. -/
def ObjectOf (root : List String) (tableName : String) (batchId : Nat) (path : ObjectPath) : Prop :=
  ∃ file, path = root ++ ["tables", tableName, file] ∧ FileOf batchId file

theorem ObjectOf.unique {root : List String} {tableName other : String} {batchId index : Nat} {path : ObjectPath}
    (owned : ObjectOf root tableName batchId path) (also : ObjectOf root other index path) :
    tableName = other ∧ batchId = index := by
  obtain ⟨file, rfl, ofBatch⟩ := owned
  obtain ⟨name, same, ofOther⟩ := also
  have segments := List.append_cancel_left same
  simp only [List.cons.injEq, and_true, true_and] at segments
  obtain ⟨rfl, rfl⟩ := segments
  exact ⟨rfl, ofBatch.unique ofOther⟩

theorem objectOf_chunkPath (root : List String) (tableName : String) (batchId : Nat)
    (chunks : List (RecordBatch Key Data)) (partIdx : Nat) :
    ObjectOf root tableName batchId (S3Storage.chunkPath root tableName batchId chunks partIdx) := by
  unfold S3Storage.chunkPath
  split_ifs
  · exact ⟨_, rfl, .inl rfl⟩
  · exact ⟨_, rfl, .inr ⟨partIdx, rfl⟩⟩

theorem ObjectOf.ne_version {root : List String} {tableName : String} {batchId : Nat} {path : ObjectPath}
    (owned : ObjectOf root tableName batchId path) : path ≠ S3Storage.versionMetadataObjectPath root := by
  obtain ⟨file, rfl, -⟩ := owned
  intro same
  have segments := List.append_cancel_left same
  simp [versionMetadataPath] at segments

/-- Different chunks go to different paths. -/
theorem chunkPath_injective {root : List String} {tableName : String} {batchId : Nat}
    {chunks : List (RecordBatch Key Data)} {partIdx other : Nat} (inside : partIdx < chunks.length)
    (also : other < chunks.length)
    (same : S3Storage.chunkPath root tableName batchId chunks partIdx =
      S3Storage.chunkPath root tableName batchId chunks other) : partIdx = other := by
  unfold S3Storage.chunkPath at same
  split_ifs at same with single
  · omega
  · have segments := List.append_cancel_left same
    simp only [batchPartPath, List.cons.injEq, and_true, true_and] at segments
    exact batchPartFile_injective segments

end Paths

section Write

variable {parquet : Parquet Key Data Bytes} {faults : ObjectPath → Option String}

/-- The chunks are put one after another. -/
def putChunks (parquet : Parquet Key Data Bytes) (path : Nat → ObjectPath) (store : ObjectStore Bytes)
    (chunks : List (RecordBatch Key Data × Nat)) : ObjectStore Bytes :=
  chunks.foldl (fun store chunk => store.put (path chunk.2) (parquet.encode chunk.1)) store

theorem forEach_putChunk (accepting : ∀ path, faults path = none) (path : Nat → ObjectPath)
    (chunks : List (RecordBatch Key Data × Nat)) (store : ObjectStore Bytes) :
    Fallible.forEach (S3Storage.putChunk parquet faults path) chunks store =
      (.ok (), putChunks parquet path store chunks) := by
  induction chunks generalizing store with
  | nil => rfl
  | cons chunk rest ih =>
      have first : S3Storage.putChunk parquet faults path chunk store =
          (.ok (), store.put (path chunk.2) (parquet.encode chunk.1)) := by
        unfold S3Storage.putChunk
        rw [accepting]
        rfl
      show Fallible.bind (S3Storage.putChunk parquet faults path chunk) _ store = _
      rw [Fallible.bind, first]
      exact ih _

/-- A write that no put fails reports the parts and puts the chunks. -/
theorem write_eq (accepting : ∀ path, faults path = none) (setting : Option String) (root : List String)
    (tableName : String) (batchId : Nat) (batch : RecordBatch Key Data) (store : ObjectStore Bytes) :
    ∃ bytes, S3Storage.write parquet faults setting root tableName batchId batch store =
      (.ok ⟨batch.numRows, bytes, S3Storage.partIds (splitRecordBatch batch (maxRowsPerFile setting))⟩,
        putChunks parquet
          (S3Storage.chunkPath root tableName batchId (splitRecordBatch batch (maxRowsPerFile setting))) store
          (splitRecordBatch batch (maxRowsPerFile setting)).zipIdx) := by
  refine ⟨((splitRecordBatch batch (maxRowsPerFile setting)).map fun chunk =>
    parquet.size (parquet.encode chunk)).sum, ?_⟩
  show Fallible.bind _ _ store = _
  rw [Fallible.bind, forEach_putChunk accepting]
  rfl

theorem putChunks_failing (path : Nat → ObjectPath) (store : ObjectStore Bytes)
    (chunks : List (RecordBatch Key Data × Nat)) : (putChunks parquet path store chunks).failing = store.failing := by
  induction chunks generalizing store with
  | nil => rfl
  | cons chunk rest ih => exact ih _

/-- A path of no chunk keeps its object. -/
theorem putChunks_outside {path : Nat → ObjectPath} (store : ObjectStore Bytes)
    {chunks : List (RecordBatch Key Data × Nat)} {other : ObjectPath}
    (outside : ∀ chunk ∈ chunks, path chunk.2 ≠ other) :
    (putChunks parquet path store chunks).objects other = store.objects other := by
  induction chunks generalizing store with
  | nil => rfl
  | cons chunk rest ih =>
      have kept := ih (store.put (path chunk.2) (parquet.encode chunk.1)) fun later member =>
        outside later (List.mem_cons_of_mem _ member)
      refine kept.trans ?_
      exact if_neg (outside chunk List.mem_cons_self).symm

/-- Every chunk is at its path. -/
theorem putChunks_get {path : Nat → ObjectPath} (store : ObjectStore Bytes)
    {chunks : List (RecordBatch Key Data × Nat)}
    (distinct : chunks.Pairwise fun one other => path one.2 ≠ path other.2)
    {chunk : RecordBatch Key Data × Nat} (member : chunk ∈ chunks) :
    (putChunks parquet path store chunks).objects (path chunk.2) = some (parquet.encode chunk.1) := by
  induction chunks generalizing store with
  | nil => cases member
  | cons first rest ih =>
      obtain ⟨apart, later⟩ := List.pairwise_cons.mp distinct
      rcases List.mem_cons.mp member with rfl | member
      · refine (putChunks_outside _ fun other inside => (apart other inside).symm).trans ?_
        exact if_pos rfl
      · exact ih _ later member

theorem chunkPaths_distinct (root : List String) (tableName : String) (batchId : Nat)
    (chunks : List (RecordBatch Key Data)) :
    chunks.zipIdx.Pairwise fun one other => S3Storage.chunkPath root tableName batchId chunks one.2 ≠
      S3Storage.chunkPath root tableName batchId chunks other.2 := by
  rw [List.pairwise_iff_getElem]
  intro one other inside also before same
  simp only [List.length_zipIdx] at inside also
  simp only [List.getElem_zipIdx, Nat.zero_add] at same
  exact absurd (chunkPath_injective inside also same) (Nat.ne_of_lt before)

end Write

section Record

variable {parquet : Parquet Key Data Bytes} {faults : ObjectPath → Option String} {root : List String}

def S3Write.chunks (call : S3Write Key Data) : List (RecordBatch Key Data) :=
  splitRecordBatch call.batch (maxRowsPerFile call.setting)

def S3Write.path (call : S3Write Key Data) (root : List String) : Nat → ObjectPath :=
  S3Storage.chunkPath root call.tableName call.batchId call.chunks

/-- The chunks of a call are at their paths, its parts are noted, and no read fails. -/
structure S3Write.Recorded (parquet : Parquet Key Data Bytes) (root : List String) (call : S3Write Key Data)
    (state : ObjectStore Bytes × WrittenBatches) : Prop where
  reading : ∀ path, state.1.failing path = none
  stored : ∀ chunk ∈ call.chunks.zipIdx, state.1.objects (call.path root chunk.2) = some (parquet.encode chunk.1)
  noted : state.2.lookupAt call.tableName call.batchId = some (S3Storage.partIds call.chunks)

theorem record_eq (accepting : ∀ path, faults path = none) (call : S3Write Key Data)
    (state : ObjectStore Bytes × WrittenBatches) :
    call.record parquet faults root state =
      (putChunks parquet (call.path root) state.1 call.chunks.zipIdx,
        state.2.insertAt call.tableName call.batchId (S3Storage.partIds call.chunks)) := by
  obtain ⟨bytes, wrote⟩ := @write_eq Key Data Bytes parquet faults accepting call.setting root call.tableName
    call.batchId call.batch state.1
  rw [S3Write.record, wrote]
  rfl

theorem record_failing (accepting : ∀ path, faults path = none) {call : S3Write Key Data}
    {state : ObjectStore Bytes × WrittenBatches} (reading : ∀ path, state.1.failing path = none) (path : ObjectPath) :
    (call.record parquet faults root state).1.failing path = none := by
  rw [record_eq accepting, putChunks_failing]
  exact reading path

theorem S3Write.Recorded.own (accepting : ∀ path, faults path = none) {call : S3Write Key Data}
    {state : ObjectStore Bytes × WrittenBatches} (reading : ∀ path, state.1.failing path = none) :
    call.Recorded parquet root (call.record parquet faults root state) where
  reading := record_failing accepting reading
  stored := by
    intro chunk member
    rw [record_eq accepting]
    exact putChunks_get _ (chunkPaths_distinct root call.tableName call.batchId call.chunks) member
  noted := by
    rw [record_eq accepting]
    exact KeyedMap.lookupAt_insertAt _ _ _ _

/-- A write of another batch leaves what is recorded. -/
theorem S3Write.Recorded.other (accepting : ∀ path, faults path = none) {call later : S3Write Key Data}
    {state : ObjectStore Bytes × WrittenBatches} (recorded : call.Recorded parquet root state)
    (differ : later.tableName ≠ call.tableName ∨ later.batchId ≠ call.batchId) :
    call.Recorded parquet root (later.record parquet faults root state) where
  reading := record_failing accepting recorded.reading
  stored := by
    intro chunk member
    rw [record_eq accepting]
    refine (putChunks_outside _ ?_).trans (recorded.stored chunk member)
    intro other _ same
    have owned := objectOf_chunkPath root later.tableName later.batchId later.chunks other.2
    have also : ObjectOf root call.tableName call.batchId (call.path root chunk.2) :=
      objectOf_chunkPath root call.tableName call.batchId call.chunks chunk.2
    obtain ⟨sameTable, sameBatch⟩ := owned.unique (same ▸ also)
    exact differ.elim (· sameTable) (· sameBatch)
  noted := by
    rw [record_eq accepting]
    refine Eq.trans ?_ recorded.noted
    by_cases same : call.tableName = later.tableName
    · rw [same]
      apply KeyedMap.lookupAt_insertAt_inner
      intro equal
      exact differ.elim (· same.symm) (· equal.symm)
    · exact KeyedMap.lookupAt_insertAt_ne _ _ _ _ same _

theorem recorded_foldl (accepting : ∀ path, faults path = none) {call : S3Write Key Data}
    {later : List (S3Write Key Data)}
    (others : ∀ other ∈ later, other.tableName ≠ call.tableName ∨ other.batchId ≠ call.batchId)
    {state : ObjectStore Bytes × WrittenBatches} (recorded : call.Recorded parquet root state) :
    call.Recorded parquet root
      (later.foldl (fun state call => S3Write.record parquet faults root state call) state) := by
  induction later generalizing state with
  | nil => exact recorded
  | cons first rest ih =>
      rw [List.foldl_cons]
      apply ih fun other member => others other (List.mem_cons_of_mem _ member)
      exact recorded.other accepting (others first List.mem_cons_self)

theorem foldl_failing (accepting : ∀ path, faults path = none) (calls : List (S3Write Key Data))
    {state : ObjectStore Bytes × WrittenBatches} (reading : ∀ path, state.1.failing path = none) (path : ObjectPath) :
    (calls.foldl (fun state call => S3Write.record parquet faults root state call) state).1.failing path = none := by
  induction calls generalizing state with
  | nil => exact reading path
  | cons call rest ih => exact ih (record_failing accepting reading)

/-- Among writes of batches, the last one of a batch is recorded. -/
theorem recorded_run (accepting : ∀ path, faults path = none) {first later : List (S3Write Key Data)}
    {call : S3Write Key Data}
    (others : ∀ other ∈ later, other.tableName ≠ call.tableName ∨ other.batchId ≠ call.batchId)
    {state : ObjectStore Bytes × WrittenBatches} (reading : ∀ path, state.1.failing path = none) :
    call.Recorded parquet root
      ((first ++ call :: later).foldl (fun state call => S3Write.record parquet faults root state call) state) := by
  rw [List.foldl_append, List.foldl_cons]
  exact recorded_foldl accepting others (.own accepting (foldl_failing accepting first reading))

end Record

section Read

variable {parquet : Parquet Key Data Bytes} {json : MetadataJson Bytes} {store : ObjectStore Bytes} {root : List String}
  {tableName : String} {recorded : TableMetadata}

/-- Two records of a table agree up to the order of their entries. -/
structure TableMetadata.Same (one other : TableMetadata) : Prop where
  name : one.name = other.name
  schema : one.schema = other.schema
  timeColumn : one.timeColumn = other.timeColumn
  keyColumns : one.keyColumns = other.keyColumns
  batchIds : one.batchIds = other.batchIds
  batchParts : ∀ batchId, one.batchParts.lookup batchId = other.batchParts.lookup batchId

/-- JSON has no text for a number that is not finite. -/
structure VersionMetadata.Finite (metadata : VersionMetadata) : Prop where
  scaleFactor : metadata.scaleFactor.isFinite = true
  updateRatio : ∃ value, metadata.mutations.updateRatio = .finite value
  deleteRatio : ∃ value, metadata.mutations.deleteRatio = .finite value
  churnFraction : ∃ value, metadata.mutations.churnFraction = .finite value

/-- The metadata has a record of the table that agrees with the given one. -/
def VersionMetadata.Describes (metadata : VersionMetadata) (tableName : String) (recorded : TableMetadata) : Prop :=
  ∃ table, metadata.tables.lookup tableName = some table ∧ table.Same recorded

/-- The tables of a metadata that is written as JSON are read back. -/
def MetadataJson.Faithful (json : MetadataJson Bytes) : Prop :=
  ∀ metadata : VersionMetadata, metadata.Finite → ∃ read, json.decode (json.encode metadata) = .ok read ∧
    ∀ tableName recorded, metadata.tables.lookup tableName = some recorded → read.Describes tableName recorded

/-- The caches hold nothing of a table, or what is recorded of it; what they lack can be read from the store. -/
structure S3Storage.Ready (json : MetadataJson Bytes) (store : ObjectStore Bytes) (root : List String)
    (tableName : String) (recorded : TableMetadata) (storage : S3Storage) : Prop where
  rooted : storage.root = root
  keyColumns : ∀ {cached}, storage.keyColumnsCache.lookup tableName = some cached → cached = recorded.keyColumns
  metadata : ∃ metadata : VersionMetadata, metadata.Describes tableName recorded ∧
    (storage.versionMetadataCache = some (some metadata) ∨
      storage.versionMetadataCache = none ∧ ∃ content,
        store.get (S3Storage.versionMetadataObjectPath root) = .ok content ∧ json.decode content = .ok metadata)

/-- The metadata is found in the cache or in the store. -/
theorem cachedVersionMetadata_ready {storage : S3Storage} (ready : storage.Ready json store root tableName recorded) :
    ∃ metadata next, S3Storage.cachedVersionMetadata json store storage = (.ok (some metadata), next) ∧
      metadata.Describes tableName recorded ∧ next.Ready json store root tableName recorded ∧
      next.keyColumnsCache = storage.keyColumnsCache := by
  obtain ⟨metadata, describes, cached | ⟨empty, content, got, decoded⟩⟩ := ready.metadata
  · refine ⟨metadata, storage, ?_, describes, ready, rfl⟩
    rw [S3Storage.cachedVersionMetadata, cached]
  · refine ⟨metadata, { storage with versionMetadataCache := some (some metadata) }, ?_, describes, ?_, rfl⟩
    · rw [S3Storage.cachedVersionMetadata, empty, ready.rooted]
      simp only [got, decoded]
    · exact ⟨ready.rooted, ready.keyColumns, metadata, describes, .inl rfl⟩

theorem readKeyColumns_ready {storage : S3Storage} (ready : storage.Ready json store root tableName recorded) :
    ∃ next, S3Storage.readKeyColumns json store tableName storage = (.ok recorded.keyColumns, next) ∧
      next.Ready json store root tableName recorded ∧ next.keyColumnsCache = storage.keyColumnsCache := by
  obtain ⟨metadata, next, read, ⟨table, found, same⟩, still, kept⟩ := cachedVersionMetadata_ready ready
  refine ⟨next, ?_, still, kept⟩
  show Fallible.bind _ _ storage = _
  rw [Fallible.bind, read]
  show (Except.ok _, next) = _
  rw [Option.bind_some, found, Option.map_some, Option.getD_some, same.keyColumns]

theorem cachedKeyColumns_ready {storage : S3Storage} (ready : storage.Ready json store root tableName recorded) :
    ∃ next, S3Storage.cachedKeyColumns json store tableName storage = (.ok recorded.keyColumns, next) ∧
      next.Ready json store root tableName recorded := by
  unfold S3Storage.cachedKeyColumns
  show ∃ next, Fallible.bind Fallible.get _ storage = _ ∧ _
  rw [Fallible.bind, Fallible.get]
  dsimp only
  cases cached : storage.keyColumnsCache.lookup tableName with
  | some keyColumns =>
      refine ⟨storage, ?_, ready⟩
      rw [← ready.keyColumns cached]
      rfl
  | none =>
      obtain ⟨next, read, still, kept⟩ := readKeyColumns_ready ready
      refine ⟨{ next with keyColumnsCache := next.keyColumnsCache.insert tableName recorded.keyColumns }, ?_, ?_⟩
      · show Fallible.bind _ _ storage = _
        rw [Fallible.bind, read]
        show Fallible.bind Fallible.get _ next = _
        rw [Fallible.bind, Fallible.get]
        dsimp only
        rw [show next.keyColumnsCache.lookup tableName = none from kept ▸ cached]
        rfl
      · refine ⟨still.rooted, ?_, still.metadata⟩
        intro found inserted
        rw [AList.lookup_insert] at inserted
        exact (Option.some.inj inserted).symm

theorem readBatchParts_ready {storage : S3Storage} (ready : storage.Ready json store root tableName recorded)
    (batchId : Nat) :
    ∃ next, S3Storage.readBatchParts json store tableName batchId storage =
        (.ok (((recorded.batchParts.lookup batchId).getD []).insertionSort (· ≤ ·)), next) ∧
      next.Ready json store root tableName recorded := by
  obtain ⟨metadata, next, read, ⟨table, found, same⟩, still, -⟩ := cachedVersionMetadata_ready ready
  refine ⟨next, ?_, still⟩
  show Fallible.bind _ _ storage = _
  rw [Fallible.bind, read]
  show (Except.ok _, next) = _
  rw [Option.bind_some, found, Option.bind_some, same.batchParts]

/-- The object of a batch or of a part is read with the recorded key columns. -/
theorem readBatch_ready {storage : S3Storage} (ready : storage.Ready json store root tableName recorded) {batchId : Nat}
    {partId : Option Nat} {content : Bytes} {file : ParquetFile Key Data}
    (got : store.get (match partId with
      | some partId => S3Storage.batchPartObjectPath root tableName batchId partId
      | none => S3Storage.batchObjectPath root tableName batchId) = .ok content)
    (decoded : parquet.decode content = .ok file) :
    ∃ next, S3Storage.readBatch parquet json store tableName batchId partId storage =
        (.ok (some ⟨file.batches, (file.batches.map RecordBatch.numRows).sum, parquet.size content,
          recorded.keyColumns⟩), next) ∧
      next.Ready json store root tableName recorded := by
  obtain ⟨next, keys, still⟩ := cachedKeyColumns_ready ready
  refine ⟨next, ?_, still⟩
  unfold S3Storage.readBatch
  rw [ready.rooted]
  cases partId with
  | none => simp only [got, decoded, keys]
  | some partId => simp only [got, decoded, keys]

end Read

end Spicebench.DataGeneration
