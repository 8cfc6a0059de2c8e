import Spicebench.Construction.Checkpointer
import Mathlib.Data.List.Nodup

namespace Spicebench.Checkpointer
open Library CheckpointStore

variable {Bytes : Type}

section Names

variable {name : String} {stem : List Char} {number other : Nat}

theorem toList_toString (number : Nat) : (toString number).toList = Nat.toDigits 10 number := by
  rw [Nat.toString_eq_repr, Nat.toList_repr]

theorem toString_injective {number other : Nat} (same : toString number = toString other) : number = other := by
  have digits := congrArg (fun text : String => Nat.ofDigitChars 10 text.toList 0) same
  simpa [toList_toString, Nat.ofDigitChars_ten_toDigits] using digits

theorem queryName_injective (same : toString number ++ ".parquet" = toString other ++ ".parquet") : number = other := by
  apply toString_injective
  exact (String.append_left_inj _).mp same

theorem zeroName : toString 0 ++ ".parquet" = "0.parquet" := by decide

theorem zero_lt_usizeMax : 0 < usizeMax := by decide

/-- The name of a query file starts with a digit. -/
theorem queryName_ne_rowCounts (number : Nat) : toString number ++ ".parquet" ≠ "row_counts.json" := by
  intro same
  have listed := congrArg String.toList same
  obtain ⟨digit, digits, starts, isDigit⟩ := exists_decimal_cons number
  rw [String.toList_append, toList_toString, starts] at listed
  have first : digit = 'r' := (List.cons.inj listed).1
  rw [first] at isDigit
  cases isDigit

/-- The number that a canonical name was written from is read back. -/
theorem parseUsize_decimal (bounded : number ≤ usizeMax) : parseUsize (Nat.toDigits 10 number) = some number :=
  parseUnsigned_decimal (Nat.lt_succ_of_le bounded)

/-- A name with a stem before the extension is split there. -/
theorem parquetStem_append (some : stem ≠ []) : parquetStem (String.ofList stem ++ ".parquet") = .some stem := by
  have reversed : (String.ofList stem ++ ".parquet").toList.reverse = "teuqrap".toList ++ '.' :: stem.reverse := by
    simp
  have dropped : ("teuqrap".toList ++ '.' :: stem.reverse).dropWhile (· ≠ '.') = '.' :: stem.reverse := by
    simp
  have taken : ("teuqrap".toList ++ '.' :: stem.reverse).takeWhile (· ≠ '.') = "teuqrap".toList := by
    simp
  unfold parquetStem splitExtension
  rw [reversed, dropped, taken]
  match listed : stem.reverse with
  | [] => exact absurd (List.reverse_eq_nil_iff.mp listed) some
  | last :: others =>
      have turned : stem = (last :: others).reverse := List.reverse_eq_iff.mp listed
      simp [turned]

/-- A Parquet file is named by its stem. -/
theorem eq_of_parquetStem (found : parquetStem name = some stem) : name = String.ofList stem ++ ".parquet" := by
  unfold parquetStem splitExtension at found
  have whole := @List.takeWhile_append_dropWhile _ (· ≠ '.') name.toList.reverse
  split at found
  · rename_i before extension split
    split_ifs at found with isParquet
    obtain rfl := Option.some.inj found
    split at split
    · cases split
    · cases split
    · rename_i dot reversed _ dropped
      obtain ⟨rfl, rfl⟩ := Prod.mk.inj (Option.some.inj split)
      have isDot : dot = '.' := by
        have head := List.head?_dropWhile_not (fun char : Char => decide (char ≠ '.')) name.toList.reverse
        rw [dropped] at head
        simpa using head
      rw [dropped, isDot] at whole
      have listed : name.toList = reversed.reverse ++ '.' :: (name.toList.reverse.takeWhile (· ≠ '.')).reverse := by
        have turned := congrArg List.reverse whole
        simpa only [List.reverse_append, List.reverse_cons, List.reverse_reverse, List.append_assoc,
          List.singleton_append] using turned.symm
      rw [isParquet] at listed
      rw [← String.toList_inj, listed]
      simp
  · cases found

end Names

section Store

variable {store : ObjectStore Bytes} {paths : CheckpointStore} {path : ObjectPath}

/-- The objects are put into the store, one after the other. -/
def putAll (store : ObjectStore Bytes) (puts : List (ObjectPath × Bytes)) : ObjectStore Bytes :=
  puts.foldl (fun store entry => store.put entry.1 entry.2) store

/-- The last object that is put under a path stays there. -/
theorem objects_putAll (puts : List (ObjectPath × Bytes)) :
    (putAll store puts).objects path =
      (((puts.filter fun entry => entry.1 = path).getLast?.map Prod.snd).or (store.objects path)) := by
  induction puts generalizing store with
  | nil => simp [putAll]
  | cons entry puts stored =>
      change (putAll (store.put entry.1 entry.2) puts).objects path = _
      rw [stored, List.filter_cons]
      by_cases here : entry.1 = path
      · simp only [here, decide_true, if_true, List.getLast?_cons, ObjectStore.put]
        cases (puts.filter fun entry => entry.1 = path).getLast? <;> rfl
      · have elsewhere : path ≠ entry.1 := fun same => here same.symm
        simp [here, ObjectStore.put, elsewhere]

theorem failing_putAll (puts : List (ObjectPath × Bytes)) : (putAll store puts).failing = store.failing := by
  induction puts generalizing store with
  | nil => rfl
  | cons entry puts same => exact same

/-- A directory is uploaded by these puts. -/
def putsOf (paths : CheckpointStore) (entry : String × List (String × Bytes)) : List (ObjectPath × Bytes) :=
  ((queryFiles entry.2).map fun file =>
    (paths.checkpointParquetPath (indexOrZero entry.1.toList) (indexOrZero file.1), file.2)) ++
  ((entry.2.lookup "row_counts.json").map
    (Prod.mk (paths.checkpointRowCountsPath (indexOrZero entry.1.toList)))).toList

theorem uploadFile_foldl (checkpointIdx : Nat) (files : List (List Char × Bytes)) (upload : Upload Bytes) :
    (files.foldl (paths.uploadFile checkpointIdx) upload).store = putAll upload.store (files.map fun file =>
      (paths.checkpointParquetPath checkpointIdx (indexOrZero file.1), file.2)) ∧
    (files.foldl (paths.uploadFile checkpointIdx) upload).checkpointIndexes = upload.checkpointIndexes ∧
    (files.foldl (paths.uploadFile checkpointIdx) upload).queryIndexes =
      files.foldl (fun indexes file => insertIndex indexes (indexOrZero file.1)) upload.queryIndexes := by
  induction files generalizing upload with
  | nil => exact ⟨rfl, rfl, rfl⟩
  | cons file files uploaded => exact uploaded (paths.uploadFile checkpointIdx upload file)

theorem putAll_append (puts others : List (ObjectPath × Bytes)) :
    putAll store (puts ++ others) = putAll (putAll store puts) others := List.foldl_append

theorem uploadDirectory_eq (paths : CheckpointStore) (upload : Upload Bytes)
    (entry : String × List (String × Bytes)) :
    (paths.uploadDirectory upload entry).store = putAll upload.store (putsOf paths entry) ∧
    (paths.uploadDirectory upload entry).checkpointIndexes =
      upload.checkpointIndexes ++ [indexOrZero entry.1.toList] ∧
    (paths.uploadDirectory upload entry).queryIndexes =
      (queryFiles entry.2).foldl (fun indexes file => insertIndex indexes (indexOrZero file.1)) upload.queryIndexes := by
  obtain ⟨store, checkpoints, queries⟩ :=
    @uploadFile_foldl _ paths (indexOrZero entry.1.toList) (queryFiles entry.2) upload
  unfold uploadDirectory uploadRowCounts putsOf
  rw [putAll_append, ← store]
  cases entry.2.lookup "row_counts.json" with
  | none => exact ⟨rfl, by rw [← checkpoints], queries⟩
  | some content => exact ⟨rfl, by rw [← checkpoints], queries⟩

/-- The upload puts the files of all directories, and lists the index of each directory. -/
theorem uploadDirectory_foldl (paths : CheckpointStore) (dirs : List (String × List (String × Bytes)))
    (upload : Upload Bytes) :
    (dirs.foldl paths.uploadDirectory upload).store = putAll upload.store (dirs.flatMap (putsOf paths)) ∧
    (dirs.foldl paths.uploadDirectory upload).checkpointIndexes =
      upload.checkpointIndexes ++ dirs.map (fun entry => indexOrZero entry.1.toList) ∧
    (dirs.foldl paths.uploadDirectory upload).queryIndexes = dirs.foldl (fun indexes entry =>
      (queryFiles entry.2).foldl (fun indexes file => insertIndex indexes (indexOrZero file.1)) indexes)
      upload.queryIndexes := by
  induction dirs generalizing upload with
  | nil => exact ⟨rfl, by simp, rfl⟩
  | cons entry dirs uploaded =>
      obtain ⟨store, checkpoints, queries⟩ := uploaded (paths.uploadDirectory upload entry)
      obtain ⟨first, index, files⟩ := uploadDirectory_eq paths upload entry
      rw [first] at store
      rw [index] at checkpoints
      rw [files] at queries
      refine ⟨?_, ?_, queries⟩
      · rw [List.flatMap_cons, putAll_append]
        exact store
      · rw [List.append_assoc] at checkpoints
        exact checkpoints

theorem parquetPath_inj {checkpoint query otherCheckpoint otherQuery : Nat} :
    paths.checkpointParquetPath checkpoint query = paths.checkpointParquetPath otherCheckpoint otherQuery ↔
      checkpoint = otherCheckpoint ∧ query = otherQuery := by
  constructor
  · intro same
    have segments := List.append_cancel_left same
    simp only [List.cons.injEq, and_true, true_and] at segments
    exact ⟨toString_injective segments.1, queryName_injective segments.2⟩
  · rintro ⟨rfl, rfl⟩
    rfl

theorem rowCountsPath_inj {checkpoint other : Nat} :
    paths.checkpointRowCountsPath checkpoint = paths.checkpointRowCountsPath other ↔ checkpoint = other := by
  constructor
  · intro same
    have segments := List.append_cancel_left same
    simp only [List.cons.injEq, and_true, true_and] at segments
    exact toString_injective segments
  · rintro rfl
    rfl

theorem parquetPath_ne_rowCounts {checkpoint query other : Nat} :
    paths.checkpointParquetPath checkpoint query ≠ paths.checkpointRowCountsPath other := by
  intro same
  have segments := List.append_cancel_left same
  simp only [List.cons.injEq, and_true, true_and] at segments
  exact queryName_ne_rowCounts query segments.2

/-- The manifest lies beside the directory of the checkpoints. -/
theorem manifestPath_ne {suffix : List String} (long : suffix.length ≠ 1) :
    paths.root ++ suffix ≠ paths.manifestPath := by
  intro same
  have segments := List.append_cancel_left same
  rw [segments] at long
  exact long rfl

/-- The content that the upload of a directory leaves for a query. -/
def uploadedContent (files : List (String × Bytes)) (query : Nat) : Option Bytes :=
  ((queryFiles files).filter fun file => indexOrZero file.1 = query).getLast?.map Prod.snd

/-- The puts of a directory under the path of a query. -/
theorem filter_putsOf_parquet (entry : String × List (String × Bytes)) (checkpoint query : Nat) :
    (putsOf paths entry).filter (fun put => put.1 = paths.checkpointParquetPath checkpoint query) =
      if indexOrZero entry.1.toList = checkpoint then
        ((queryFiles entry.2).filter fun file => indexOrZero file.1 = query).map fun file =>
          (paths.checkpointParquetPath checkpoint (indexOrZero file.1), file.2)
      else [] := by
  unfold putsOf
  rw [List.filter_append, List.filter_map]
  have counts : ((entry.2.lookup "row_counts.json").map
      (Prod.mk (paths.checkpointRowCountsPath (indexOrZero entry.1.toList)))).toList.filter
        (fun put => put.1 = paths.checkpointParquetPath checkpoint query) = [] := by
    rw [List.filter_eq_nil_iff]
    intro put member
    simp only [Option.mem_toList, Option.map_eq_some_iff] at member
    obtain ⟨content, _, rfl⟩ := member
    simpa using Ne.symm parquetPath_ne_rowCounts
  rw [counts, List.append_nil]
  split_ifs with here
  · simp [Function.comp_def, parquetPath_inj, here]
  · simp [Function.comp_def, parquetPath_inj, here]

/-- The puts of a directory under the path of its row counts. -/
theorem filter_putsOf_rowCounts (entry : String × List (String × Bytes)) (checkpoint : Nat) :
    (putsOf paths entry).filter (fun put => put.1 = paths.checkpointRowCountsPath checkpoint) =
      if indexOrZero entry.1.toList = checkpoint then
        ((entry.2.lookup "row_counts.json").map (Prod.mk (paths.checkpointRowCountsPath checkpoint))).toList
      else [] := by
  unfold putsOf
  rw [List.filter_append, List.filter_map]
  have queries : (queryFiles entry.2).filter ((fun put : ObjectPath × Bytes =>
      decide (put.1 = paths.checkpointRowCountsPath checkpoint)) ∘ fun file =>
        (paths.checkpointParquetPath (indexOrZero entry.1.toList) (indexOrZero file.1), file.2)) = [] := by
    rw [List.filter_eq_nil_iff]
    intro file _
    simpa using parquetPath_ne_rowCounts
  rw [queries, List.map_nil, List.nil_append]
  cases entry.2.lookup "row_counts.json" with
  | none => simp
  | some content =>
      by_cases here : indexOrZero entry.1.toList = checkpoint
      · simp [here]
      · simp [here, rowCountsPath_inj]

/-- Only one directory has puts under the paths of a checkpoint. -/
theorem filter_flatMap_putsOf {dirs : List (String × List (String × Bytes))}
    (distinct : (dirs.map fun entry => indexOrZero entry.1.toList).Nodup)
    {entry : String × List (String × Bytes)} (member : entry ∈ dirs)
    (elsewhere : ∀ other : String × List (String × Bytes),
      indexOrZero other.1.toList ≠ indexOrZero entry.1.toList →
      (putsOf paths other).filter (fun put => put.1 = path) = []) :
    (dirs.flatMap (putsOf paths)).filter (fun put => put.1 = path) =
      (putsOf paths entry).filter fun put => put.1 = path := by
  induction dirs with
  | nil => cases member
  | cons first dirs found =>
      rw [List.map_cons, List.nodup_cons] at distinct
      rw [List.flatMap_cons, List.filter_append]
      rcases List.mem_cons.mp member with rfl | later
      · have rest : (dirs.flatMap (putsOf paths)).filter (fun put => put.1 = path) = [] := by
          rw [List.filter_eq_nil_iff]
          intro put listed
          obtain ⟨other, inside, own⟩ := List.mem_flatMap.mp listed
          have differs : indexOrZero other.1.toList ≠ indexOrZero entry.1.toList := by
            intro same
            exact distinct.1 (List.mem_map.mpr ⟨other, inside, same⟩)
          have none := List.filter_eq_nil_iff.mp (elsewhere other differs) put own
          exact none
        rw [rest, List.append_nil]
      · have differs : indexOrZero first.1.toList ≠ indexOrZero entry.1.toList := by
          intro same
          exact distinct.1 (List.mem_map.mpr ⟨entry, later, same.symm⟩)
        rw [elsewhere first differs, List.nil_append, found distinct.2 later]

/-- The upload leaves the last file of a directory that counts as the query. -/
theorem uploaded_parquet {dirs : List (String × List (String × Bytes))}
    (distinct : (dirs.map fun entry => indexOrZero entry.1.toList).Nodup)
    {entry : String × List (String × Bytes)} (member : entry ∈ dirs) {query : Nat}
    (fresh : store.objects (paths.checkpointParquetPath (indexOrZero entry.1.toList) query) = none) :
    (putAll store (dirs.flatMap (putsOf paths))).objects
      (paths.checkpointParquetPath (indexOrZero entry.1.toList) query) = uploadedContent entry.2 query := by
  rw [objects_putAll, filter_flatMap_putsOf distinct member, filter_putsOf_parquet, if_pos rfl, fresh]
  · simp [uploadedContent, Function.comp_def]
  · intro other differs
    rw [filter_putsOf_parquet, if_neg differs]

/-- The upload leaves the row counts of each directory. -/
theorem uploaded_rowCounts {dirs : List (String × List (String × Bytes))}
    (distinct : (dirs.map fun entry => indexOrZero entry.1.toList).Nodup)
    {entry : String × List (String × Bytes)} (member : entry ∈ dirs)
    (fresh : store.objects (paths.checkpointRowCountsPath (indexOrZero entry.1.toList)) = none) :
    (putAll store (dirs.flatMap (putsOf paths))).objects
      (paths.checkpointRowCountsPath (indexOrZero entry.1.toList)) = entry.2.lookup "row_counts.json" := by
  rw [objects_putAll, filter_flatMap_putsOf distinct member, filter_putsOf_rowCounts, if_pos rfl, fresh]
  · cases entry.2.lookup "row_counts.json" <;> rfl
  · intro other differs
    rw [filter_putsOf_rowCounts, if_neg differs]

end Store

section Indexes

theorem mem_keys_insertIndex {indexes : OrderedMap Nat Unit} {index other : Nat} :
    other ∈ (insertIndex indexes index).keys ↔ other = index ∨ other ∈ indexes.keys := by
  rw [← OrderedMap.get?_isSome_iff, ← OrderedMap.get?_isSome_iff, insertIndex]
  by_cases same : other = index
  · simp [same]
  · simp [OrderedMap.get?_alter_ne _ same, same]

/-- The indexes of the files that count are inserted. -/
theorem mem_keys_insertAll {Item : Type} (counts : Item → Bool) (indexOf : Item → Nat) (items : List Item)
    (indexes : OrderedMap Nat Unit) {index : Nat} :
    index ∈ (items.foldl (fun indexes item =>
      if counts item then insertIndex indexes (indexOf item) else indexes) indexes).keys ↔
      index ∈ indexes.keys ∨ ∃ item ∈ items, counts item = true ∧ indexOf item = index := by
  induction items generalizing indexes with
  | nil => simp
  | cons item items inserted =>
      rw [List.foldl_cons, inserted]
      by_cases counted : counts item = true
      · simp only [counted, if_true, mem_keys_insertIndex, List.mem_cons, exists_eq_or_imp, true_and]
        tauto
      · simp [counted]

/-- The indexes of all files of all directories are inserted. -/
theorem mem_keys_insertDirs (counts : List Char × Bytes → Bool) (indexOf : List Char × Bytes → Nat)
    (dirs : List (String × List (String × Bytes))) (indexes : OrderedMap Nat Unit) {index : Nat} :
    index ∈ (dirs.foldl (fun indexes entry => (queryFiles entry.2).foldl (fun indexes file =>
      if counts file then insertIndex indexes (indexOf file) else indexes) indexes) indexes).keys ↔
      index ∈ indexes.keys ∨ ∃ entry ∈ dirs, ∃ file ∈ queryFiles entry.2,
        counts file = true ∧ indexOf file = index := by
  induction dirs generalizing indexes with
  | nil => simp
  | cons entry dirs inserted =>
      rw [List.foldl_cons, inserted, mem_keys_insertAll]
      simp only [List.mem_cons, exists_eq_or_imp, or_assoc]

end Indexes

section Trees

variable {dir : LocalDir Bytes} {files : List (String × Bytes)} {name : String} {content : Bytes}

/-- With distinct names, a lookup finds the entries. -/
theorem lookup_iff_mem {Content : Type} {content : Content} {entries : List (String × Content)}
    (distinct : (entries.map Prod.fst).Nodup) :
    entries.lookup name = some content ↔ (name, content) ∈ entries := by
  induction entries with
  | nil => simp
  | cons entry entries found =>
      obtain ⟨key, value⟩ := entry
      rw [List.map_cons, List.nodup_cons] at distinct
      rw [List.lookup_cons, List.mem_cons, Prod.mk.injEq]
      by_cases same : name = key
      · subst same
        have absent : (name, content) ∉ entries := fun member => distinct.1 (List.mem_map.mpr ⟨_, member, rfl⟩)
        simp [absent, eq_comm]
      · have differs : (name == key) = false := beq_eq_false_iff_ne.mpr same
        simp only [differs, found distinct.2, same, false_and, false_or]

theorem mem_sortByName {Content : Type} {entries : List (String × Content)} {entry : String × Content} :
    entry ∈ sortByName entries ↔ entry ∈ entries := (List.perm_insertionSort _ _).mem_iff

theorem checkpointDirs_nodup (distinct : (dir.map Prod.fst).Nodup) :
    ((checkpointDirs dir).map Prod.fst).Nodup := by
  have sorted := (List.perm_insertionSort (fun one other : String × List (String × Bytes) => one.1 ≤ other.1)
    (dir.filterMap fun entry => entry.2.files?.map (Prod.mk entry.1))).map Prod.fst
  rw [checkpointDirs, sortByName, sorted.nodup_iff, List.nodup_iff_pairwise_ne, List.pairwise_map,
    List.pairwise_filterMap]
  rw [List.nodup_iff_pairwise_ne, List.pairwise_map] at distinct
  refine distinct.imp ?_
  intro one other differs first isFirst second isSecond
  obtain ⟨_, _, rfl⟩ := Option.map_eq_some_iff.mp isFirst
  obtain ⟨_, _, rfl⟩ := Option.map_eq_some_iff.mp isSecond
  exact differs

theorem mem_queryFiles {stem : List Char} :
    (stem, content) ∈ queryFiles files ↔ ∃ name, (name, content) ∈ files ∧ parquetStem name = some stem := by
  rw [queryFiles, List.mem_filterMap]
  constructor
  · rintro ⟨⟨name, other⟩, member, found⟩
    obtain ⟨other', isStem, same⟩ := Option.map_eq_some_iff.mp found
    obtain ⟨rfl, rfl⟩ := Prod.mk.inj same
    exact ⟨name, mem_sortByName.mp member, isStem⟩
  · rintro ⟨name, member, isStem⟩
    exact ⟨(name, content), mem_sortByName.mpr member, by simp [isStem]⟩

/-- A directory has the results of a query. -/
def HasQuery (files : List (String × Bytes)) (query : Nat) : Prop :=
  ∃ content, (toString query ++ ".parquet", content) ∈ files

/-- The Parquet files of a directory are named by numbers, or their names are no numbers. -/
structure CanonicalFiles (files : List (String × Bytes)) : Prop where
  distinct : (files.map Prod.fst).Nodup
  canonical : ∀ file ∈ queryFiles files,
    (∃ query ≤ usizeMax, file.1 = Nat.toDigits 10 query) ∨ parseUsize file.1 = none

/-- The directories of a tree are named by numbers and all have the same queries, or their names are
no numbers. -/
structure CanonicalTree (dir : LocalDir Bytes) : Prop where
  distinct : (dir.map Prod.fst).Nodup
  named : ∀ entry ∈ checkpointDirs dir,
    (∃ checkpoint ≤ usizeMax, entry.1 = toString checkpoint) ∨ parseUsize entry.1.toList = none
  filed : ∀ entry ∈ checkpointDirs dir, (parseUsize entry.1.toList).isSome → CanonicalFiles entry.2
  same : ∀ entry ∈ checkpointDirs dir, ∀ other ∈ checkpointDirs dir, (parseUsize entry.1.toList).isSome →
    (parseUsize other.1.toList).isSome → ∀ query ≤ usizeMax, HasQuery entry.2 query → HasQuery other.2 query

theorem mem_queryFiles_query {query : Nat} :
    (Nat.toDigits 10 query, content) ∈ queryFiles files ↔ (toString query ++ ".parquet", content) ∈ files := by
  have text : String.ofList (Nat.toDigits 10 query) = toString query := by
    rw [← String.toList_inj, toList_toString, String.toList_ofList]
  have isStem := parquetStem_append (@Nat.toDigits_ne_nil query 10)
  rw [text] at isStem
  rw [mem_queryFiles]
  constructor
  · rintro ⟨name, member, found⟩
    rw [eq_of_parquetStem found, text] at member
    exact member
  · intro member
    exact ⟨_, member, isStem⟩

/-- A file that counts as a query has its number, if it has one. -/
theorem CanonicalFiles.eq_decimal (canonical : CanonicalFiles files) {file : List Char × Bytes}
    (member : file ∈ queryFiles files) {query : Nat} (parsed : parseUsize file.1 = some query) :
    file.1 = Nat.toDigits 10 query ∧ query ≤ usizeMax := by
  rcases canonical.canonical file member with ⟨number, bounded, isDecimal⟩ | unparsed
  · rw [isDecimal, parseUsize_decimal bounded] at parsed
    obtain rfl := Option.some.inj parsed
    exact ⟨isDecimal, bounded⟩
  · simp [unparsed] at parsed

theorem indexOrZero_eq_iff {text : List Char} {index : Nat} :
    indexOrZero text = index ↔ parseUsize text = some index ∨ index = 0 ∧ parseUsize text = none := by
  unfold indexOrZero
  cases parseUsize text with
  | none => simp [eq_comm]
  | some number => simp

/-- For all queries but zero, the upload leaves the file of that number. -/
theorem CanonicalFiles.uploadedContent_eq (canonical : CanonicalFiles files) {query : Nat} (positive : query ≠ 0)
    (bounded : query ≤ usizeMax) :
    uploadedContent files query = files.lookup (toString query ++ ".parquet") := by
  have numbered : ∀ file ∈ (queryFiles files).filter (fun file => indexOrZero file.1 = query),
      (toString query ++ ".parquet", file.2) ∈ files := by
    intro file member
    obtain ⟨listed, index⟩ := List.mem_filter.mp member
    have parsed : parseUsize file.1 = some query := by
      rcases indexOrZero_eq_iff.mp (of_decide_eq_true index) with parsed | ⟨zero, _⟩
      · exact parsed
      · exact absurd zero positive
    obtain ⟨isDecimal, _⟩ := canonical.eq_decimal listed parsed
    rw [← mem_queryFiles_query, ← isDecimal]
    exact listed
  have kept : ∀ content, (toString query ++ ".parquet", content) ∈ files →
      (Nat.toDigits 10 query, content) ∈ (queryFiles files).filter fun file => indexOrZero file.1 = query := by
    intro content member
    rw [List.mem_filter]
    exact ⟨mem_queryFiles_query.mpr member, by simp [indexOrZero, parseUsize_decimal bounded]⟩
  unfold uploadedContent
  cases found : files.lookup (toString query ++ ".parquet") with
  | none =>
      have nothing : (queryFiles files).filter (fun file => indexOrZero file.1 = query) = [] := by
        rw [List.eq_nil_iff_forall_not_mem]
        intro file member
        have stored := (lookup_iff_mem canonical.distinct).mpr (numbered file member)
        rw [found] at stored
        cases stored
      simp [nothing]
  | some content =>
      have member := kept content ((lookup_iff_mem canonical.distinct).mp found)
      have some := List.ne_nil_of_mem member
      have last := numbered _ (List.getLast_mem some)
      have stored := (lookup_iff_mem canonical.distinct).mpr last
      rw [List.getLast?_eq_some_getLast some, Option.map_some, ← stored, found]

end Trees

section Download

variable {store : ObjectStore Bytes} {paths : CheckpointStore}

theorem get_of_objects (reliable : ∀ path, store.failing path = none) {path : ObjectPath} :
    store.get path = match store.objects path with
      | none => .error .notFound
      | some content => .ok content := by
  unfold ObjectStore.get
  rw [reliable]
  split <;> simp_all

/-- The files of stored queries are downloaded, and no others are written. -/
theorem downloadFile_foldlM (reliable : ∀ path, store.failing path = none) (checkpoint : Nat) (queries : List Nat)
    (stored : ∀ query ∈ queries, (store.objects (paths.checkpointParquetPath checkpoint query)).isSome)
    (files : LocalFiles Bytes) :
    ∃ result, queries.foldlM (paths.downloadFile store checkpoint) files = .ok result ∧
      (∀ query ∈ queries, result (toString checkpoint) (toString query ++ ".parquet") =
        store.objects (paths.checkpointParquetPath checkpoint query)) ∧
      ∀ dir name, (¬ ∃ query ∈ queries, dir = toString checkpoint ∧ name = toString query ++ ".parquet") →
        result dir name = files dir name := by
  induction queries generalizing files with
  | nil => exact ⟨files, rfl, by simp, by simp⟩
  | cons query queries downloaded =>
      obtain ⟨content, found⟩ := Option.isSome_iff_exists.mp (stored query List.mem_cons_self)
      have first : paths.downloadFile store checkpoint files query =
          .ok (writeFile files (toString checkpoint) (toString query ++ ".parquet") content) := by
        simp [downloadFile, get_of_objects reliable, found]
      obtain ⟨result, ran, own, others⟩ := downloaded (fun other member => stored other (List.mem_cons_of_mem _ member))
        (writeFile files (toString checkpoint) (toString query ++ ".parquet") content)
      refine ⟨result, ?_, ?_, ?_⟩
      · rw [List.foldlM_cons, first]
        exact ran
      · intro other member
        by_cases later : other ∈ queries
        · exact own other later
        · obtain rfl : other = query := (List.mem_cons.mp member).resolve_right later
          rw [others, found]
          · simp [writeFile]
          · rintro ⟨again, listed, _, same⟩
            exact later (queryName_injective same ▸ listed)
      · intro dir name unlisted
        rw [others]
        · unfold writeFile
          rw [if_neg]
          rintro ⟨rfl, rfl⟩
          exact unlisted ⟨query, List.mem_cons_self, rfl, rfl⟩
        · rintro ⟨other, listed, same⟩
          exact unlisted ⟨other, List.mem_cons_of_mem _ listed, same⟩

/-- The download of a checkpoint may write a file of this name. -/
def Written (queries : List Nat) (name : String) : Prop :=
  (∃ query ∈ queries, name = toString query ++ ".parquet") ∨ name = "row_counts.json"

/-- This is what the download of some checkpoints makes of the local files. -/
structure Downloaded (paths : CheckpointStore) (store : ObjectStore Bytes) (checkpoints queries : List Nat)
    (files result : LocalFiles Bytes) : Prop where
  parquet : ∀ checkpoint ∈ checkpoints, ∀ query ∈ queries,
    result (toString checkpoint) (toString query ++ ".parquet") =
      store.objects (paths.checkpointParquetPath checkpoint query)
  rowCounts : ∀ checkpoint ∈ checkpoints, result (toString checkpoint) "row_counts.json" =
    (store.objects (paths.checkpointRowCountsPath checkpoint)).or (files (toString checkpoint) "row_counts.json")
  others : ∀ dir name, (¬ ∃ checkpoint ∈ checkpoints, dir = toString checkpoint ∧ Written queries name) →
    result dir name = files dir name

theorem downloadDirectory_downloaded (reliable : ∀ path, store.failing path = none) (checkpoint : Nat)
    (queries : List Nat)
    (stored : ∀ query ∈ queries, (store.objects (paths.checkpointParquetPath checkpoint query)).isSome)
    (files : LocalFiles Bytes) :
    ∃ result, paths.downloadDirectory store queries files checkpoint = .ok result ∧
      Downloaded paths store [checkpoint] queries files result := by
  obtain ⟨middle, ran, own, others⟩ := downloadFile_foldlM reliable checkpoint queries stored files
  have untouched : middle (toString checkpoint) "row_counts.json" = files (toString checkpoint) "row_counts.json" := by
    apply others
    rintro ⟨query, _, _, same⟩
    exact queryName_ne_rowCounts query same.symm
  have elsewhere : ∀ dir name, (¬ ∃ other ∈ [checkpoint], dir = toString other ∧ Written queries name) →
      middle dir name = files dir name := by
    intro dir name unwritten
    apply others
    rintro ⟨query, listed, here, same⟩
    exact unwritten ⟨checkpoint, by simp, here, .inl ⟨query, listed, same⟩⟩
  unfold downloadDirectory
  rw [ran]
  simp only [bind, Except.bind, get_of_objects reliable]
  cases found : store.objects (paths.checkpointRowCountsPath checkpoint) with
  | none =>
      refine ⟨middle, rfl, ?_, ?_, elsewhere⟩
      · simpa using own
      · simpa [found] using untouched
  | some content =>
      refine ⟨_, rfl, ?_, ?_, ?_⟩
      · intro other member query listed
        rw [List.mem_singleton.mp member, ← own query listed]
        exact if_neg fun same => queryName_ne_rowCounts query same.2
      · simp [writeFile, found]
      · intro dir name unwritten
        rw [← elsewhere dir name unwritten, writeFile, if_neg]
        rintro ⟨rfl, rfl⟩
        exact unwritten ⟨checkpoint, by simp, rfl, .inr rfl⟩

/-- All pairs of a checkpoint and a query are downloaded when they are stored. -/
theorem downloadCheckpoints_downloaded (reliable : ∀ path, store.failing path = none) (checkpoints queries : List Nat)
    (interval : Nat)
    (stored : ∀ checkpoint ∈ checkpoints, ∀ query ∈ queries,
      (store.objects (paths.checkpointParquetPath checkpoint query)).isSome)
    (files : LocalFiles Bytes) :
    ∃ result, paths.downloadCheckpoints store ⟨checkpoints, queries, interval⟩ files = .ok result ∧
      Downloaded paths store checkpoints queries files result := by
  induction checkpoints generalizing files with
  | nil => exact ⟨files, rfl, by simp, by simp, by simp⟩
  | cons checkpoint checkpoints downloaded =>
      obtain ⟨middle, first, one⟩ := downloadDirectory_downloaded reliable checkpoint queries
        (stored checkpoint List.mem_cons_self) files
      obtain ⟨result, ran, rest⟩ := downloaded (fun other member => stored other (List.mem_cons_of_mem _ member)) middle
      have unlisted : checkpoint ∉ checkpoints →
          ∀ name, result (toString checkpoint) name = middle (toString checkpoint) name := by
        intro absent name
        apply rest.others
        rintro ⟨other, listed, same, _⟩
        exact absent (toString_injective same ▸ listed)
      refine ⟨result, ?_, ?_, ?_, ?_⟩
      · unfold downloadCheckpoints at ran ⊢
        rw [List.foldlM_cons, first]
        exact ran
      · intro other member query listed
        by_cases later : other ∈ checkpoints
        · exact rest.parquet other later query listed
        · obtain rfl : other = checkpoint := (List.mem_cons.mp member).resolve_right later
          rw [unlisted later]
          exact one.parquet other (by simp) query listed
      · intro other member
        by_cases later : other ∈ checkpoints
        · rw [rest.rowCounts other later]
          by_cases same : other = checkpoint
          · rw [same, one.rowCounts checkpoint (by simp), ← Option.or_assoc, Option.or_self]
          · rw [one.others]
            rintro ⟨again, listed, equal, _⟩
            exact same ((toString_injective equal).trans (List.mem_singleton.mp listed))
        · obtain rfl : other = checkpoint := (List.mem_cons.mp member).resolve_right later
          rw [unlisted later]
          exact one.rowCounts other (by simp)
      · intro dir name unwritten
        rw [rest.others, one.others]
        · rintro ⟨other, listed, same⟩
          exact unwritten ⟨other, List.mem_cons.mpr (.inl (List.mem_singleton.mp listed)), same⟩
        · rintro ⟨other, listed, same⟩
          exact unwritten ⟨other, List.mem_cons_of_mem _ listed, same⟩

end Download

section RoundTrip

variable {dir : LocalDir Bytes} {store : ObjectStore Bytes} {paths : CheckpointStore} {codec : Codec Bytes}

/-- The files of a tree that are numbered, and the row counts beside them. -/
def numberedFiles (dir : LocalDir Bytes) : LocalFiles Bytes := fun dirName name =>
  match (checkpointDirs dir).lookup dirName with
  | some files =>
      if (parseUsize dirName.toList).isSome ∧
          (((parquetStem name).bind parseUsize).isSome ∨ name = "row_counts.json") then files.lookup name
      else none
  | none => none

/-- The upload writes the entry of the local manifest, and the download through the uploaded manifest
gives the numbered files. -/
def RoundTrips (paths : CheckpointStore) (codec : Codec Bytes) (store : ObjectStore Bytes) (scenario : String)
    (dir : LocalDir Bytes) (interval : Nat) : Prop :=
  (paths.uploadCheckpoints codec store scenario dir interval).2 = writeLocalManifest dir interval ∧
  ∃ manifest info,
    paths.downloadManifest codec (paths.uploadCheckpoints codec store scenario dir interval).1 = .ok manifest ∧
    manifest.scenarios.lookup scenario = some info ∧
    paths.downloadCheckpoints (paths.uploadCheckpoints codec store scenario dir interval).1 info (fun _ _ => none) =
      .ok (numberedFiles dir)

/-- All directories are numbered below the largest machine word, no query has that number, and of the
files that are `0.parquet` or whose names are no numbers, the last one has the content of `0.parquet`. -/
structure CleanTree (dir : LocalDir Bytes) : Prop where
  numbered : ∀ entry ∈ checkpointDirs dir, ∃ checkpoint < usizeMax, entry.1 = toString checkpoint
  bounded : ∀ entry ∈ checkpointDirs dir, ∀ file ∈ queryFiles entry.2, parseUsize file.1 ≠ some usizeMax
  zero : ∀ entry ∈ checkpointDirs dir, ∀ file,
    ((queryFiles entry.2).filter fun file => indexOrZero file.1 = 0).getLast? = some file →
    entry.2.lookup "0.parquet" = some file.2

/-- A query is listed by the upload when some directory has content for it. -/
theorem uploadedContent_isSome {files : List (String × Bytes)} {query : Nat} :
    (uploadedContent files query).isSome ↔ ∃ file ∈ queryFiles files, indexOrZero file.1 = query := by
  unfold uploadedContent
  rw [Option.isSome_map, List.getLast?_isSome]
  constructor
  · intro some
    obtain ⟨file, member⟩ := List.exists_mem_of_ne_nil _ some
    obtain ⟨listed, index⟩ := List.mem_filter.mp member
    exact ⟨file, listed, of_decide_eq_true index⟩
  · rintro ⟨file, listed, index⟩
    exact List.ne_nil_of_mem (List.mem_filter.mpr ⟨listed, decide_eq_true index⟩)

/-- The queries of the upload. -/
theorem mem_uploaded_queries {dirs : List (String × List (String × Bytes))} {upload : Upload Bytes} {query : Nat}
    (fresh : upload.queryIndexes = .empty) :
    query ∈ (dirs.foldl paths.uploadDirectory upload).queryIndexes.keys ↔
      ∃ entry ∈ dirs, (uploadedContent entry.2 query).isSome := by
  obtain ⟨_, _, queries⟩ := uploadDirectory_foldl paths dirs upload
  have listed := @mem_keys_insertDirs Bytes (fun _ => true) (fun file => indexOrZero file.1) dirs .empty query
  simp only [if_true, true_and] at listed
  rw [queries, fresh, listed]
  simp [OrderedMap.keys, OrderedMap.empty, uploadedContent_isSome]

theorem indexOrMax_eq_iff {text : List Char} {index : Nat} (small : index ≠ usizeMax) :
    indexOrMax text = index ↔ parseUsize text = some index := by
  unfold indexOrMax
  cases parseUsize text with
  | none => simp [small.symm]
  | some number => simp

theorem indexOrMax_ne_iff {text : List Char} :
    indexOrMax text ≠ usizeMax ↔ ∃ index, index ≠ usizeMax ∧ parseUsize text = some index := by
  unfold indexOrMax
  cases parseUsize text with
  | none => simp
  | some number => simp

theorem hasQuery_iff_lookup {files : List (String × Bytes)} (canonical : CanonicalFiles files) {query : Nat} :
    HasQuery files query ↔ (files.lookup (toString query ++ ".parquet")).isSome := by
  rw [Option.isSome_iff_exists]
  constructor
  · rintro ⟨content, member⟩
    exact ⟨content, (lookup_iff_mem canonical.distinct).mpr member⟩
  · rintro ⟨content, found⟩
    exact ⟨content, (lookup_iff_mem canonical.distinct).mp found⟩

/-- The queries of a directory are the numbers of its files. -/
theorem CanonicalFiles.hasQuery_iff {files : List (String × Bytes)} (canonical : CanonicalFiles files) {query : Nat}
    (bounded : query ≤ usizeMax) :
    HasQuery files query ↔ ∃ file ∈ queryFiles files, parseUsize file.1 = some query := by
  constructor
  · rintro ⟨content, member⟩
    exact ⟨_, mem_queryFiles_query.mpr member, parseUsize_decimal bounded⟩
  · rintro ⟨file, member, parsed⟩
    obtain ⟨isDecimal, _⟩ := canonical.eq_decimal member parsed
    refine ⟨file.2, mem_queryFiles_query.mp ?_⟩
    rw [← isDecimal]
    exact member

theorem isSome_of_indexOrMax {text : List Char} (counted : indexOrMax text ≠ usizeMax) :
    (parseUsize text).isSome := by
  obtain ⟨index, _, parsed⟩ := indexOrMax_ne_iff.mp counted
  rw [parsed]
  rfl

theorem CanonicalTree.filed_of_numbered (canonical : CanonicalTree dir) {entry : String × List (String × Bytes)}
    (member : entry ∈ checkpointDirs dir) (numbered : ∃ checkpoint < usizeMax, entry.1 = toString checkpoint) :
    CanonicalFiles entry.2 := by
  obtain ⟨checkpoint, small, named⟩ := numbered
  apply canonical.filed entry member
  rw [named, toList_toString, parseUsize_decimal small.le]
  rfl

/-- The queries of the local manifest. -/
theorem CanonicalTree.mem_local_queries (canonical : CanonicalTree dir) {interval query : Nat} :
    query ∈ (writeLocalManifest dir interval).queryIndexes ↔ query < usizeMax ∧
      ∃ entry ∈ checkpointDirs dir, indexOrMax entry.1.toList ≠ usizeMax ∧ HasQuery entry.2 query := by
  have listed := @mem_keys_insertDirs Bytes (fun file => indexOrMax file.1 ≠ usizeMax) (fun file => indexOrMax file.1)
    ((checkpointDirs dir).filter fun entry => indexOrMax entry.1.toList ≠ usizeMax) .empty query
  simp only [decide_eq_true_eq] at listed
  unfold writeLocalManifest
  dsimp only
  rw [listed]
  constructor
  · rintro (none | ⟨entry, member, file, inside, counted, rfl⟩)
    · cases none
    · obtain ⟨isDir, numbered⟩ := List.mem_filter.mp member
      have filed := canonical.filed entry isDir (isSome_of_indexOrMax (of_decide_eq_true numbered))
      obtain ⟨index, small, parsed⟩ := indexOrMax_ne_iff.mp counted
      rw [(indexOrMax_eq_iff small).mpr parsed]
      obtain ⟨_, bounded⟩ := filed.eq_decimal inside parsed
      have query := (filed.hasQuery_iff bounded).mpr ⟨file, inside, parsed⟩
      exact ⟨by omega, entry, isDir, of_decide_eq_true numbered, query⟩
  · rintro ⟨small, entry, isDir, numbered, query⟩
    have filed := canonical.filed entry isDir (isSome_of_indexOrMax numbered)
    obtain ⟨file, inside, parsed⟩ := (filed.hasQuery_iff small.le).mp query
    have index := (indexOrMax_eq_iff small.ne).mpr parsed
    refine .inr ⟨entry, List.mem_filter.mpr ⟨isDir, decide_eq_true numbered⟩, file, inside, ?_, index⟩
    rw [index]
    exact small.ne

theorem CanonicalTree.mem_local_queries_of_numbered (canonical : CanonicalTree dir)
    (numbered : ∀ entry ∈ checkpointDirs dir, indexOrMax entry.1.toList ≠ usizeMax) (interval : Nat) {query : Nat} :
    query ∈ (writeLocalManifest dir interval).queryIndexes ↔
      query < usizeMax ∧ ∃ entry ∈ checkpointDirs dir, HasQuery entry.2 query := by
  rw [canonical.mem_local_queries]
  constructor
  · rintro ⟨small, entry, member, _, query⟩
    exact ⟨small, entry, member, query⟩
  · rintro ⟨small, entry, member, query⟩
    exact ⟨small, entry, member, numbered entry member, query⟩

/-- A canonical directory is numbered below the largest machine word when the local manifest has it. -/
theorem CanonicalTree.numbered_iff (canonical : CanonicalTree dir) {entry : String × List (String × Bytes)}
    (member : entry ∈ checkpointDirs dir) :
    indexOrMax entry.1.toList ≠ usizeMax ↔ ∃ checkpoint < usizeMax, entry.1 = toString checkpoint := by
  rw [indexOrMax_ne_iff]
  rcases canonical.named entry member with ⟨checkpoint, bounded, named⟩ | unparsed
  · have parsed : parseUsize entry.1.toList = some checkpoint := by
      rw [named, toList_toString, parseUsize_decimal bounded]
    constructor
    · rintro ⟨index, small, isIndex⟩
      obtain rfl := Option.some.inj (isIndex.symm.trans parsed)
      exact ⟨index, by omega, named⟩
    · rintro ⟨index, small, named'⟩
      obtain rfl := toString_injective (named'.symm.trans named)
      exact ⟨index, small.ne, parsed⟩
  · constructor
    · rintro ⟨index, _, parsed⟩
      rw [unparsed] at parsed
      cases parsed
    · rintro ⟨index, small, named⟩
      rw [named, toList_toString, parseUsize_decimal small.le] at unparsed
      cases unparsed

/-- The upload and the local manifest list the same checkpoints and queries. -/
structure IndexesAgree (dir : LocalDir Bytes) : Prop where
  numbered : ∀ entry ∈ checkpointDirs dir, ∃ checkpoint < usizeMax, entry.1 = toString checkpoint
  queries : ∀ query, (∃ entry ∈ checkpointDirs dir, (uploadedContent entry.2 query).isSome) ↔
    query < usizeMax ∧ ∃ entry ∈ checkpointDirs dir, HasQuery entry.2 query

/-- The entry that the upload writes into the manifest. -/
theorem uploadCheckpoints_entry {scenario : String} {interval : Nat} :
    (paths.uploadCheckpoints codec store scenario dir interval).2 =
      ⟨(checkpointDirs dir).map fun entry => indexOrZero entry.1.toList,
        ((checkpointDirs dir).foldl paths.uploadDirectory ⟨store, [], .empty⟩).queryIndexes.keys, interval⟩ := by
  obtain ⟨_, checkpoints, _⟩ := uploadDirectory_foldl paths (checkpointDirs dir) ⟨store, [], .empty⟩
  unfold uploadCheckpoints
  dsimp only
  rw [checkpoints, List.nil_append]

theorem CanonicalTree.entry_eq_iff (canonical : CanonicalTree dir) {scenario : String} {interval : Nat} :
    (paths.uploadCheckpoints codec store scenario dir interval).2 = writeLocalManifest dir interval ↔
      IndexesAgree dir := by
  rw [uploadCheckpoints_entry]
  have uploaded : ∀ query, query ∈ ((checkpointDirs dir).foldl paths.uploadDirectory
      ⟨store, [], .empty⟩).queryIndexes.keys ↔
      ∃ entry ∈ checkpointDirs dir, (uploadedContent entry.2 query).isSome :=
    fun query => mem_uploaded_queries rfl
  constructor
  · intro same
    have checkpoints := congrArg (fun entry => entry.checkpointIndexes.length) same
    simp only [writeLocalManifest, List.length_map] at checkpoints
    have counted := List.length_filter_eq_length_iff.mp checkpoints.symm
    have numbered : ∀ entry ∈ checkpointDirs dir, indexOrMax entry.1.toList ≠ usizeMax :=
      fun entry member => of_decide_eq_true (counted entry member)
    refine ⟨fun entry member => (canonical.numbered_iff member).mp (numbered entry member), ?_⟩
    intro query
    have queries := congrArg (fun entry => query ∈ entry.queryIndexes) same
    dsimp only at queries
    rw [← uploaded, queries, canonical.mem_local_queries_of_numbered numbered]
  · intro agree
    have numbered : ∀ entry ∈ checkpointDirs dir, indexOrMax entry.1.toList ≠ usizeMax :=
      fun entry member => (canonical.numbered_iff member).mpr (agree.numbered entry member)
    have all : (checkpointDirs dir).filter (fun entry => indexOrMax entry.1.toList ≠ usizeMax) = checkpointDirs dir :=
      List.filter_eq_self.mpr fun entry member => decide_eq_true (numbered entry member)
    have indexes : ∀ entry ∈ checkpointDirs dir, indexOrZero entry.1.toList = indexOrMax entry.1.toList := by
      intro entry member
      obtain ⟨index, small, parsed⟩ := indexOrMax_ne_iff.mp (numbered entry member)
      rw [(indexOrMax_eq_iff small).mpr parsed]
      exact indexOrZero_eq_iff.mpr (.inl parsed)
    have queries : ((checkpointDirs dir).foldl paths.uploadDirectory ⟨store, [], .empty⟩).queryIndexes.keys =
        (writeLocalManifest dir interval).queryIndexes := by
      apply List.Pairwise.eq_of_mem_iff (OrderedMap.keys_ascending _) (OrderedMap.keys_ascending _)
      intro query
      rw [uploaded, agree.queries]
      exact (canonical.mem_local_queries_of_numbered numbered interval).symm
    rw [queries]
    unfold writeLocalManifest
    dsimp only
    rw [all, List.map_congr_left indexes]

section Uploaded

variable {scenario : String} {interval : Nat}

theorem uploadCheckpoints_failing :
    (paths.uploadCheckpoints codec store scenario dir interval).1.failing = store.failing := by
  obtain ⟨puts, _, _⟩ := uploadDirectory_foldl paths (checkpointDirs dir) ⟨store, [], .empty⟩
  unfold uploadCheckpoints ObjectStore.put
  dsimp only
  rw [puts, failing_putAll]

/-- Writing the manifest leaves the checkpoints as they are. -/
theorem uploadCheckpoints_objects {suffix : List String} (long : suffix.length ≠ 1) :
    (paths.uploadCheckpoints codec store scenario dir interval).1.objects (paths.root ++ suffix) =
      (putAll store ((checkpointDirs dir).flatMap (putsOf paths))).objects (paths.root ++ suffix) := by
  obtain ⟨puts, _, _⟩ := uploadDirectory_foldl paths (checkpointDirs dir) ⟨store, [], .empty⟩
  unfold uploadCheckpoints ObjectStore.put
  dsimp only
  rw [if_neg (manifestPath_ne long), puts]

/-- The uploaded manifest has the uploaded entry. -/
theorem downloadManifest_uploaded (reliable : ∀ path, store.failing path = none)
    (lossless : ∀ manifest, ∃ decoded, codec.decode (codec.encode manifest) = .ok decoded ∧
      ∀ name, decoded.scenarios.lookup name = manifest.scenarios.lookup name) :
    ∃ manifest,
      paths.downloadManifest codec (paths.uploadCheckpoints codec store scenario dir interval).1 = .ok manifest ∧
      manifest.scenarios.lookup scenario =
        some (paths.uploadCheckpoints codec store scenario dir interval).2 := by
  have same : ∀ path, (paths.uploadCheckpoints codec store scenario dir interval).1.failing path = none := by
    intro path
    rw [uploadCheckpoints_failing]
    exact reliable path
  obtain ⟨manifest, written⟩ : ∃ manifest : CheckpointManifest,
      (paths.uploadCheckpoints codec store scenario dir interval).1.objects paths.manifestPath =
        some (codec.encode (manifest.insert scenario
          (paths.uploadCheckpoints codec store scenario dir interval).2)) :=
    ⟨_, if_pos rfl⟩
  obtain ⟨decoded, read, entries⟩ := lossless (manifest.insert scenario
    (paths.uploadCheckpoints codec store scenario dir interval).2)
  refine ⟨decoded, ?_, ?_⟩
  · simp only [downloadManifest, get_of_objects same, written, read]
  · rw [entries]
    simp [CheckpointManifest.insert]

end Uploaded

/-- The query zero of a directory is uploaded as it is when the last file that counts as it is
`0.parquet`, or has its content. -/
theorem CanonicalFiles.zero_iff {files : List (String × Bytes)} (canonical : CanonicalFiles files) :
    uploadedContent files 0 = files.lookup "0.parquet" ↔
      ∀ file, ((queryFiles files).filter fun file => indexOrZero file.1 = 0).getLast? = some file →
        files.lookup "0.parquet" = some file.2 := by
  unfold uploadedContent
  cases last : ((queryFiles files).filter fun file => indexOrZero file.1 = 0).getLast? with
  | none =>
      have absent : files.lookup "0.parquet" = none := by
        by_contra present
        obtain ⟨content, found⟩ := Option.ne_none_iff_exists'.mp present
        have inside : (Nat.toDigits 10 0, content) ∈ queryFiles files :=
          mem_queryFiles_query.mpr ((lookup_iff_mem canonical.distinct).mp found)
        have nothing := List.getLast?_eq_none_iff.mp last
        have counted : (Nat.toDigits 10 0, content) ∈ (queryFiles files).filter fun file => indexOrZero file.1 = 0 :=
          List.mem_filter.mpr ⟨inside, decide_eq_true (by decide : indexOrZero (Nat.toDigits 10 0) = 0)⟩
        rw [nothing] at counted
        cases counted
      simp [absent]
  | some file => simp [eq_comm]

section Files

theorem IndexesAgree.index_eq (agree : IndexesAgree dir) {entry : String × List (String × Bytes)}
    (member : entry ∈ checkpointDirs dir) :
    toString (indexOrZero entry.1.toList) = entry.1 := by
  obtain ⟨checkpoint, small, named⟩ := agree.numbered entry member
  rw [named, toList_toString, indexOrZero, parseUsize_decimal small.le, Option.getD_some]

variable (agree : IndexesAgree dir) (canonical : CanonicalTree dir)
include canonical agree

/-- Each checkpoint has one directory. -/
theorem IndexesAgree.distinct : ((checkpointDirs dir).map fun entry => indexOrZero entry.1.toList).Nodup := by
  apply List.Nodup.of_map (f := toString)
  rw [List.map_map]
  have names := checkpointDirs_nodup canonical.distinct
  rwa [← List.map_congr_left fun entry member => agree.index_eq member] at names

/-- In the tree, the files of a checkpoint are those of its directory. -/
theorem IndexesAgree.numberedFiles_eq {entry : String × List (String × Bytes)} (member : entry ∈ checkpointDirs dir)
    (name : String) :
    numberedFiles dir entry.1 name =
      if ((parquetStem name).bind parseUsize).isSome ∨ name = "row_counts.json" then entry.2.lookup name
      else none := by
  obtain ⟨checkpoint, small, named⟩ := agree.numbered entry member
  have found : (checkpointDirs dir).lookup entry.1 = some entry.2 :=
    (lookup_iff_mem (checkpointDirs_nodup canonical.distinct)).mpr member
  have parsed : (parseUsize entry.1.toList).isSome := by
    rw [named, toList_toString, parseUsize_decimal small.le]
    rfl
  unfold numberedFiles
  rw [found]
  simp only [parsed, true_and]

/-- All directories have all the queries that are listed. -/
theorem IndexesAgree.stored {query : Nat}
    (listed : ∃ entry ∈ checkpointDirs dir, (uploadedContent entry.2 query).isSome)
    {entry : String × List (String × Bytes)} (member : entry ∈ checkpointDirs dir) :
    query < usizeMax ∧ (uploadedContent entry.2 query).isSome := by
  obtain ⟨small, other, isDir, query⟩ := (agree.queries query).mp listed
  have numbered : ∀ entry ∈ checkpointDirs dir, (parseUsize entry.1.toList).isSome := by
    intro entry member
    obtain ⟨checkpoint, small, named⟩ := agree.numbered entry member
    rw [named, toList_toString, parseUsize_decimal small.le]
    rfl
  have here := canonical.same other isDir entry member (numbered other isDir) (numbered entry member) _ small.le query
  obtain ⟨file, inside, parsed⟩ :=
    ((canonical.filed_of_numbered member (agree.numbered entry member)).hasQuery_iff small.le).mp here
  exact ⟨small, uploadedContent_isSome.mpr ⟨file, inside, indexOrZero_eq_iff.mpr (.inl parsed)⟩⟩

/-- A file of the tree that is not downloaded is not numbered. -/
theorem IndexesAgree.unwritten {entry : String × List (String × Bytes)} (member : entry ∈ checkpointDirs dir)
    {queries : List Nat} {name : String}
    (listed : ∀ query, (uploadedContent entry.2 query).isSome → query ∈ queries)
    (unwritten : ¬ Written queries name) : numberedFiles dir entry.1 name = none := by
  rw [agree.numberedFiles_eq canonical member]
  split_ifs with kept
  · rcases kept with parsed | isRowCounts
    · by_contra present
      obtain ⟨content, found⟩ := Option.ne_none_iff_exists'.mp present
      obtain ⟨query, read⟩ := Option.isSome_iff_exists.mp parsed
      obtain ⟨stem, isStem, parsedStem⟩ := Option.bind_eq_some_iff.mp read
      have filed := canonical.filed_of_numbered member (agree.numbered entry member)
      have inside : (stem, content) ∈ queryFiles entry.2 :=
        mem_queryFiles.mpr ⟨name, (lookup_iff_mem filed.distinct).mp found, isStem⟩
      have some := uploadedContent_isSome.mpr ⟨_, inside, indexOrZero_eq_iff.mpr (.inl parsedStem)⟩
      refine unwritten (.inl ⟨query, listed query some, ?_⟩)
      have isDecimal : stem = Nat.toDigits 10 query := (filed.eq_decimal inside parsedStem).1
      rw [eq_of_parquetStem isStem, isDecimal, ← String.toList_inj]
      simp
    · exact absurd (.inr isRowCounts) unwritten
  · rfl

end Files

section Agreeing

variable {scenario : String} {interval : Nat} {queries : List Nat} {result : LocalFiles Bytes}
  (agree : IndexesAgree dir) (canonical : CanonicalTree dir)
  (fresh : ∀ suffix, store.objects (paths.root ++ suffix) = none)
  (downloaded : Downloaded paths (paths.uploadCheckpoints codec store scenario dir interval).1
    ((checkpointDirs dir).map fun entry => indexOrZero entry.1.toList) queries (fun _ _ => none) result)
include agree canonical fresh

theorem IndexesAgree.objects_parquet {entry : String × List (String × Bytes)} (member : entry ∈ checkpointDirs dir)
    (query : Nat) :
    (paths.uploadCheckpoints codec store scenario dir interval).1.objects
      (paths.checkpointParquetPath (indexOrZero entry.1.toList) query) = uploadedContent entry.2 query := by
  unfold checkpointParquetPath
  rw [uploadCheckpoints_objects (by simp)]
  exact uploaded_parquet (agree.distinct canonical) member (fresh _)

theorem IndexesAgree.objects_rowCounts {entry : String × List (String × Bytes)} (member : entry ∈ checkpointDirs dir) :
    (paths.uploadCheckpoints codec store scenario dir interval).1.objects
      (paths.checkpointRowCountsPath (indexOrZero entry.1.toList)) = entry.2.lookup "row_counts.json" := by
  unfold checkpointRowCountsPath
  rw [uploadCheckpoints_objects (by simp)]
  exact uploaded_rowCounts (agree.distinct canonical) member (fresh _)

include downloaded

theorem IndexesAgree.result_parquet {entry : String × List (String × Bytes)} (member : entry ∈ checkpointDirs dir)
    {query : Nat} (listed : query ∈ queries) :
    result entry.1 (toString query ++ ".parquet") = uploadedContent entry.2 query := by
  have own := downloaded.parquet _ (List.mem_map_of_mem member) query listed
  rw [agree.index_eq member] at own
  rw [own, agree.objects_parquet canonical fresh member]

theorem IndexesAgree.result_rowCounts {entry : String × List (String × Bytes)} (member : entry ∈ checkpointDirs dir) :
    result entry.1 "row_counts.json" = entry.2.lookup "row_counts.json" := by
  have own := downloaded.rowCounts _ (List.mem_map_of_mem member)
  rw [agree.index_eq member] at own
  rw [own, agree.objects_rowCounts canonical fresh member, Option.or_none]

omit fresh downloaded in
/-- The files that count as queries are numbered files. -/
theorem IndexesAgree.numberedFiles_query {entry : String × List (String × Bytes)}
    (member : entry ∈ checkpointDirs dir) {query : Nat} (small : query < usizeMax) :
    numberedFiles dir entry.1 (toString query ++ ".parquet") = entry.2.lookup (toString query ++ ".parquet") := by
  have isStem := parquetStem_append (@Nat.toDigits_ne_nil query 10)
  have text : String.ofList (Nat.toDigits 10 query) = toString query := by
    rw [← String.toList_inj, toList_toString, String.toList_ofList]
  rw [text] at isStem
  rw [agree.numberedFiles_eq canonical member, if_pos]
  rw [isStem, Option.bind_some, parseUsize_decimal small.le]
  exact .inl rfl

/-- The download gives the numbered files when each query zero is uploaded as it is. -/
theorem IndexesAgree.result_eq_iff
    (listed : ∀ query, query ∈ queries ↔ ∃ entry ∈ checkpointDirs dir, (uploadedContent entry.2 query).isSome) :
    result = numberedFiles dir ↔
      ∀ entry ∈ checkpointDirs dir, uploadedContent entry.2 0 = entry.2.lookup "0.parquet" := by
  constructor
  · intro same entry member
    by_cases some : 0 ∈ queries
    · have zero := agree.result_parquet canonical fresh downloaded member some
      rw [← zero, same, agree.numberedFiles_query canonical member zero_lt_usizeMax, zeroName]
    · have none : uploadedContent entry.2 0 = none := by
        by_contra present
        exact some ((listed 0).mpr ⟨entry, member, Option.isSome_iff_ne_none.mpr present⟩)
      rw [(canonical.filed_of_numbered member (agree.numbered entry member)).zero_iff]
      intro file last
      simp [uploadedContent, last] at none
  · intro zero
    funext dirName name
    by_cases inside : ∃ entry ∈ checkpointDirs dir, dirName = entry.1
    · obtain ⟨entry, member, rfl⟩ := inside
      by_cases written : Written queries name
      · rcases written with ⟨query, inQueries, rfl⟩ | rfl
        · obtain ⟨small, _⟩ := agree.stored canonical ((listed query).mp inQueries) member
          rw [agree.result_parquet canonical fresh downloaded member inQueries,
            agree.numberedFiles_query canonical member small]
          by_cases isZero : query = 0
          · rw [isZero, zeroName]
            exact zero entry member
          · exact (canonical.filed_of_numbered member (agree.numbered entry member)).uploadedContent_eq isZero small.le
        · rw [agree.result_rowCounts canonical fresh downloaded member,
            agree.numberedFiles_eq canonical member, if_pos (.inr rfl)]
      · rw [agree.unwritten canonical member (fun query some => (listed query).mpr ⟨entry, member, some⟩) written]
        apply downloaded.others
        rintro ⟨checkpoint, _, _, isWritten⟩
        exact written isWritten
    · rw [downloaded.others, numberedFiles]
      · cases found : (checkpointDirs dir).lookup dirName with
        | none => rfl
        | some files =>
            have member := (lookup_iff_mem (checkpointDirs_nodup canonical.distinct)).mp found
            exact absurd ⟨_, member, rfl⟩ inside
      · rintro ⟨checkpoint, listedCheckpoint, same, _⟩
        obtain ⟨entry, member, rfl⟩ := List.mem_map.mp listedCheckpoint
        exact inside ⟨entry, member, same.trans (agree.index_eq member)⟩

end Agreeing

/-- A clean tree has the same indexes in both manifests. -/
theorem CleanTree.agree (canonical : CanonicalTree dir) (clean : CleanTree dir) : IndexesAgree dir := by
  refine ⟨clean.numbered, ?_⟩
  intro query
  constructor
  · rintro ⟨entry, member, some⟩
    have filed := canonical.filed_of_numbered member (clean.numbered entry member)
    obtain ⟨file, inside, index⟩ := uploadedContent_isSome.mp some
    rcases indexOrZero_eq_iff.mp index with parsed | ⟨rfl, unparsed⟩
    · obtain ⟨_, bounded⟩ := filed.eq_decimal inside parsed
      have other : query ≠ usizeMax := by
        rintro rfl
        exact clean.bounded entry member file inside parsed
      exact ⟨by omega, entry, member, (filed.hasQuery_iff bounded).mpr ⟨file, inside, parsed⟩⟩
    · have zero := filed.zero_iff.mpr (clean.zero entry member)
      refine ⟨zero_lt_usizeMax, entry, member, (hasQuery_iff_lookup filed).mpr ?_⟩
      rw [zeroName, ← zero]
      exact some
  · rintro ⟨small, entry, member, query⟩
    obtain ⟨file, inside, parsed⟩ :=
      ((canonical.filed_of_numbered member (clean.numbered entry member)).hasQuery_iff small.le).mp query
    exact ⟨entry, member, uploadedContent_isSome.mpr ⟨file, inside, indexOrZero_eq_iff.mpr (.inl parsed)⟩⟩

/-- With the same indexes in both manifests, no query has the largest machine word as its number. -/
theorem IndexesAgree.bounded (agree : IndexesAgree dir) {entry : String × List (String × Bytes)}
    (member : entry ∈ checkpointDirs dir) {file : List Char × Bytes} (inside : file ∈ queryFiles entry.2) :
    parseUsize file.1 ≠ some usizeMax := by
  intro parsed
  have some := uploadedContent_isSome.mpr ⟨file, inside, indexOrZero_eq_iff.mpr (.inl parsed)⟩
  obtain ⟨small, _⟩ := (agree.queries usizeMax).mp ⟨entry, member, some⟩
  omega

/-- A canonical tree goes through a fresh store unchanged exactly when it is clean. -/
theorem checkpoint_round_trip_iff (paths : CheckpointStore) (codec : Codec Bytes) (store : ObjectStore Bytes)
    (scenario : String) (dir : LocalDir Bytes) (interval : Nat)
    (lossless : ∀ manifest, ∃ decoded, codec.decode (codec.encode manifest) = .ok decoded ∧
      ∀ name, decoded.scenarios.lookup name = manifest.scenarios.lookup name)
    (reliable : ∀ path, store.failing path = none)
    (fresh : ∀ suffix, store.objects (paths.root ++ suffix) = none) (canonical : CanonicalTree dir) :
    RoundTrips paths codec store scenario dir interval ↔ CleanTree dir := by
  obtain ⟨manifest, read, entry⟩ :=
    @downloadManifest_uploaded _ dir store paths codec scenario interval reliable lossless
  have same : ∀ path, (paths.uploadCheckpoints codec store scenario dir interval).1.failing path = none := by
    intro path
    rw [uploadCheckpoints_failing]
    exact reliable path
  have completed : IndexesAgree dir → ∃ result,
      paths.downloadCheckpoints (paths.uploadCheckpoints codec store scenario dir interval).1
        (paths.uploadCheckpoints codec store scenario dir interval).2 (fun _ _ => none) = .ok result ∧
      (result = numberedFiles dir ↔
        ∀ entry ∈ checkpointDirs dir, uploadedContent entry.2 0 = entry.2.lookup "0.parquet") := by
    intro agree
    have listed : ∀ query, query ∈ ((checkpointDirs dir).foldl paths.uploadDirectory
        ⟨store, [], .empty⟩).queryIndexes.keys ↔
        ∃ entry ∈ checkpointDirs dir, (uploadedContent entry.2 query).isSome :=
      fun query => mem_uploaded_queries rfl
    rw [uploadCheckpoints_entry]
    obtain ⟨result, ran, downloaded⟩ := downloadCheckpoints_downloaded same
      ((checkpointDirs dir).map fun entry => indexOrZero entry.1.toList) _ interval
      (by
        intro checkpoint isCheckpoint query isQuery
        obtain ⟨entry, member, rfl⟩ := List.mem_map.mp isCheckpoint
        rw [agree.objects_parquet canonical fresh member]
        exact (agree.stored canonical ((listed query).mp isQuery) member).2) fun _ _ => none
    exact ⟨result, ran, agree.result_eq_iff canonical fresh downloaded listed⟩
  constructor
  · rintro ⟨entries, others, info, readOthers, found, ran⟩
    have agree := canonical.entry_eq_iff.mp entries
    obtain rfl : others = manifest := Except.ok.inj (readOthers.symm.trans read)
    obtain rfl := Option.some.inj (found.symm.trans entry)
    obtain ⟨result, isResult, zero⟩ := completed agree
    obtain rfl := Except.ok.inj (isResult.symm.trans ran)
    refine ⟨agree.numbered, fun entry member file inside => agree.bounded member inside, ?_⟩
    intro entry member
    exact (canonical.filed_of_numbered member (agree.numbered entry member)).zero_iff.mp (zero.mp rfl entry member)
  · intro clean
    have agree := clean.agree canonical
    obtain ⟨result, ran, zero⟩ := completed agree
    have whole : result = numberedFiles dir :=
      zero.mpr fun entry member =>
        (canonical.filed_of_numbered member (clean.numbered entry member)).zero_iff.mpr (clean.zero entry member)
    rw [whole] at ran
    exact ⟨canonical.entry_eq_iff.mpr agree, manifest, _, read, entry, ran⟩

end RoundTrip

section Samples

/-- In the samples an object is a number, or a manifest. -/
def sampleCodec : Codec (Nat ⊕ CheckpointManifest) where
  encode := .inr
  decode
    | .inr manifest => .ok manifest
    | .inl _ => .error "expected value at line 1 column 1"

def emptyStore : ObjectStore (Nat ⊕ CheckpointManifest) := ⟨fun _ => none, fun _ => none⟩

/-- Two checkpoints of two queries, one of them with row counts, beside a log. -/
def sampleTree : LocalDir (Nat ⊕ CheckpointManifest) :=
  [("10", .directory [("1.parquet", .inl 4), ("0.parquet", .inl 5)]),
   ("run.log", .file (.inl 9)),
   ("2", .directory [("0.parquet", .inl 1), ("1.parquet", .inl 2), ("row_counts.json", .inl 3)])]

/-- A directory of another name lies beside the first checkpoint. -/
def strayTree : LocalDir (Nat ⊕ CheckpointManifest) :=
  [("0", .directory [("0.parquet", .inl 1)]), ("tmp", .directory [])]

theorem checkpointDirs_sampleTree : checkpointDirs sampleTree =
    [("10", [("1.parquet", .inl 4), ("0.parquet", .inl 5)]),
     ("2", [("0.parquet", .inl 1), ("1.parquet", .inl 2), ("row_counts.json", .inl 3)])] := rfl

theorem checkpointDirs_strayTree : checkpointDirs strayTree = [("0", [("0.parquet", .inl 1)]), ("tmp", [])] := rfl

/-- Files whose names are no others than `0.parquet`, `1.parquet` and those that are no Parquet files
are canonical. -/
theorem canonicalFiles_of_names {files : List (String × (Nat ⊕ CheckpointManifest))}
    (distinct : (files.map Prod.fst).Nodup)
    (named : ∀ stem ∈ (queryFiles files).map Prod.fst, stem = Nat.toDigits 10 0 ∨ stem = Nat.toDigits 10 1) :
    CanonicalFiles files := by
  refine ⟨distinct, ?_⟩
  intro file member
  rcases named file.1 (List.mem_map_of_mem member) with isZero | isOne
  · exact .inl ⟨0, by decide, isZero⟩
  · exact .inl ⟨1, by decide, isOne⟩

theorem sampleTree_canonical : CanonicalTree sampleTree where
  distinct := by decide
  named := by
    rw [checkpointDirs_sampleTree]
    simp only [List.forall_mem_cons]
    exact ⟨.inl ⟨10, by decide, by decide⟩, .inl ⟨2, by decide, by decide⟩, by simp⟩
  filed := by
    rw [checkpointDirs_sampleTree]
    simp only [List.forall_mem_cons]
    exact ⟨fun _ => canonicalFiles_of_names (by decide) (by decide),
      fun _ => canonicalFiles_of_names (by decide) (by decide), by simp⟩
  same := by
    rw [checkpointDirs_sampleTree]
    intro entry isEntry other isOther _ _ query _ has
    have differs : query.repr ++ ".parquet" ≠ "row_counts.json" := queryName_ne_rowCounts query
    simp only [List.mem_cons, List.not_mem_nil, or_false] at isEntry isOther
    have names : toString query ++ ".parquet" = "0.parquet" ∨ toString query ++ ".parquet" = "1.parquet" := by
      rcases isEntry with rfl | rfl
      · simpa [HasQuery, or_comm, exists_or] using has
      · simpa [HasQuery, exists_or, differs] using has
    rcases isOther with rfl | rfl
    · simpa [HasQuery, or_comm, exists_or] using names
    · simpa [HasQuery, exists_or, differs] using names

theorem strayTree_canonical : CanonicalTree strayTree where
  distinct := by decide
  named := by
    rw [checkpointDirs_strayTree]
    simp only [List.forall_mem_cons]
    exact ⟨.inl ⟨0, by decide, by decide⟩, .inr (by decide), by simp⟩
  filed := by
    rw [checkpointDirs_strayTree]
    simp only [List.forall_mem_cons]
    exact ⟨fun _ => canonicalFiles_of_names (by decide) (by decide),
      fun _ => canonicalFiles_of_names (by decide) (by decide), by simp⟩
  same := by
    have stray : (parseUsize "tmp".toList).isSome = false := by decide
    rw [checkpointDirs_strayTree]
    intro entry isEntry other isOther numbered numberedOther query _ has
    simp only [List.mem_cons, List.not_mem_nil, or_false] at isEntry isOther
    rcases isEntry with rfl | rfl
    · rcases isOther with rfl | rfl
      · exact has
      · rw [stray] at numberedOther
        cases numberedOther
    · rw [stray] at numbered
      cases numbered

theorem sampleTree_clean : CleanTree sampleTree where
  numbered := by
    rw [checkpointDirs_sampleTree]
    simp only [List.forall_mem_cons]
    exact ⟨⟨10, by decide, by decide⟩, ⟨2, by decide, by decide⟩, by simp⟩
  bounded := by
    rw [checkpointDirs_sampleTree]
    decide
  zero := by
    rw [checkpointDirs_sampleTree]
    simp only [List.forall_mem_cons]
    refine ⟨?_, ?_, by simp⟩
    · intro file last
      obtain rfl : (['0'], .inl 5) = file := Option.some.inj last
      rfl
    · intro file last
      obtain rfl : (['0'], .inl 1) = file := Option.some.inj last
      rfl

theorem checkpoint_round_trip_sample :
    CleanTree sampleTree ∧ RoundTrips ⟨["run-42"]⟩ sampleCodec emptyStore "tpch" sampleTree 10 :=
  ⟨sampleTree_clean, (checkpoint_round_trip_iff ⟨["run-42"]⟩ sampleCodec emptyStore "tpch" sampleTree 10
    (fun manifest => ⟨manifest, rfl, fun _ => rfl⟩) (fun _ => rfl) (fun _ => rfl) sampleTree_canonical).mpr
    sampleTree_clean⟩

theorem stray_directory_uploaded_as_zero :
    CanonicalTree strayTree ∧ ¬ RoundTrips ⟨["run-42"]⟩ sampleCodec emptyStore "tpch" strayTree 10 := by
  refine ⟨strayTree_canonical, ?_⟩
  rintro ⟨entries, _⟩
  rw [uploadCheckpoints_entry] at entries
  have checkpoints := congrArg ScenarioCheckpoint.checkpointIndexes entries
  revert checkpoints
  decide

end Samples

end Spicebench.Checkpointer
