import Mathlib.Data.List.Chain
import Spicebench.Construction.Etl.SplitColumns
import Spicebench.Proof.Etl.Segments

namespace Spicebench.Etl
open DataGeneration

variable {Key Data : Type}

section Columns

theorem takeIndices_map {Value Other : Type} (function : Value → Other) (column : List Value) (indices : List Nat) :
    takeIndices (column.map function) indices = (takeIndices column indices).map function := by
  unfold takeIndices
  rw [List.map_filterMap]
  congr 1
  funext index
  rw [List.getElem?_map]

theorem takeIndices_range {Value : Type} (column : List Value) :
    takeIndices column (List.range column.length) = column := by
  unfold takeIndices
  induction column using List.reverseRecOn with
  | nil => rfl
  | append_singleton initial last ih =>
      rw [List.length_append, List.length_singleton, List.range_succ, List.filterMap_append]
      have earlier : (List.range initial.length).filterMap ((initial ++ [last])[·]?) =
          (List.range initial.length).filterMap (initial[·]?) := by
        apply List.filterMap_congr
        intro index member
        exact List.getElem?_append_left (List.mem_range.mp member)
      rw [earlier, ih]
      simp

/-- All positions taken in some order give the column in that order. -/
theorem takeIndices_perm {Value : Type} (column : List Value) {indices : List Nat}
    (perm : indices.Perm (List.range column.length)) : (takeIndices column indices).Perm column := by
  have taken : (takeIndices column indices).Perm (takeIndices column (List.range column.length)) :=
    perm.filterMap _
  rwa [takeIndices_range] at taken

/-- A sort of positions sorts the rows of a batch. -/
def IndexSort.rows (sort : IndexSort) : OpIndexSort Key Data where
  sort rows := takeIndices rows (sort.sortToIndices (rows.map Row.opIndex))
  perm rows := takeIndices_perm rows (by simpa using sort.perm (rows.map Row.opIndex))
  sorted rows := by
    have sorted := sort.sorted (rows.map Row.opIndex)
    rw [← takeIndices, takeIndices_map, List.pairwise_map] at sorted
    exact sorted

/-- The columns of a batch stay aligned when all of them are taken at the same positions. -/
theorem columns_take (batch : RecordBatch Key Data) (indices : List Nat) :
    (columns batch).take indices = columns ⟨batch.schema, takeIndices batch.rows indices⟩ := by
  simp only [columns, Columns.take, stripInternalColumns, takeIndices_map]

end Columns

section Runs

/-- A block of one operation before another operation is a run of its own. -/
theorem opRuns_append {op : Op} {block rest : List (Row Key Data)} (some : block ≠ [])
    (uniform : ∀ row ∈ block, opValue row = op) (changes : ∀ row ∈ rest.head?, opValue row ≠ op) :
    opRuns (block ++ rest) = (op, block) :: opRuns rest := by
  induction block with
  | nil => exact absurd rfl some
  | cons row others ih =>
      have first := uniform row List.mem_cons_self
      cases others with
      | nil =>
          rw [List.singleton_append, opRuns]
          cases rest with
          | nil => simp [opRuns, first]
          | cons next later =>
              have other := changes next (by simp)
              have head : ∃ run runs, opRuns (next :: later) = (opValue next, run) :: runs := by
                unfold opRuns
                split
                · exact ⟨_, _, rfl⟩
                · split_ifs with same
                  · exact ⟨_, _, by rw [same]⟩
                  · exact ⟨_, _, rfl⟩
              obtain ⟨run, runs, found⟩ := head
              simp only [found, first]
              rw [if_neg other]
      | cons second others =>
          have tail := ih (by simp) fun row member => uniform row (List.mem_cons_of_mem _ member)
          rw [List.cons_append, opRuns, tail]
          simp [first]

theorem opRuns_nonempty {rows : List (Row Key Data)} {run : Op × List (Row Key Data)}
    (member : run ∈ opRuns rows) : run.2 ≠ [] := by
  induction rows generalizing run with
  | nil => simp [opRuns] at member
  | cons first rest ih =>
      unfold opRuns at member
      split at member
      · rw [List.mem_singleton.mp member]
        simp
      · rename_i op block others found
        rw [found] at ih
        split_ifs at member
        · rcases List.mem_cons.mp member with rfl | later
          · simp
          · exact ih (List.mem_cons_of_mem _ later)
        · rcases List.mem_cons.mp member with rfl | later
          · simp
          · exact ih later

/-- Runs that follow each other have different operations. -/
theorem opRuns_chain (rows : List (Row Key Data)) : (opRuns rows).IsChain fun first second => first.1 ≠ second.1 := by
  induction rows with
  | nil => exact List.isChain_nil
  | cons first rest ih =>
      unfold opRuns
      split
      · exact List.isChain_singleton _
      · rename_i op block others found
        rw [found] at ih
        split_ifs with same
        · cases others with
          | nil => exact List.isChain_singleton _
          | cons next later =>
              rw [List.isChain_cons_cons] at ih ⊢
              exact ih
        · rw [List.isChain_cons_cons]
          exact ⟨Ne.symm same, ih⟩

end Runs

section Scan

variable {rows : List (Row Key Data)} (schema : Schema) {keyColumns : List String} {scan : RunScan Key Data}

def runSegment (keyColumns : List String) (run : Op × List (Row Key Data)) : OpSegment Key Data :=
  ⟨opStrToInsertOp run.1 keyColumns, stripInternalColumns run.2⟩

/-- The scan has cut the runs before its current one, which has reached this position. -/
structure Scanned (rows : List (Row Key Data)) (keyColumns : List String) (scan : RunScan Key Data)
    (position : Nat) : Prop where
  started : scan.runStart < position
  within : position ≤ rows.length
  uniform : ∀ row ∈ (rows.drop scan.runStart).take (position - scan.runStart), opValue row = scan.currentOp
  cut : (opRuns rows).map (runSegment keyColumns) =
    scan.segments ++ (opRuns (rows.drop scan.runStart)).map (runSegment keyColumns)

theorem columns_opValue {position : Nat} {row : Row Key Data} (found : rows[position]? = some row) :
    (columns ⟨schema, rows⟩).opValue position = opValue row := by
  simp [Columns.opValue, columns, found, opValue]

theorem columns_slice (start length : Nat) : (columns (⟨schema, rows⟩ : RecordBatch Key Data)).slice start length =
    stripInternalColumns ((rows.drop start).take length) := by
  simp [Columns.slice, columns, stripInternalColumns, List.map_drop, List.map_take]

/-- The current run ends where the operation changes. -/
theorem Scanned.cut_run {position : Nat} (scanned : Scanned rows keyColumns scan position)
    (changes : ∀ row ∈ rows[position]?, opValue row ≠ scan.currentOp) :
    (opRuns rows).map (runSegment keyColumns) = scan.flush (columns ⟨schema, rows⟩) keyColumns position ++
      (opRuns (rows.drop position)).map (runSegment keyColumns) := by
  have started := scanned.started
  have within := scanned.within
  have parts : rows.drop scan.runStart =
      (rows.drop scan.runStart).take (position - scan.runStart) ++ rows.drop position := by
    conv_lhs => rw [← List.take_append_drop (position - scan.runStart) (rows.drop scan.runStart)]
    rw [List.drop_drop, Nat.add_sub_cancel' (by omega)]
  have some : (rows.drop scan.runStart).take (position - scan.runStart) ≠ [] := by
    rw [← List.length_pos_iff, List.length_take, List.length_drop]
    omega
  have later : ∀ row ∈ (rows.drop position).head?, opValue row ≠ scan.currentOp := by
    simpa using changes
  have runs := opRuns_append some scanned.uniform later
  rw [← parts] at runs
  rw [scanned.cut, runs, List.map_cons, RunScan.flush, columns_slice schema, List.append_assoc]
  rfl

/-- One more row joins the current run, or starts the next one. -/
theorem Scanned.step {position : Nat} (scanned : Scanned rows keyColumns scan position)
    (inside : position < rows.length) :
    Scanned rows keyColumns (scan.step (columns ⟨schema, rows⟩) keyColumns position) (position + 1) := by
  have started := scanned.started
  have found : rows[position]? = some rows[position] := List.getElem?_eq_getElem inside
  have value : (columns ⟨schema, rows⟩).opValue position = opValue rows[position] := columns_opValue schema found
  unfold RunScan.step
  split_ifs with changes
  · rw [value] at changes
    refine ⟨by simp, inside, ?_, ?_⟩
    · intro row member
      have single : (rows.drop position).take (position + 1 - position) = [rows[position]] := by
        rw [Nat.add_sub_cancel_left, List.drop_eq_getElem_cons inside, List.take_succ_cons, List.take_zero]
      rw [single, List.mem_singleton] at member
      rw [member]
      exact value.symm
    · apply scanned.cut_run schema
      intro row member
      rw [found] at member
      rw [← Option.some.inj member]
      exact changes
  · rw [not_not, value] at changes
    refine ⟨by omega, inside, ?_, scanned.cut⟩
    intro row member
    have grown : (rows.drop scan.runStart).take (position + 1 - scan.runStart) =
        (rows.drop scan.runStart).take (position - scan.runStart) ++ [rows[position]] := by
      rw [Nat.succ_sub (by omega), List.take_add_one, List.getElem?_drop, Nat.add_sub_cancel' (by omega), found]
      rfl
    rw [grown] at member
    rcases List.mem_append.mp member with old | new
    · exact scanned.uniform row old
    · rw [List.mem_singleton.mp new]
      exact changes

theorem Scanned.foldl {position : Nat} (scanned : Scanned rows keyColumns scan position) (count : Nat)
    (inside : position + count ≤ rows.length) :
    Scanned rows keyColumns ((List.range' position count).foldl
      (RunScan.step (columns ⟨schema, rows⟩) keyColumns) scan) (position + count) := by
  induction count generalizing position scan with
  | zero => exact scanned
  | succ count ih =>
      rw [List.range'_succ, List.foldl_cons]
      have next := ih (scanned.step schema (by omega)) (by omega)
      rwa [Nat.add_assoc, Nat.add_comm 1] at next

end Scan

/-- The columnar split is the split of the rows. -/
theorem splitColumnsByOp_eq (sort : IndexSort) (batch : RecordBatch Key Data) (keyColumns : List String) :
    splitColumnsByOp sort batch keyColumns = splitBatchByOp sort.rows batch keyColumns := by
  unfold splitColumnsByOp splitBatchByOp
  by_cases labelled : batch.schema.hasOp = true
  · rw [if_pos labelled, if_pos labelled]
    dsimp only
    generalize ordered : (if batch.schema.hasOpIndex = true then sort.rows.sort batch.rows else batch.rows) = rows
    have sorted : (if batch.schema.hasOpIndex = true then
        (columns batch).take (sort.sortToIndices (columns batch).opIndex) else columns batch) =
        columns ⟨batch.schema, rows⟩ := by
      rw [← ordered]
      split_ifs
      · exact columns_take batch _
      · rfl
    rw [sorted]
    have length : (columns (⟨batch.schema, rows⟩ : RecordBatch Key Data)).projected.length = rows.length := by
      simp [columns, stripInternalColumns]
    rw [length]
    split_ifs with empty
    · rw [List.length_eq_zero_iff.mp empty]
      rfl
    · have first : Scanned rows keyColumns ⟨[], 0, (columns ⟨batch.schema, rows⟩).opValue 0⟩ 1 := by
        cases rows with
        | nil => simp at empty
        | cons row others =>
            refine ⟨by simp, by simp, ?_, by simp⟩
            intro other member
            obtain rfl : other = row := by simpa using member
            rfl
      have final := first.foldl batch.schema (rows.length - 1) (by omega)
      rw [Nat.add_sub_cancel' (by omega)] at final
      have cut := final.cut_run batch.schema (by simp)
      rw [List.drop_length, opRuns, List.map_nil, List.append_nil] at cut
      exact cut.symm
  · rw [if_neg labelled, if_neg labelled]
    rfl

/-- The segments are the runs of the rows sorted by their indices, and a batch of creations gives one
segment with the same rows without sorting. -/
theorem splitColumnsByOp_runs (sort : IndexSort) (batch : RecordBatch Key Data) (keyColumns : List String)
    (labelled : batch.schema.hasOp = true) (indexed : batch.schema.hasOpIndex = true)
    (nonNull : ∀ row ∈ batch.rows, row.op ≠ none) (distinct : (batch.rows.map Row.opIndex).Nodup) :
    (∃ sorted : List (Row Key Data), sorted.Perm batch.rows ∧
      sorted.Pairwise (fun first second => first.opIndex < second.opIndex) ∧
      (splitColumnsByOp sort batch keyColumns).flatMap OpSegment.rows = stripInternalColumns sorted ∧
      ∃ runs : List (Op × List (Row Key Data)), runs.flatMap Prod.snd = sorted ∧
        splitColumnsByOp sort batch keyColumns =
          runs.map (fun run => ⟨opStrToInsertOp run.1 keyColumns, stripInternalColumns run.2⟩) ∧
        (∀ run ∈ runs, run.2 ≠ [] ∧ ∀ row ∈ run.2, row.op = some run.1) ∧
        runs.IsChain (fun first second => first.1 ≠ second.1)) ∧
    ((∀ row ∈ batch.rows, row.op = some .create) → ∀ mutations : MutationConfig,
      ∃ rows, buildSegmentsFromColumns sort batch keyColumns mutations = [⟨.insert, rows⟩] ∧
        rows.Perm ((splitColumnsByOp sort batch keyColumns).flatMap OpSegment.rows)) := by
  have split : splitColumnsByOp sort batch keyColumns = (opRuns (sort.rows.sort batch.rows)).map fun run =>
      ⟨opStrToInsertOp run.1 keyColumns, stripInternalColumns run.2⟩ := by
    rw [splitColumnsByOp_eq, splitBatchByOp, if_pos labelled, if_pos indexed]
  have perm := (sort.rows : OpIndexSort Key Data).perm batch.rows
  have together : (splitColumnsByOp sort batch keyColumns).flatMap OpSegment.rows =
      stripInternalColumns (sort.rows.sort batch.rows) := by
    rw [split, List.flatMap_map]
    conv_rhs => rw [← opRuns_rows (sort.rows.sort batch.rows)]
    rw [stripInternalColumns, List.map_flatMap]
    rfl
  constructor
  · refine ⟨sort.rows.sort batch.rows, perm, ?_, together, opRuns (sort.rows.sort batch.rows), opRuns_rows _, split,
      ?_, opRuns_chain _⟩
    · -- Sorted indices that are distinct ascend strictly.
      have ascending := (sort.rows : OpIndexSort Key Data).sorted batch.rows
      have different : (sort.rows.sort batch.rows).Pairwise fun first second => first.opIndex ≠ second.opIndex :=
        List.pairwise_map.mp ((perm.map Row.opIndex).nodup_iff.mpr distinct)
      exact (ascending.and different).imp fun both => lt_of_le_of_ne both.1 both.2
    · intro run member
      refine ⟨opRuns_nonempty member, ?_⟩
      intro row inside
      have value := opValue_of_mem_opRuns member inside
      have original : row ∈ batch.rows := by
        rw [← perm.mem_iff, ← opRuns_rows (sort.rows.sort batch.rows)]
        exact List.mem_flatMap.mpr ⟨run, member, inside⟩
      obtain ⟨op, named⟩ := Option.ne_none_iff_exists'.mp (nonNull row original)
      rw [opValue, named, Option.getD_some] at value
      rw [named, value]
  · intro creations mutations
    have quick : batchIsInsertOnly batch mutations = true := by
      simp [batchIsInsertOnly, List.all_eq_true.mpr fun row member => decide_eq_true (creations row member)]
    refine ⟨stripInternalColumns batch.rows, ?_, ?_⟩
    · rw [buildSegmentsFromColumns, if_pos quick]
      rfl
    · rw [together]
      exact (perm.map _).symm

/-- The stable sort of the positions is one such sort. -/
def IndexSort.stable : IndexSort where
  sortToIndices column := (List.range column.length).insertionSort fun first second =>
    column.getD first 0 ≤ column.getD second 0
  perm column := List.perm_insertionSort _ _
  sorted column := by
    have total : Std.Total fun first second : Nat => column.getD first 0 ≤ column.getD second 0 :=
      ⟨fun _ _ => le_total _ _⟩
    have trans : IsTrans Nat fun first second => column.getD first 0 ≤ column.getD second 0 :=
      ⟨fun _ _ _ => le_trans⟩
    have ordered := List.pairwise_insertionSort
      (fun first second : Nat => column.getD first 0 ≤ column.getD second 0) (List.range column.length)
    rw [List.pairwise_filterMap]
    apply ordered.imp
    intro first second less value found other located
    simpa [List.getD, found, located] using less

/-- An update between two creations is a segment of its own. -/
theorem splitColumnsByOp_runs_sample :
    (splitColumnsByOp .stable (⟨changeSchema, [⟨2, (), some .update, 5⟩, ⟨1, (), some .create, 3⟩,
      ⟨3, (), some .create, 7⟩]⟩ : RecordBatch Nat Unit) ["key"]).flatMap OpSegment.rows = [(1, ()), (2, ()), (3, ())] := by
  obtain ⟨⟨sorted, perm, ascending, together, _⟩, _⟩ := splitColumnsByOp_runs .stable
    (⟨changeSchema, [⟨2, (), some .update, 5⟩, ⟨1, (), some .create, 3⟩, ⟨3, (), some .create, 7⟩]⟩ :
      RecordBatch Nat Unit) ["key"] rfl rfl (by decide) (by decide)
  rw [together]
  have same : sorted = [⟨1, (), some .create, 3⟩, ⟨2, (), some .update, 5⟩, ⟨3, (), some .create, 7⟩] := by
    refine List.Perm.eq_of_pairwise ?_ ascending (by decide) (perm.trans (by decide))
    intro first second _ _ less more
    omega
  rw [same]
  rfl

end Spicebench.Etl
