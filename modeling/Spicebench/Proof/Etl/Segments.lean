import Mathlib.Algebra.BigOperators.Group.List.Basic
import Spicebench.Construction.Etl.Segments

namespace Spicebench.Etl
open DataGeneration

variable {Key Data : Type}

theorem slicesFrom_flatten {Item : Type} {size : Nat} (positive : 0 < size) {fuel : Nat}
    {items : List Item} (enough : items.length ≤ fuel) : (slicesFrom size fuel items).flatten = items := by
  induction fuel generalizing items with
  | zero =>
      rw [List.length_eq_zero_iff.mp (Nat.le_zero.mp enough)]
      rfl
  | succ fuel ih =>
      unfold slicesFrom
      split_ifs with empty
      · rw [List.isEmpty_iff.mp empty]
        rfl
      · have nonempty : 0 < items.length := by
          rw [List.length_pos_iff]
          simpa using empty
        have rest : (items.drop size).length ≤ fuel := by
          rw [List.length_drop]
          omega
        rw [List.flatten_cons, ih rest, List.take_append_drop]

/-- The slices of a list are together the list. -/
theorem slices_flatten {Item : Type} {size : Nat} (positive : 0 < size) (items : List Item) :
    (slices size items).flatten = items :=
  slicesFrom_flatten positive le_rfl

/-- These are the rows that an accumulator has taken, in order. -/
def Coalescing.rows (state : Coalescing Key Data) : List (Row Key Data) :=
  state.result.flatMap RecordBatch.rows ++ state.pending.flatten

theorem Coalescing.flush_rows (schema : Schema) (state : Coalescing Key Data) :
    (state.flush schema).rows = state.rows := by
  simp [Coalescing.flush, Coalescing.rows]

/-- The count of the pending rows is exact. -/
def Coalescing.Counted (state : Coalescing Key Data) : Prop :=
  state.pendingRows = state.pending.flatten.length

/-- Adding a chunk appends its rows. -/
theorem Coalescing.add_rows (schema : Schema) (target : Nat) {state : Coalescing Key Data}
    (counted : state.Counted) (chunk : List (Row Key Data)) :
    (state.add schema target chunk).rows = state.rows ++ chunk ∧ (state.add schema target chunk).Counted := by
  unfold Coalescing.add
  dsimp only
  unfold Coalescing.Counted at *
  split_ifs with whole full
  · have none : state.pending.flatten = [] := by
      rw [← List.length_eq_zero_iff, ← counted]
      exact whole.2
    simp [Coalescing.rows, none, whole.2]
  · simp [Coalescing.flush, Coalescing.rows]
  · simp [Coalescing.rows, counted]

theorem Coalescing.take_rows (schema : Schema) (target : Nat) {state : Coalescing Key Data}
    (counted : state.Counted) (chunk : List (Row Key Data)) :
    (state.take schema target chunk).rows = state.rows ++ chunk ∧ (state.take schema target chunk).Counted := by
  unfold Coalescing.take
  dsimp only
  split_ifs with early
  · have taken := (state.flush schema).add_rows schema target (by simp [Coalescing.Counted, Coalescing.flush]) chunk
    rw [state.flush_rows schema] at taken
    exact taken
  · exact state.add_rows schema target counted chunk

theorem Coalescing.foldl_rows (schema : Schema) (target : Nat) (chunks : List (List (Row Key Data)))
    {state : Coalescing Key Data} (counted : state.Counted) :
    (chunks.foldl (Coalescing.take schema target) state).rows = state.rows ++ chunks.flatten := by
  induction chunks generalizing state with
  | nil => simp
  | cons chunk rest ih =>
      obtain ⟨taken, still⟩ := state.take_rows schema target counted chunk
      rw [List.foldl_cons, ih still, taken, List.flatten_cons, List.append_assoc]

/-- Coalescing keeps every row, in order. -/
theorem coalesceBatches_rows {target : Nat} (positive : 0 < target)
    (batches : List (RecordBatch Key Data)) :
    (coalesceBatches target batches).flatMap RecordBatch.rows = batches.flatMap RecordBatch.rows := by
  unfold coalesceBatches
  cases batches with
  | nil => rfl
  | cons first others =>
      dsimp only
      have chunks : ((first :: others).flatMap fun batch => slices target batch.rows).flatten =
          (first :: others).flatMap RecordBatch.rows := by
        rw [List.flatMap_def, List.flatten_flatten, List.map_map, List.flatMap_def]
        congr 1
        apply List.map_congr_left
        intro batch _
        exact slices_flatten positive batch.rows
      have folded := Coalescing.foldl_rows first.schema target
        ((first :: others).flatMap fun batch => slices target batch.rows)
        (show Coalescing.Counted ⟨[], [], 0⟩ from rfl)
      rw [chunks] at folded
      generalize List.foldl _ _ _ = final at folded ⊢
      have rows : final.rows = (first :: others).flatMap RecordBatch.rows := by
        rw [folded]
        rfl
      split_ifs with empty
      · rw [← rows]
        simp [Coalescing.rows, List.isEmpty_iff.mp empty]
      · rw [← rows, ← final.flush_rows first.schema]
        simp [Coalescing.rows, Coalescing.flush]

/-- Every output of coalescing has the schema of the first batch. -/
theorem Coalescing.schema_take {schema : Schema} {target : Nat} {state : Coalescing Key Data}
    (same : ∀ batch ∈ state.result, batch.schema = schema) (chunk : List (Row Key Data)) :
    ∀ batch ∈ (state.take schema target chunk).result, batch.schema = schema := by
  have flushed : ∀ state : Coalescing Key Data, (∀ batch ∈ state.result, batch.schema = schema) →
      ∀ batch ∈ (state.flush schema).result, batch.schema = schema := by
    intro state same batch member
    simp only [Coalescing.flush, List.mem_append, List.mem_singleton] at member
    rcases member with old | rfl
    · exact same batch old
    · rfl
  have added : ∀ state : Coalescing Key Data, (∀ batch ∈ state.result, batch.schema = schema) →
      ∀ batch ∈ (state.add schema target chunk).result, batch.schema = schema := by
    intro state same
    unfold Coalescing.add
    dsimp only
    split_ifs
    · intro batch member
      rcases List.mem_append.mp member with old | new
      · exact same batch old
      · rw [List.mem_singleton.mp new]
    · exact flushed _ same
    · exact same
  unfold Coalescing.take
  dsimp only
  split_ifs
  · exact added _ (flushed state same)
  · exact added state same

theorem coalesceBatches_schema {target : Nat} {batches : List (RecordBatch Key Data)} {schema : Schema}
    (uniform : ∀ batch ∈ batches, batch.schema = schema) :
    ∀ batch ∈ coalesceBatches target batches, batch.schema = schema := by
  unfold coalesceBatches
  cases batches with
  | nil => simp
  | cons first others =>
      dsimp only
      rw [uniform first List.mem_cons_self]
      generalize ((first :: others).flatMap fun batch => slices target batch.rows) = chunks
      have general : ∀ (chunks : List (List (Row Key Data))) (state : Coalescing Key Data),
          (∀ batch ∈ state.result, batch.schema = schema) →
          ∀ batch ∈ (chunks.foldl (Coalescing.take schema target) state).result, batch.schema = schema := by
        intro chunks
        induction chunks with
        | nil => exact fun _ same => same
        | cons chunk rest ih =>
            intro state same
            exact ih _ (Coalescing.schema_take same chunk)
      have final := general chunks ⟨[], [], 0⟩ (by simp)
      split_ifs
      · exact final
      · intro batch member
        simp only [Coalescing.flush, List.mem_append, List.mem_singleton] at member
        rcases member with old | rfl
        · exact final batch old
        · rfl

/-- The runs are together the rows, in order. -/
theorem opRuns_rows (rows : List (Row Key Data)) : (opRuns rows).flatMap Prod.snd = rows := by
  induction rows with
  | nil => rfl
  | cons row rest ih =>
      unfold opRuns
      split
      · rename_i none
        rw [none] at ih
        simp [← ih]
      · rename_i op run others found
        rw [found, List.flatMap_cons] at ih
        split_ifs
        · rw [List.flatMap_cons, List.cons_append, ih]
        · rw [List.flatMap_cons, List.flatMap_cons, ih]
          rfl

/-- Every row of a run has the operation of the run. -/
theorem opValue_of_mem_opRuns {rows : List (Row Key Data)} {run : Op × List (Row Key Data)}
    (member : run ∈ opRuns rows) {row : Row Key Data} (inside : row ∈ run.2) : opValue row = run.1 := by
  induction rows generalizing run row with
  | nil => simp [opRuns] at member
  | cons first rest ih =>
      unfold opRuns at member
      split at member
      · rw [List.mem_singleton.mp member] at inside ⊢
        rw [List.mem_singleton.mp inside]
      · rename_i op block others found
        have earlier : ∀ run ∈ (op, block) :: others, ∀ row ∈ run.2, opValue row = run.1 := by
          intro run inside row held
          exact ih (found ▸ inside) held
        split_ifs at member with same
        · rcases List.mem_cons.mp member with rfl | later
          · rcases List.mem_cons.mp inside with rfl | old
            · exact same.symm
            · exact earlier _ List.mem_cons_self row old
          · exact earlier run (List.mem_cons_of_mem _ later) row inside
        · rcases List.mem_cons.mp member with rfl | later
          · rw [List.mem_singleton.mp inside]
          · exact earlier run later row inside

/-- Each row of a segment comes with the operation of the segment. -/
def assigned (segments : List (OpSegment Key Data)) : List ((Key × Data) × InsertOp) :=
  segments.flatMap fun segment => segment.rows.map fun row => (row, segment.op)

/-- This is a row with the operation that its own `_op` value names. -/
def withOwnOp (keyColumns : List String) (row : Row Key Data) : (Key × Data) × InsertOp :=
  ((row.key, row.data), opStrToInsertOp (opValue row) keyColumns)

theorem assigned_rows (segments : List (OpSegment Key Data)) :
    (assigned segments).map Prod.fst = segments.flatMap OpSegment.rows := by
  unfold assigned
  rw [List.map_flatMap]
  congr 1
  funext segment
  rw [List.map_map]
  exact List.map_id segment.rows

/-- A split assigns to each row the operation that the row names. -/
theorem assigned_splitBatchByOp (sort : OpIndexSort Key Data) {batch : RecordBatch Key Data}
    (keyColumns : List String) (labelled : batch.schema.hasOp = true) :
    (assigned (splitBatchByOp sort batch keyColumns)).Perm (batch.rows.map (withOwnOp keyColumns)) := by
  unfold splitBatchByOp
  rw [if_pos labelled]
  dsimp only
  generalize ordered : (if batch.schema.hasOpIndex then sort.sort batch.rows else batch.rows) = sorted
  have perm : sorted.Perm batch.rows := by
    rw [← ordered]
    split_ifs
    · exact sort.perm batch.rows
    · exact List.Perm.refl _
  have runs : assigned ((opRuns sorted).map fun run =>
      (⟨opStrToInsertOp run.1 keyColumns, stripInternalColumns run.2⟩ : OpSegment Key Data)) =
      sorted.map (withOwnOp keyColumns) := by
    conv_rhs => rw [← opRuns_rows sorted, List.map_flatMap]
    unfold assigned
    rw [List.flatMap_map, List.flatMap_def, List.flatMap_def]
    congr 1
    apply List.map_congr_left
    intro run member
    rw [stripInternalColumns, List.map_map]
    apply List.map_congr_left
    intro row inside
    simp [withOwnOp, opValue_of_mem_opRuns member inside]
  rw [runs]
  exact perm.map _

/-- The segments of a batch hold exactly its rows. -/
theorem buildSegmentsForBatch_rows (sort : OpIndexSort Key Data) (batch : RecordBatch Key Data)
    (keyColumns : List String) (mutations : MutationConfig) :
    ((buildSegmentsForBatch sort batch keyColumns mutations).flatMap OpSegment.rows).Perm
      (stripInternalColumns batch.rows) := by
  unfold buildSegmentsForBatch
  split_ifs with quick
  · simp
  · cases labelled : batch.schema.hasOp with
    | false => simp [splitBatchByOp, labelled]
    | true =>
        have split := (assigned_splitBatchByOp sort keyColumns labelled).map Prod.fst
        rw [assigned_rows, List.map_map] at split
        exact split

/-- The chunks of a segment are together its rows. -/
theorem sinkChunks_flatten (chunkRows : Nat) (segment : OpSegment Key Data) :
    (sinkChunks chunkRows segment).flatten = segment.rows := by
  unfold sinkChunks
  split_ifs with chunked
  · exact slices_flatten chunked.1 segment.rows
  · simp

/-- An operation changes the number of live rows by this much. -/
def InsertOp.delta : InsertOp → Int
  | .insert => 1
  | .update _ => 0
  | .delete _ => -1

theorem OpSegment.netRows_eq (segment : OpSegment Key Data) :
    segment.netRows = (segment.rows.length : Int) * segment.op.delta := by
  unfold OpSegment.netRows InsertOp.delta
  cases segment.op <;> simp

/-- The net count of a split is the sum over its rows. -/
theorem netDelta_eq_assigned (segments : List (OpSegment Key Data)) :
    netDelta segments = ((assigned segments).map fun row => row.2.delta).sum := by
  induction segments with
  | nil => rfl
  | cons segment rest ih =>
      have first : (segment.rows.map fun _ => segment.op.delta).sum = segment.netRows := by
        rw [OpSegment.netRows_eq, List.map_const', List.sum_replicate, nsmul_eq_mul]
      rw [netDelta, List.map_cons, List.sum_cons, ← netDelta, ih]
      simp only [assigned, List.flatMap_cons, List.map_append, List.sum_append, List.map_map]
      rw [← first]
      rfl

end Spicebench.Etl
