import Mathlib.Data.List.Chain
import Spicebench.Proof.Etl.Segments

namespace Spicebench.Etl
open DataGeneration

variable {Key Data : Type}

/-- Every slice has at least one element and at most `size`. -/
theorem length_of_mem_slicesFrom {Item : Type} {size : Nat} (positive : 0 < size) {fuel : Nat}
    {items slice : List Item} (member : slice ∈ slicesFrom size fuel items) :
    1 ≤ slice.length ∧ slice.length ≤ size := by
  induction fuel generalizing items with
  | zero => simp [slicesFrom] at member
  | succ fuel ih =>
      unfold slicesFrom at member
      split_ifs at member with empty
      · simp at member
      · rcases List.mem_cons.mp member with rfl | later
        · have nonempty : 0 < items.length := by
            rw [List.length_pos_iff]
            simpa using empty
          rw [List.length_take]
          omega
        · exact ih later

/-- Two batches that follow each other would not fit into one. -/
def Unmergeable (target : Nat) (first second : RecordBatch Key Data) : Prop :=
  target < first.numRows + second.numRows

/-- The output so far is within its bounds and greedy, and what is pending did not fit into the last
output, unless that one is full. -/
structure Coalescing.Greedy (target : Nat) (state : Coalescing Key Data) : Prop where
  counted : state.Counted
  below : state.pendingRows < target
  nonempty : state.pending ≠ [] → 0 < state.pendingRows
  bounded : ∀ batch ∈ state.result, 1 ≤ batch.numRows ∧ batch.numRows ≤ target
  chain : state.result.IsChain (Unmergeable target)
  last : ∀ batch ∈ state.result.getLast?, batch.numRows = target ∨ target < batch.numRows + state.pendingRows

namespace Coalescing.Greedy

variable {target : Nat} {state : Coalescing Key Data}

/-- An output that did not fit into the last one may follow it. -/
theorem append (greedy : state.Greedy target) (schema : Schema) {rows : List (Row Key Data)}
    (some : 1 ≤ rows.length) (fits : rows.length ≤ target) (covers : state.pendingRows ≤ rows.length) :
    (∀ batch ∈ state.result ++ [(⟨schema, rows⟩ : RecordBatch Key Data)], 1 ≤ batch.numRows ∧ batch.numRows ≤ target) ∧
      (state.result ++ [(⟨schema, rows⟩ : RecordBatch Key Data)]).IsChain (Unmergeable target) := by
  constructor
  · intro batch member
    rcases List.mem_append.mp member with old | new
    · exact greedy.bounded batch old
    · rw [List.mem_singleton.mp new]
      exact ⟨some, fits⟩
  · rw [List.isChain_append]
    refine ⟨greedy.chain, List.isChain_singleton _, ?_⟩
    intro last member next head
    obtain rfl : next = ⟨schema, rows⟩ := by simpa using head.symm
    have closed := greedy.last last member
    simp only [Unmergeable, RecordBatch.numRows] at closed ⊢
    omega

/-- The pending rows become the next output. -/
theorem flush (greedy : state.Greedy target) (schema : Schema) (some : 0 < state.pendingRows) :
    (∀ batch ∈ (state.flush schema).result, 1 ≤ batch.numRows ∧ batch.numRows ≤ target) ∧
      (state.flush schema).result.IsChain (Unmergeable target) := by
  have counted : state.pendingRows = state.pending.flatten.length := greedy.counted
  have below := greedy.below
  refine greedy.append schema ?_ ?_ ?_
  · omega
  · omega
  · omega

/-- A chunk that the loop takes keeps the output greedy. -/
theorem take (greedy : state.Greedy target) (schema : Schema) {chunk : List (Row Key Data)} (some : 1 ≤ chunk.length)
    (fits : chunk.length ≤ target) : (state.take schema target chunk).Greedy target := by
  have counted : state.pendingRows = state.pending.flatten.length := greedy.counted
  have below := greedy.below
  unfold Coalescing.take
  dsimp only
  split_ifs with early
  · -- The pending rows go out, because the chunk does not fit behind them.
    obtain ⟨bounded, chain⟩ := greedy.flush schema early.1
    have lastPending : (state.flush schema).result.getLast? = Option.some ⟨schema, state.pending.flatten⟩ := by
      simp [Coalescing.flush]
    unfold Coalescing.add
    dsimp only
    split_ifs with whole full
    · refine ⟨rfl, ?_, by simp [Coalescing.flush], ?_, ?_, ?_⟩
      · simp only [Coalescing.flush]
        omega
      · intro batch member
        rcases List.mem_append.mp member with old | new
        · exact bounded batch old
        · rw [List.mem_singleton.mp new]
          exact ⟨some, fits⟩
      · rw [List.isChain_append]
        refine ⟨chain, List.isChain_singleton _, ?_⟩
        intro last member next head
        rw [lastPending] at member
        obtain rfl : last = ⟨schema, state.pending.flatten⟩ := by simpa using member.symm
        obtain rfl : next = ⟨schema, chunk⟩ := by simpa using head.symm
        simp only [Unmergeable, RecordBatch.numRows]
        omega
      · intro batch member
        obtain rfl : batch = ⟨schema, chunk⟩ := by simpa using member.symm
        exact .inl whole.1
    · simp only [Coalescing.flush, Nat.zero_add] at full whole
      exact absurd ⟨full, trivial⟩ whole
    · simp only [Coalescing.flush, Nat.zero_add] at full ⊢
      refine ⟨by simp [Coalescing.Counted], ?_, fun _ => some, bounded, chain, ?_⟩
      · dsimp only
        omega
      · intro batch member
        obtain rfl : batch = ⟨schema, state.pending.flatten⟩ := by simpa using member.symm
        refine .inr ?_
        simp only [RecordBatch.numRows]
        omega
  · unfold Coalescing.add
    dsimp only
    split_ifs with whole full
    · obtain ⟨bounded, chain⟩ := greedy.append schema some fits (by omega)
      refine ⟨greedy.counted, below, greedy.nonempty, bounded, chain, ?_⟩
      intro batch member
      obtain rfl : batch = ⟨schema, chunk⟩ := by simpa using member.symm
      exact .inl whole.1
    · -- The pending rows and the chunk are together a full output.
      have rows : (state.pending ++ [chunk]).flatten.length = target := by
        simp [← counted, full]
      obtain ⟨bounded, chain⟩ := greedy.append schema (by omega : 1 ≤ (state.pending ++ [chunk]).flatten.length)
        (by omega) (by omega)
      refine ⟨rfl, by simp only [Coalescing.flush]; omega, by simp [Coalescing.flush], bounded, chain, ?_⟩
      intro batch member
      simp only [Coalescing.flush, List.getLast?_append, List.getLast?_singleton, Option.some_or,
        Option.mem_some_iff] at member
      exact .inl (by rw [← member]; exact rows)
    · refine ⟨?_, ?_, fun _ => by dsimp only; omega, greedy.bounded, greedy.chain, ?_⟩
      · simp [Coalescing.Counted, counted]
      · dsimp only
        omega
      · intro batch member
        have closed := greedy.last batch member
        dsimp only
        omega

/-- The whole loop keeps the output greedy. -/
theorem foldl (greedy : state.Greedy target) (schema : Schema) (chunks : List (List (Row Key Data)))
    (sized : ∀ chunk ∈ chunks, 1 ≤ chunk.length ∧ chunk.length ≤ target) :
    (chunks.foldl (Coalescing.take schema target) state).Greedy target := by
  induction chunks generalizing state with
  | nil => exact greedy
  | cons chunk rest ih =>
      obtain ⟨some, fits⟩ := sized chunk List.mem_cons_self
      exact ih (greedy.take schema some fits) fun other member => sized other (List.mem_cons_of_mem _ member)

end Coalescing.Greedy

/-- Coalescing keeps the sequence of rows and the schema; every output has between one row and `target`
rows, and no two outputs that follow each other would fit into one. -/
theorem coalesceBatches_greedy (target : Nat) (positive : 1 ≤ target) (schema : Schema)
    (batches : List (RecordBatch Key Data)) (uniform : ∀ batch ∈ batches, batch.schema = schema) :
    (coalesceBatches target batches).flatMap RecordBatch.rows = batches.flatMap RecordBatch.rows ∧
    (∀ batch ∈ coalesceBatches target batches,
      batch.schema = schema ∧ 1 ≤ batch.numRows ∧ batch.numRows ≤ target) ∧
    (coalesceBatches target batches).IsChain fun first second => target < first.numRows + second.numRows := by
  have schemas : ∀ batch ∈ coalesceBatches target batches, batch.schema = schema := coalesceBatches_schema uniform
  have greedy : (∀ batch ∈ coalesceBatches target batches, 1 ≤ batch.numRows ∧ batch.numRows ≤ target) ∧
      (coalesceBatches target batches).IsChain (Unmergeable target) := by
    unfold coalesceBatches
    cases batches with
    | nil => exact ⟨by simp, List.isChain_nil⟩
    | cons first others =>
        dsimp only
        have start : Coalescing.Greedy target (⟨[], [], 0⟩ : Coalescing Key Data) :=
          ⟨rfl, positive, by simp, by simp, List.isChain_nil, by simp⟩
        have sized : ∀ chunk ∈ (first :: others).flatMap fun batch => slices target batch.rows,
            1 ≤ chunk.length ∧ chunk.length ≤ target := by
          intro chunk member
          obtain ⟨batch, _, inside⟩ := List.mem_flatMap.mp member
          exact length_of_mem_slicesFrom positive inside
        have final := start.foldl first.schema _ sized
        split_ifs with nothing
        · exact ⟨final.bounded, final.chain⟩
        · exact final.flush first.schema (final.nonempty (by simpa using nothing))
  refine ⟨coalesceBatches_rows positive batches, ?_, greedy.2⟩
  intro batch member
  exact ⟨schemas batch member, greedy.1 batch member⟩

/-- Two rows, an empty batch and five rows are cut into full outputs of three rows and a remainder. -/
theorem coalesceBatches_greedy_sample :
    (coalesceBatches 3 ([[0, 1], [], [2, 3, 4, 5, 6]].map fun keys => (⟨changeSchema, keys.map fun key =>
      ⟨key, (), some .create, 0⟩⟩ : RecordBatch Nat Unit))).flatMap RecordBatch.rows =
      [0, 1, 2, 3, 4, 5, 6].map fun key => ⟨key, (), some .create, 0⟩ := by
  rw [(coalesceBatches_greedy 3 (by decide) changeSchema _ (by decide)).1]
  rfl

end Spicebench.Etl
