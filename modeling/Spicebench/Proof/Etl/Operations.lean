import Spicebench.Proof.Dataset.Validity
import Spicebench.Proof.Etl.Segments

namespace Spicebench.Etl

open Library DataGeneration

variable {Key Data : Type}

/-- The batch holds rows of the stream in emission order, as every coalescing of emitted batches
does. -/
structure DrawnFrom (emitted : List (RecordBatch Key Data)) (batch : RecordBatch Key Data) : Prop where
  schema : batch.schema = changeSchema
  rows : batch.rows.Sublist (emitted.flatMap RecordBatch.rows)

theorem DrawnFrom.exists_batch {emitted : List (RecordBatch Key Data)} {batch : RecordBatch Key Data}
    (drawn : DrawnFrom emitted batch) {row : Row Key Data} (member : row ∈ batch.rows) :
    ∃ (step : Nat) (source : RecordBatch Key Data),
      emitted[step]? = some source ∧ row ∈ source.rows := by
  obtain ⟨source, inside, held⟩ := List.mem_flatMap.mp (drawn.rows.subset member)
  obtain ⟨step, found⟩ := List.mem_iff_getElem?.mp inside
  exact ⟨step, source, found, held⟩

/-- A batch that `coalesce_batches` puts out holds rows of the batches it was given. -/
theorem drawnFrom_coalesceBatches {emitted window batches : List (RecordBatch Key Data)}
    {target : Nat} {batch : RecordBatch Key Data} (positive : 0 < target)
    (consecutive : window <:+: emitted) (uniform : ∀ batch ∈ batches, batch.schema = changeSchema)
    (same : batches.flatMap RecordBatch.rows = window.flatMap RecordBatch.rows)
    (member : batch ∈ coalesceBatches target batches) : DrawnFrom emitted batch := by
  have held : batch.rows.Sublist ((coalesceBatches target batches).flatMap RecordBatch.rows) := by
    rw [List.flatMap_def]
    exact List.sublist_flatten_of_mem (List.mem_map_of_mem member)
  rw [coalesceBatches_rows positive, same] at held
  exact ⟨coalesceBatches_schema uniform batch member, held.trans (consecutive.sublist.flatMap _)⟩

/-- Each row is assigned its own operation exactly when the shortcut for zero ratios sees creates
only. -/
theorem assigned_own_iff (sort : OpIndexSort Key Data) {batch : RecordBatch Key Data}
    (keyColumns : List String) (config : MutationConfig) (labelled : batch.schema.hasOp = true)
    (known : ∀ row ∈ batch.rows,
      row.op = some .create ∨ row.op = some .update ∨ row.op = some .delete) :
    (assigned (buildSegmentsForBatch sort batch keyColumns config)).Perm
        (batch.rows.map (withOwnOp keyColumns)) ↔
      (config.zeroRatios = true → ∀ row ∈ batch.rows, row.op = some .create) := by
  have creates : (∀ row ∈ batch.rows, row.op = some .create) →
      assigned [(⟨.insert, stripInternalColumns batch.rows⟩ : OpSegment Key Data)] =
        batch.rows.map (withOwnOp keyColumns) := by
    intro all
    simp only [assigned, List.flatMap_singleton, stripInternalColumns, List.map_map]
    apply List.map_congr_left
    intro row member
    simp [withOwnOp, opValue, all row member, opStrToInsertOp]
  unfold buildSegmentsForBatch
  split
  · rename_i quick
    constructor
    · intro perm _ row member
      -- every assigned operation is an insert, so no row may name another one
      have own : withOwnOp keyColumns row ∈ assigned
          [(⟨.insert, stripInternalColumns batch.rows⟩ : OpSegment Key Data)] :=
        perm.mem_iff.mpr (List.mem_map_of_mem member)
      have insert : opStrToInsertOp (opValue row) keyColumns = .insert := by
        simp only [assigned, List.flatMap_singleton, List.mem_map, withOwnOp, Prod.mk.injEq] at own
        obtain ⟨_, _, _, op⟩ := own
        exact op.symm
      rcases known row member with create | update | delete
      · exact create
      · simp [opValue, update, opStrToInsertOp] at insert
      · simp [opValue, delete, opStrToInsertOp] at insert
    · intro calm
      have all : ∀ row ∈ batch.rows, row.op = some .create := by
        rw [batchIsInsertOnly, labelled, Bool.or_eq_true, Bool.or_eq_true] at quick
        rcases quick with (zero | unlabelled) | all
        · exact calm zero
        · simp at unlabelled
        · simpa using all
      rw [creates all]
  · rename_i slow
    constructor
    · intro _ zero
      simp [batchIsInsertOnly, zero] at slow
    · intro _
      exact assigned_splitBatchByOp sort keyColumns labelled

/-- Every emitted row is a create, an update or a delete, and creates come from base steps only. -/
theorem emitted_op {dataset : TpchDataset} {gen : TpchGen Key Data} {table : TpchTable} {step : Nat}
    {batch : RecordBatch Key Data} {changes : Changes Key Data} {opBase : Int}
    (emitted : dataset.Emitted gen table step batch changes opBase) {row : Row Key Data}
    (member : row ∈ batch.rows) :
    (row.op = some .create ∧ dataset.inMutationPhase table step = false) ∨
      row.op = some .update ∨ row.op = some .delete := by
  rw [emitted.shape] at member
  rcases changes.mem_rows member with ⟨create, inside⟩ | update | delete
  · left
    refine ⟨create, ?_⟩
    rw [emitted.creates] at inside
    cases phase : dataset.inMutationPhase table step with
    | false => rfl
    | true => simp [TpchDataset.createsOf, phase] at inside
  · exact .inr (.inl update.1)
  · exact .inr (.inr delete.1)

/-- With zero ratios, the rows of a TPC-H mutation step are the ones that lose their operation. -/
theorem assigned_tpch_iff [DecidableEq Key] {dataset : TpchDataset} {gen : TpchGen Key Data}
    {state : GeneratorState TpchTable (TpchState Key) Key Data} {table : TpchTable}
    {batch : RecordBatch Key Data} (sort : OpIndexSort Key Data) (keyColumns : List String)
    (generated : Generates (dataset.tpch gen) state) (drawn : DrawnFrom (state.emitted table) batch) :
    (assigned (buildSegmentsForBatch sort batch keyColumns dataset.mutations)).Perm
        (batch.rows.map (withOwnOp keyColumns)) ↔
      ¬ (dataset.mutations.zeroRatios = true ∧
        ∃ (step : Nat) (source : RecordBatch Key Data), (state.emitted table)[step]? = some source ∧
          dataset.inMutationPhase table step = true ∧ ∃ row ∈ source.rows, row ∈ batch.rows) := by
  have steps := TpchDataset.steps_of_generates generated table
  have known : ∀ row ∈ batch.rows,
      row.op = some .create ∨ row.op = some .update ∨ row.op = some .delete := by
    intro row member
    obtain ⟨step, source, found, held⟩ := drawn.exists_batch member
    obtain ⟨changes, opBase, emitted⟩ := steps.batches step source found
    exact (emitted_op emitted held).imp_left And.left
  rw [assigned_own_iff sort keyColumns _ (by rw [drawn.schema]; rfl) known]
  constructor
  · rintro calm ⟨zero, step, source, found, phase, row, held, member⟩
    obtain ⟨changes, opBase, emitted⟩ := steps.batches step source found
    have create := calm zero row member
    rcases emitted_op emitted held with base | update | delete
    · simp [phase] at base
    · simp [create] at update
    · simp [create] at delete
  · intro apart zero row member
    obtain ⟨step, source, found, held⟩ := drawn.exists_batch member
    obtain ⟨changes, opBase, emitted⟩ := steps.batches step source found
    have phase : dataset.inMutationPhase table step = false := by
      rw [← Bool.not_eq_true]
      intro mutating
      exact apart ⟨zero, step, source, found, mutating, row, held, member⟩
    rw [emitted.shape] at held
    exact changes.create_of_calm (emitted.calm zero phase) held

/-- The sequence dataset emits nothing but creates with zero ratios, so its operations are kept. -/
theorem assigned_sequence {dataset : SimpleSequenceDataset}
    {state : GeneratorState Unit SequenceState Int (Option Int)}
    {batch : RecordBatch Int (Option Int)} (sort : OpIndexSort Int (Option Int))
    (keyColumns : List String) (generated : Generates dataset.simpleSequence state)
    (drawn : DrawnFrom (state.emitted ()) batch) :
    (assigned (buildSegmentsForBatch sort batch keyColumns dataset.mutations)).Perm
      (batch.rows.map (withOwnOp keyColumns)) := by
  have keys := SimpleSequenceDataset.keys_of_generates generated
  have shaped : ∀ row ∈ batch.rows, ∃ (changes : Changes Int (Option Int)) (opBase : Int),
      row ∈ changes.rows opBase ∧
      (dataset.mutations.zeroRatios = true → changes.updates = [] ∧ changes.deletes = []) := by
    intro row member
    obtain ⟨step, source, found, held⟩ := drawn.exists_batch member
    obtain ⟨changes, opBase, rfl, calm⟩ := keys.batches source (List.mem_of_getElem? found)
    exact ⟨changes, opBase, held, calm⟩
  rw [assigned_own_iff sort keyColumns _ (by rw [drawn.schema]; rfl)]
  · intro zero row member
    obtain ⟨changes, opBase, held, calm⟩ := shaped row member
    exact changes.create_of_calm (calm zero) held
  · intro row member
    obtain ⟨changes, opBase, held, _⟩ := shaped row member
    exact changes.op_of_mem_rows held

/-- Generated rows reach the sink under their own operation, except that a zero-ratio bootstrap
turns the rows of its mutation steps into inserts. -/
theorem operations_reach_sink_iff (keyColumns : List String) :
    (∀ {Key Data : Type} [DecidableEq Key] (dataset : TpchDataset) (gen : TpchGen Key Data) state table
      (batch : RecordBatch Key Data) (sort : OpIndexSort Key Data),
      Generates (dataset.tpch gen) state → DrawnFrom (state.emitted table) batch →
        ((assigned (buildSegmentsForBatch sort batch keyColumns dataset.mutations)).Perm
            (batch.rows.map (withOwnOp keyColumns)) ↔
          ¬ (dataset.mutations.zeroRatios = true ∧
            ∃ (step : Nat) (source : RecordBatch Key Data), (state.emitted table)[step]? = some source ∧
              dataset.inMutationPhase table step = true ∧ ∃ row ∈ source.rows, row ∈ batch.rows))) ∧
      ∀ (dataset : SimpleSequenceDataset) state (batch : RecordBatch Int (Option Int))
        (sort : OpIndexSort Int (Option Int)),
        Generates dataset.simpleSequence state → DrawnFrom (state.emitted ()) batch →
          (assigned (buildSegmentsForBatch sort batch keyColumns dataset.mutations)).Perm
            (batch.rows.map (withOwnOp keyColumns)) := by
  constructor
  · intro Key Data _ dataset gen state table batch sort generated drawn
    exact assigned_tpch_iff sort keyColumns generated drawn
  · intro dataset state batch sort generated drawn
    exact assigned_sequence sort keyColumns generated drawn

theorem drawnFrom_emitted {emitted : List (RecordBatch Key Data)} {batch : RecordBatch Key Data}
    (member : batch ∈ emitted) (schema : batch.schema = changeSchema) : DrawnFrom emitted batch := by
  refine ⟨schema, ?_⟩
  rw [List.flatMap_def]
  exact List.sublist_flatten_of_mem (List.mem_map_of_mem member)

/-- A bootstrap run without ratios has one base step and one mutation step. -/
def quietBootstrap : TpchDataset :=
  ⟨.finite (1 / 4096), 1, ⟨.finite 0, .finite 0, true, 1, .finite (1 / 2)⟩⟩

/-- The mutation step of the sample updates the key of the first supplier. -/
def quietUpdate : RecordBatch Nat Unit := ⟨changeSchema, [⟨2, (), some .update, 2⟩]⟩

theorem quietBootstrap_emitted : ∃ state, Generates (quietBootstrap.tpch sampleGen) state ∧
    state.emitted .supplier =
      [⟨changeSchema, [⟨2, (), some .create, 0⟩, ⟨3, (), some .create, 1⟩]⟩, quietUpdate] := by
  have ran : (runCalls (quietBootstrap.tpch sampleGen)
      [(.supplier, sampleDraws), (.supplier, sampleDraws)]).map (fun state => state.emitted .supplier) =
      some [⟨changeSchema, [⟨2, (), some .create, 0⟩, ⟨3, (), some .create, 1⟩]⟩, quietUpdate] := by
    decide +kernel
  exact generates_of_runCalls ran

/-- The mutation step of the sample does not meet the condition. -/
theorem operations_reach_sink_iff_quiet : ∃ state, Generates (quietBootstrap.tpch sampleGen) state ∧
    ¬ (assigned (buildSegmentsForBatch .stable quietUpdate ["s_suppkey", "s_nationkey"] quietBootstrap.mutations)).Perm
      (quietUpdate.rows.map (withOwnOp ["s_suppkey", "s_nationkey"])) := by
  obtain ⟨state, generated, emitted⟩ := quietBootstrap_emitted
  have drawn : DrawnFrom (state.emitted .supplier) quietUpdate :=
    drawnFrom_emitted (by simp [emitted]) rfl
  refine ⟨state, generated, ?_⟩
  rw [(operations_reach_sink_iff _).1 _ _ _ _ _ _ generated drawn, not_not]
  exact ⟨rfl, 1, quietUpdate, by rw [emitted]; rfl, rfl, ⟨2, (), some .update, 2⟩, by decide, by decide⟩

/-- The sink receives the update of the sample as an insert. -/
theorem operations_reach_sink_broken : ∃ state, Generates (quietBootstrap.tpch sampleGen) state ∧
    ∃ batch ∈ state.emitted .supplier,
      ¬ (assigned (buildSegmentsForBatch .stable batch ["s_suppkey", "s_nationkey"] quietBootstrap.mutations)).Perm
        (batch.rows.map (withOwnOp ["s_suppkey", "s_nationkey"])) := by
  obtain ⟨state, generated, emitted⟩ := quietBootstrap_emitted
  refine ⟨state, generated, quietUpdate, by simp [emitted], ?_⟩
  decide

end Spicebench.Etl
