import Spicebench.Proof.Etl.ExactlyOnce
import Spicebench.Proof.Etl.OpIndices
import Spicebench.Proof.Etl.Operations

namespace Spicebench.Etl
open Library DataGeneration

/-- An ascending list that leaves no gap below its members counts up from zero. -/
theorem eq_range_of_gapless {ids : List Nat} (ascending : ids.Pairwise (· < ·))
    (gapless : ∀ id ∈ ids, ∀ smaller < id, smaller ∈ ids) : ids = List.range ids.length := by
  induction ids using List.reverseRecOn with
  | nil => rfl
  | append_singleton front last ih =>
      obtain ⟨before, _, below⟩ := List.pairwise_append.mp ascending
      have earlier : ∀ id ∈ front, ∀ smaller < id, smaller ∈ front := by
        intro id member smaller less
        have inside := gapless id (List.mem_append_left _ member) smaller less
        have beyond := below id member last (by simp)
        rcases List.mem_append.mp inside with found | found
        · exact found
        · have same := List.mem_singleton.mp found
          omega
      have counted := ih before earlier
      have next : last = front.length := by
        by_contra differs
        rcases Nat.lt_or_gt_of_ne differs with less | more
        · have member : last ∈ front := by
            rw [counted]
            exact List.mem_range.mpr less
          exact Nat.lt_irrefl last (below last member last (by simp))
        · rcases List.mem_append.mp (gapless last (by simp) front.length more) with found | found
          · rw [counted] at found
            simp at found
          · exact differs (List.mem_singleton.mp found).symm
      rw [List.length_append, List.length_singleton, List.range_succ, ← counted, next]

variable {Table Key Data : Type} [DecidableEq Table]

/-- The storage holds the batches of each table under their positions in the stream. -/
def storedSource (emitted : Table → List (RecordBatch Key Data)) : Source Table Key Data where
  rows table batchId := ((emitted table)[batchId]?.map RecordBatch.rows).getD []
  schema _ := changeSchema

/-- The pipeline has run over a stored stream without a failure and is paused or completed. -/
structure Replayed (config : EtlConfig Key Data) (environment : Environment Table Key Data)
    (metadata : Metadata Table) (emitted : Table → List (RecordBatch Key Data))
    (actions : List (PipelineAction Table Key Data)) (final : ETLPipeline Table Key Data) : Prop where
  stored : ∀ table ∈ metadata.tables, metadata.batchIds table = List.range (emitted table).length
  healthy : environment.Healthy metadata.Planned
  serves : environment.Serves (storedSource emitted) metadata.Planned
  admitted : ∀ action ∈ actions, environment.AdmitsPipeline metadata action
  budgets : ∀ steps, .setBatchBudget steps ∈ actions → steps ≠ 0
  proper : InitializedFirst (callsOf actions) ∨ RunAtOnce (callsOf actions)
  ran : (pipelineMachine config environment metadata).run (.new metadata) actions = some final
  settled : final.state = .paused ∨ final.state = .stopped .completed

/-- The rows of the batches of a table that were handed over, in the order of the stream. -/
def deliveredRows (emitted : Table → List (RecordBatch Key Data)) (final : ETLPipeline Table Key Data)
    (table : Table) : List (Row Key Data) :=
  (handedIds table final.shared.history).flatMap ((storedSource emitted).rows table)

namespace Replayed

variable {config : EtlConfig Key Data} {environment : Environment Table Key Data}
  {metadata : Metadata Table} {emitted : Table → List (RecordBatch Key Data)}
  {actions : List (PipelineAction Table Key Data)} {final : ETLPipeline Table Key Data}

theorem current (replayed : Replayed config environment metadata emitted actions final) :
    ∃ run : RunTask Table Key Data, run.phase = .returned final.state ∧
      Current ⟨config, metadata, storedSource emitted, True⟩ final.shared run := by
  have stage : Stage ⟨config, metadata, storedSource emitted, True⟩ final [] :=
    Stage.reached replayed.healthy (fun _ => replayed.serves) replayed.admitted replayed.budgets
      replayed.proper replayed.ran
  refine stage.returned rfl ?_
  rcases replayed.settled with paused | completed
  · exact .inl paused
  · exact .inr ⟨_, completed⟩

/-- The delivered batches of a table are the first ones of its stream. -/
theorem delivered_take (replayed : Replayed config environment metadata emitted actions final)
    (table : Table) : ∃ count, deliveredRows emitted final table =
      ((emitted table).take count).flatMap RecordBatch.rows := by
  obtain ⟨run, ended, current⟩ := replayed.current
  obtain ⟨_, ledger, complete, _⟩ := current.settled ended
  have handed : handedSince [] final.shared table = handedIds table final.shared.history := rfl
  have ascending := ledger.ascending table
  have line := ledger.line table
  rw [List.append_nil, handed] at ascending line
  have listed : ∀ batchId ∈ handedIds table final.shared.history,
      table ∈ metadata.tables ∧ batchId < (emitted table).length := by
    intro batchId member
    obtain ⟨known, stored⟩ := line batchId member
    rw [replayed.stored table known] at stored
    exact ⟨known, List.mem_range.mp stored⟩
  have gapless : ∀ batchId ∈ handedIds table final.shared.history, ∀ smaller < batchId,
      smaller ∈ handedIds table final.shared.history := by
    intro batchId member smaller less
    obtain ⟨known, below⟩ := listed batchId member
    have planned : metadata.Planned table smaller := by
      refine ⟨known, ?_⟩
      rw [replayed.stored table known]
      exact List.mem_range.mpr (by omega)
    rcases complete table smaller planned with found | held | pending
    · exact found
    · simp at held
    · have later := ledger.later table smaller pending batchId (List.mem_append_left _ member)
      omega
  have counted := eq_range_of_gapless ascending gapless
  refine ⟨(handedIds table final.shared.history).length, ?_⟩
  have inside : (handedIds table final.shared.history).length ≤ (emitted table).length := by
    by_contra beyond
    have last : (emitted table).length ∈ handedIds table final.shared.history := by
      rw [counted]
      exact List.mem_range.mpr (by omega)
    have := (listed _ last).2
    omega
  rw [deliveredRows, counted, List.length_range]
  clear counted listed gapless ascending line ledger complete
  generalize (handedIds table final.shared.history).length = count at inside ⊢
  induction count with
  | zero => rfl
  | succ count ih =>
      have present : (emitted table)[count]? = some (emitted table)[count] :=
        List.getElem?_eq_getElem (by omega)
      rw [List.range_succ, List.flatMap_append, List.flatMap_singleton, ih (by omega),
        List.take_add_one, List.flatMap_append, present]
      simp [storedSource, present]

end Replayed

/-- The number of rows that name the operation. -/
def countOp (op : Op) (rows : List (Row Key Data)) : Nat := rows.countP fun row => row.op = some op

theorem countOp_cons (op : Op) (row : Row Key Data) (rest : List (Row Key Data)) :
    countOp op (row :: rest) = countOp op rest + if row.op = some op then 1 else 0 := by
  simp [countOp, List.countP_cons]

/-- The creates and deletes of the rows are those of their log. -/
theorem length_keyLog (rows : List (Row Key Data)) :
    (keyLog rows).created.length = countOp .create rows ∧
      (keyLog rows).deleted.length = countOp .delete rows := by
  unfold KeyLog.created KeyLog.deleted keyLog countOp
  rw [List.filterMap_filterMap, List.filterMap_filterMap, List.length_filterMap_eq_countP,
    List.length_filterMap_eq_countP]
  constructor
  · apply List.countP_congr
    intro row _
    unfold Row.change?
    split <;> simp_all [Change.createdKey?]
  · apply List.countP_congr
    intro row _
    unfold Row.change?
    split <;> simp_all [Change.deletedKey?]

theorem rowsNet_eq {rows : List (Row Key Data)} (known : ∀ row ∈ rows,
    row.op = some .create ∨ row.op = some .update ∨ row.op = some .delete) :
    rowsNet rows = (countOp .create rows : Int) - countOp .delete rows := by
  induction rows with
  | nil => rfl
  | cons row rest ih =>
      have tail := ih fun other member => known other (List.mem_cons_of_mem _ member)
      have head : rowsNet (row :: rest) = (opStrToInsertOp (opValue row) []).delta + rowsNet rest := by
        simp [rowsNet]
      rw [head, tail, countOp_cons, countOp_cons]
      rcases known row List.mem_cons_self with op | op | op
      · have value : (opStrToInsertOp (opValue row) []).delta = 1 := by
          rw [opValue, op]
          rfl
        simp only [value, op, if_true, reduceCtorEq, Option.some.injEq, if_false]
        omega
      · have value : (opStrToInsertOp (opValue row) []).delta = 0 := by
          rw [opValue, op]
          rfl
        simp only [value, op, reduceCtorEq, Option.some.injEq, if_false]
        omega
      · have value : (opStrToInsertOp (opValue row) []).delta = -1 := by
          rw [opValue, op]
          rfl
        simp only [value, op, if_true, reduceCtorEq, Option.some.injEq, if_false]
        omega

/-- The operations of the stream reach the sink as they are. -/
def OperationsKept (config : EtlConfig Key Data) (emitted : Table → List (RecordBatch Key Data)) : Prop :=
  ∀ table (batch : RecordBatch Key Data) (keyColumns : List String), DrawnFrom (emitted table) batch →
    (assigned (buildSegmentsForBatch config.opIndexSort batch keyColumns config.mutations)).Perm
      (batch.rows.map (withOwnOp keyColumns))

/-- Every row of the streams creates, updates or deletes. -/
def KnownOps (emitted : Table → List (RecordBatch Key Data)) : Prop :=
  ∀ table, ∀ batch ∈ emitted table, ∀ row ∈ batch.rows,
    row.op = some .create ∨ row.op = some .update ∨ row.op = some .delete

omit [DecidableEq Table] in
theorem mem_storedSource {emitted : Table → List (RecordBatch Key Data)} {table : Table} {batchId : Nat}
    {row : Row Key Data} (member : row ∈ (storedSource emitted).rows table batchId) :
    ∃ batch ∈ emitted table, row ∈ batch.rows := by
  simp only [storedSource] at member
  cases found : (emitted table)[batchId]? with
  | none => simp [found] at member
  | some batch =>
      rw [found] at member
      exact ⟨batch, List.mem_of_getElem? found, member⟩

omit [DecidableEq Table] in
/-- A batch of kept operations is counted as its rows name themselves. -/
theorem OperationsKept.exact {config : EtlConfig Key Data}
    {emitted : Table → List (RecordBatch Key Data)} (kept : OperationsKept config emitted)
    (known : KnownOps emitted) : (storedSource emitted).Exact config := by
  intro table keyColumns batch schema drawn
  have rows : ∀ row ∈ batch.rows, ∃ source ∈ emitted table, row ∈ source.rows := by
    intro row member
    obtain ⟨batchId, inside⟩ := drawn row member
    exact mem_storedSource inside
  have ops : ∀ row ∈ batch.rows,
      row.op = some .create ∨ row.op = some .update ∨ row.op = some .delete := by
    intro row member
    obtain ⟨source, stored, inside⟩ := rows row member
    exact known table source stored row inside
  have labelled : batch.schema.hasOp = true := by
    rw [schema]
    rfl
  have own : (assigned (buildSegmentsForBatch config.opIndexSort batch keyColumns config.mutations)).Perm
      (batch.rows.map (withOwnOp keyColumns)) := by
    rw [assigned_own_iff _ _ _ labelled ops]
    intro zero row member
    obtain ⟨source, stored, inside⟩ := rows row member
    -- the row alone is a batch of the stream, and its own operation is kept
    have single : DrawnFrom (emitted table) ⟨changeSchema, [row]⟩ := by
      refine ⟨rfl, ?_⟩
      rw [List.singleton_sublist]
      exact List.mem_flatMap.mpr ⟨source, stored, inside⟩
    have alone := kept table _ keyColumns single
    rw [assigned_own_iff _ _ _ rfl (by simpa using ops row member)] at alone
    exact alone zero row (by simp)
  unfold batchNet
  rw [netDelta_eq_assigned, (own.map fun row => row.2.delta).sum_eq, List.map_map]
  unfold rowsNet
  congr 1
  apply List.map_congr_left
  intro row _
  simp only [Function.comp_apply, withOwnOp]
  cases opValue row <;> rfl

/-- The counter of a table is its creates minus its deletes, is not clamped, and is the number of
its live keys. -/
structure CountsLive [DecidableEq Key] (final : ETLPipeline Table Key Data) (table : Table)
    (delivered : List (Row Key Data)) : Prop where
  counter : (final.shared.netRows table).getD 0 =
    (countOp .create delivered : Int) - countOp .delete delivered
  expected : (((final.expectedRowCounts table).getD 0 : Nat) : Int) =
    (countOp .create delivered : Int) - countOp .delete delivered
  live : (final.expectedRowCounts table).getD 0 = ((keyLog delivered).replay ∅).card

theorem Replayed.countsLive [DecidableEq Key] {config : EtlConfig Key Data}
    {environment : Environment Table Key Data} {metadata : Metadata Table}
    {emitted : Table → List (RecordBatch Key Data)} {actions : List (PipelineAction Table Key Data)}
    {final : ETLPipeline Table Key Data}
    (replayed : Replayed config environment metadata emitted actions final)
    (kept : OperationsKept config emitted) (known : KnownOps emitted)
    (valid : ∀ table, (streamLog (emitted table)).Valid ∅) (table : Table) :
    CountsLive final table (deliveredRows emitted final table) := by
  obtain ⟨run, ended, current⟩ := replayed.current
  have delivered := (current.settled ended).2.2.2 trivial
  have counter := delivered.counts (kept.exact known) table
  have handed : handedSince [] final.shared table = handedIds table final.shared.history := rfl
  rw [handed, add_zero, zero_add] at counter
  have ops : ∀ row ∈ deliveredRows emitted final table,
      row.op = some .create ∨ row.op = some .update ∨ row.op = some .delete := by
    intro row member
    obtain ⟨batchId, _, inside⟩ := List.mem_flatMap.mp member
    obtain ⟨batch, stored, held⟩ := mem_storedSource inside
    exact known table batch stored row held
  have net : (final.shared.netRows table).getD 0 = (countOp .create (deliveredRows emitted final table) : Int) -
      countOp .delete (deliveredRows emitted final table) := counter.trans (rowsNet_eq ops)
  have replays : (keyLog (deliveredRows emitted final table)).Valid ∅ := by
    obtain ⟨count, first⟩ := replayed.delivered_take table
    have log : keyLog (deliveredRows emitted final table) = streamLog ((emitted table).take count) := by
      simp only [first, streamLog, keyLog, List.filterMap_flatMap]
    have whole := valid table
    rw [← List.take_append_drop count (emitted table), streamLog_append, KeyLog.valid_append] at whole
    rw [log]
    exact whole.1
  have card := KeyLog.card_replay replays
  obtain ⟨creates, deletes⟩ := length_keyLog (deliveredRows emitted final table)
  rw [creates, deletes, Finset.card_empty] at card
  have expected : (final.expectedRowCounts table).getD 0 = ((final.shared.netRows table).getD 0).toNat := by
    unfold ETLPipeline.expectedRowCounts
    cases final.shared.netRows table <;> rfl
  refine ⟨net, ?_, ?_⟩
  · rw [expected, net]
    omega
  · rw [expected, net]
    omega

/-- The expected row counts are the live row counts in every paused or completed state, for the
streams of both datasets. -/
theorem expected_row_counts_live :
    (∀ {Key Data : Type} [DecidableEq Key] (dataset : TpchDataset) (gen : TpchGen Key Data) state
      (config : EtlConfig Key Data) environment metadata actions final, dataset.DistinctKeys gen →
      Generates (dataset.tpch gen) state → OperationsKept config state.emitted →
      Replayed config environment metadata state.emitted actions final →
        ∀ table, CountsLive final table (deliveredRows state.emitted final table)) ∧
      ∀ (dataset : SimpleSequenceDataset) state (config : EtlConfig Int (Option Int)) environment
        metadata actions final, Generates dataset.simpleSequence state →
        OperationsKept config state.emitted →
        Replayed config environment metadata state.emitted actions final →
          ∀ table, CountsLive final table (deliveredRows state.emitted final table) := by
  constructor
  · intro Key Data _ dataset gen state config environment metadata actions final distinct generated
      kept replayed table
    refine replayed.countsLive kept ?_ ?_ table
    · intro table batch member row held
      obtain ⟨step, found⟩ := List.mem_iff_getElem?.mp member
      obtain ⟨changes, opBase, emitted⟩ :=
        (TpchDataset.steps_of_generates generated table).batches step batch found
      rw [emitted.shape] at held
      exact changes.op_of_mem_rows held
    · intro table
      obtain ⟨live, keys⟩ := TpchDataset.keys_of_generates distinct generated table
      exact keys.stream.valid
  · intro dataset state config environment metadata actions final generated kept replayed table
    have keys := SimpleSequenceDataset.keys_of_generates generated
    refine replayed.countsLive kept ?_ (fun _ => keys.stream.valid) table
    intro table batch member row held
    obtain ⟨changes, opBase, rfl, _⟩ := keys.batches batch member
    exact changes.op_of_mem_rows held

/-- This storage answers every read with the batch it holds, and never fails. -/
def storedEnvironment (emitted : Table → List (RecordBatch Key Data)) : Environment Table Key Data where
  reads table batchId outcome :=
    outcome = .ok (some ⟨[⟨changeSchema, (storedSource emitted).rows table batchId⟩], ["id"]⟩)
  writeFails _ _ _ := False
  flushFails _ := False
  cancels := False

omit [DecidableEq Table] in
theorem storedEnvironment_healthy (emitted : Table → List (RecordBatch Key Data))
    (planned : Table → Nat → Prop) : (storedEnvironment emitted).Healthy planned := by
  constructor
  · intro _ batchId outcome _ read
    exact ⟨_, read, by simp⟩
  · exact fun _ _ _ => id
  · exact fun _ => id
  · exact id

omit [DecidableEq Table] in
theorem storedEnvironment_serves (emitted : Table → List (RecordBatch Key Data))
    (planned : Table → Nat → Prop) : (storedEnvironment emitted).Serves (storedSource emitted) planned := by
  intro table batchId result _ read
  injection read with read
  injection read with read
  subst read
  exact ⟨by simp [ReadResult.rows], by simp [storedSource]⟩

/-- Two rows are created by the first call, and the second one creates and deletes one row. -/
def sequenceSample : SimpleSequenceDataset := ⟨2, 2, ⟨.finite 0, .finite (1 / 2), false, 0, .finite 0⟩⟩

def sequenceDraws : SequenceDraws := plainDraws

def sequenceEmitted : List (RecordBatch Int (Option Int)) :=
  [⟨changeSchema, [⟨0, some 0, some .create, 0⟩, ⟨1, some 10, some .create, 1⟩]⟩,
    ⟨changeSchema, [⟨2, some 20, some .create, 2⟩, ⟨0, none, some .delete, 3⟩]⟩]

def sequenceConfig : EtlConfig Int (Option Int) where
  targetBatchRows := 10
  targetPositive := sampleConfig.targetPositive
  sinkChunkRows := 0
  mutations := sequenceSample.mutations
  opIndexSort := .stable

def sequenceRead (batchId : Nat) : ReadOutcome Int (Option Int) :=
  .ok (some ⟨[⟨changeSchema, (storedSource fun (_ : Unit) => sequenceEmitted).rows () batchId⟩], ["id"]⟩)

def sequenceMetadata : Metadata Unit := ⟨[()], List.nodup_singleton (), fun _ => [0, 1], fun _ => 2⟩

/-- One run takes both batches of the sample at once and completes. -/
def sequenceTrace : List (PipelineAction Unit Int (Option Int)) :=
  [.call (.run 5 [()]), .background 0 .start, .background 0 (.loopHead false (.ok ())),
    .background 0 (.task () .reserve), .background 0 (.task () (.join 0 (sequenceRead 0))),
    .background 0 (.task () .reserve), .background 0 (.task () (.join 1 (sequenceRead 1))),
    .background 0 (.task () .nextBatch), .background 0 (.task () .nextSegment),
    .background 0 (.task () (.writeChunk 0 (.ok ()))), .background 0 (.task () .nextSegment),
    .background 0 (.task () (.writeChunk 0 (.ok ()))), .background 0 (.task () .finish),
    .background 0 (.collect ()), .background 0 .stepDone, .background 0 (.loopHead false (.ok ())),
    .publish 0]

/-- The sample ends with three creates and one delete, hence two live keys. -/
theorem expected_row_counts_live_sequence :
    ∃ (state : GeneratorState Unit SequenceState Int (Option Int))
      (final : ETLPipeline Unit Int (Option Int)), final.expectedRowCounts () = some 2 ∧
        CountsLive final () (deliveredRows state.emitted final ()) := by
  have generated : (runCalls sequenceSample.simpleSequence
      [((), sequenceDraws), ((), sequenceDraws)]).map (fun state => state.emitted ()) =
      some sequenceEmitted := by
    decide +kernel
  obtain ⟨state, reached, emitted⟩ := generates_of_runCalls generated
  have same : state.emitted = fun _ => sequenceEmitted := by
    funext table
    exact emitted
  have ended : ((pipelineMachine sequenceConfig (storedEnvironment fun _ => sequenceEmitted)
      sequenceMetadata).run (.new sequenceMetadata) sequenceTrace).map
        (fun final => (final.state, final.expectedRowCounts ())) =
      some (.stopped .completed, some 2) := by
    decide +kernel
  rw [← same] at ended
  obtain ⟨final, ran, both⟩ := Option.map_eq_some_iff.mp ended
  obtain ⟨completed, expected⟩ := Prod.mk.inj both
  have kept : OperationsKept sequenceConfig state.emitted :=
    fun _ _ keyColumns drawn => assigned_sequence _ keyColumns reached drawn
  refine ⟨state, final, expected, expected_row_counts_live.2 sequenceSample state sequenceConfig
    (storedEnvironment state.emitted) sequenceMetadata sequenceTrace final reached kept ?_ ()⟩
  refine ⟨?_, storedEnvironment_healthy _ _, storedEnvironment_serves _ _, ?_, ?_, ?_, ran,
    .inr completed⟩
  · rintro ⟨⟩ _
    rw [same]
    decide
  · simp [sequenceTrace, Environment.AdmitsPipeline, Environment.AdmitsRun, Environment.AdmitsTask,
      Environment.AdmitsFlush, sequenceMetadata, storedEnvironment, sequenceRead, same]
  · simp [sequenceTrace]
  · exact .inr ⟨5, [()], [], rfl, by decide, by simp [ContinueOnly]⟩

end Spicebench.Etl
