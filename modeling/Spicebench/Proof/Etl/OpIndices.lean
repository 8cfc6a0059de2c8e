import Spicebench.Construction.Etl.Segments
import Spicebench.Proof.Dataset.SimpleSequence
import Spicebench.Proof.Dataset.TpchStream

namespace Spicebench.DataGeneration
open Library

variable {Key Data : Type}

/-- The op indices of all rows increase strictly in emission order. -/
def Increasing (batches : List (RecordBatch Key Data)) : Prop :=
  (batches.flatMap RecordBatch.rows).Pairwise fun first second => first.opIndex < second.opIndex

/-- The stream is in order, and all of its op indices are below the counter. -/
structure Numbered (batches : List (RecordBatch Key Data)) (opCounter : Int) : Prop where
  increasing : Increasing batches
  below : ∀ row ∈ batches.flatMap RecordBatch.rows, row.opIndex < opCounter

/-- The rows of a batch take consecutive indices from its base on. -/
theorem Changes.opIndex_rows (changes : Changes Key Data) (opBase : Int) :
    (changes.rows opBase).map Row.opIndex =
      (List.range changes.tagged.length).map fun (index : Nat) => opBase + index := by
  apply List.ext_getElem
  · simp [Changes.rows]
  · intro index inside _
    simp [Changes.rows]

theorem Changes.increasing_rows (changes : Changes Key Data) (opBase : Int) :
    (changes.rows opBase).Pairwise fun first second => first.opIndex < second.opIndex := by
  rw [← List.pairwise_map (f := Row.opIndex) (R := (· < ·)), changes.opIndex_rows, List.pairwise_map]
  apply List.pairwise_lt_range.imp
  intro first second less
  omega

theorem Changes.mem_opIndex_rows {changes : Changes Key Data} {opBase : Int} {row : Row Key Data}
    (member : row ∈ changes.rows opBase) :
    opBase ≤ row.opIndex ∧ row.opIndex < opBase + changes.tagged.length := by
  have listed := List.mem_map_of_mem (f := Row.opIndex) member
  rw [changes.opIndex_rows, List.mem_map] at listed
  obtain ⟨index, inside, same⟩ := listed
  rw [List.mem_range] at inside
  omega

namespace Numbered

variable {batches : List (RecordBatch Key Data)} {opCounter next : Int}

theorem nil (opCounter : Int) : Numbered ([] : List (RecordBatch Key Data)) opCounter :=
  ⟨List.Pairwise.nil, by simp⟩

theorem mono (numbered : Numbered batches opCounter) (later : opCounter ≤ next) : Numbered batches next :=
  ⟨numbered.increasing, fun row member => lt_of_lt_of_le (numbered.below row member) later⟩

/-- A batch that starts at the counter and stays below the next value of it continues the stream. -/
theorem push (numbered : Numbered batches opCounter) {changes : Changes Key Data}
    (room : opCounter + changes.tagged.length ≤ next) :
    Numbered (batches ++ [changes.batch opCounter]) next := by
  constructor
  · unfold Increasing
    rw [List.flatMap_append, List.flatMap_singleton]
    refine List.pairwise_append.mpr ⟨numbered.increasing, changes.increasing_rows opCounter, ?_⟩
    intro first old second new
    have before := numbered.below first old
    have after := Changes.mem_opIndex_rows new
    omega
  · intro row member
    rw [List.flatMap_append, List.flatMap_singleton, List.mem_append] at member
    rcases member with old | new
    · have before := numbered.below row old
      omega
    · have after := Changes.mem_opIndex_rows new
      omega

end Numbered

/-- The start of an ordered stream is ordered. -/
theorem Increasing.of_start {batches longer : List (RecordBatch Key Data)} (increasing : Increasing longer)
    (start : batches <+: longer) : Increasing batches :=
  increasing.sublist (start.sublist.flatMap RecordBatch.rows)

/-- Two rows of different batches of an ordered stream are in order. -/
theorem Increasing.lt {batches : List (RecordBatch Key Data)} {first second : RecordBatch Key Data}
    (increasing : Increasing (batches ++ [first] ++ [second])) {early late : Row Key Data}
    (inFirst : early ∈ first.rows) (inSecond : late ∈ second.rows) : early.opIndex < late.opIndex := by
  unfold Increasing at increasing
  rw [List.flatMap_append, List.flatMap_append, List.flatMap_singleton, List.flatMap_singleton] at increasing
  exact (List.pairwise_append.mp increasing).2.2 early (List.mem_append_right _ inFirst) late inSecond

namespace TpchDataset

variable [DecidableEq Key] {dataset : TpchDataset} {gen : TpchGen Key Data}

/-- A call reserves exactly as many op indices as its batch has rows. -/
theorem rawNextBatch_counter {state next : TpchState Key} {table : TpchTable} {draws : TpchDraws Data}
    {outcome : NextBatch Key Data} (called : dataset.rawNextBatch gen state table draws = (outcome, next)) :
    state.opCounter ≤ next.opCounter ∧ ∀ batch, outcome = .ok (some batch) →
      ∃ changes : Changes Key Data, batch = changes.batch state.opCounter ∧
        next.opCounter = state.opCounter + changes.tagged.length := by
  unfold rawNextBatch at called
  dsimp only at called
  obtain ⟨rfl, rfl⟩ := Prod.mk.inj called
  refine ⟨by simp, ?_⟩
  intro batch emitted
  cases result : (dataset.nextChanges gen table (state.tables table) draws).1 with
  | error failure =>
      rw [result] at emitted
      exact nomatch emitted
  | ok changes? =>
      cases changes? with
      | none =>
          rw [result] at emitted
          exact nomatch emitted
      | some changes =>
          rw [result] at emitted
          exact ⟨changes, (Option.some.inj (Except.ok.inj emitted)).symm, rfl⟩

/-- Every table numbers its rows below the counter that the tables share. -/
theorem numbered_of_generates {state : GeneratorState TpchTable (TpchState Key) Key Data}
    (generated : Generates (dataset.tpch gen) state) (table : TpchTable) :
    Numbered (state.emitted table) state.dataset.opCounter := by
  refine generated.invariant (fun state => ∀ table, Numbered (state.emitted table) state.dataset.opCounter)
    ?_ ?_ table
  · intro _
    exact .nil _
  · intro before called draws after _ _ move numbered table
    cases move with
    | batch batch next call =>
        obtain ⟨later, emits⟩ := rawNextBatch_counter call
        obtain ⟨changes, rfl, reserved⟩ := emits batch rfl
        by_cases same : table = called
        · subst same
          simp only [Function.update_self]
          exact (numbered table).push (le_of_eq reserved.symm)
        · simp only [Function.update_of_ne same]
          exact (numbered table).mono later
    | finish next call => exact (numbered table).mono (rawNextBatch_counter call).1
    | fail failure next call => exact (numbered table).mono (rawNextBatch_counter call).1

end TpchDataset

namespace SimpleSequenceDataset

variable (dataset : SimpleSequenceDataset)

/-- The ratios ask for this many updates and deletes in each batch. -/
def requestedMutations : Nat :=
  (F64.ofNat dataset.batchSize * dataset.mutations.updateRatio).round.toUsize +
    (F64.ofNat dataset.batchSize * dataset.mutations.deleteRatio).round.toUsize

/-- The updates and deletes that the ratios ask for fit into one batch, or there are no more keys than fit. -/
def fits (state : GeneratorState Unit SequenceState Int (Option Int)) (_call : Unit × SequenceDraws) : Bool :=
  decide (dataset.requestedMutations ≤ dataset.batchSize) ||
    decide (state.dataset.keySet.len ≤ dataset.batchSize)

variable {dataset}

/-- A call that returns a batch advances the counter by the batch size, whatever the batch holds. -/
theorem rawNextBatch_counter {state next : SequenceState} {draws : SequenceDraws}
    {batch : RecordBatch Int (Option Int)}
    (called : dataset.rawNextBatch state () draws = (.ok (some batch), next)) :
    ∃ changes : Changes Int (Option Int), batch = changes.batch state.opCounter ∧
      next.opCounter = state.opCounter + dataset.batchSize ∧
      changes.tagged.length = (dataset.operationCounts state.keySet.len).1 +
        min ((dataset.operationCounts state.keySet.len).2.1 + (dataset.operationCounts state.keySet.len).2.2)
          state.keySet.len := by
  unfold rawNextBatch at called
  dsimp only at called
  split at called
  · exact nomatch called
  split at called
  · exact nomatch called
  rename_i enough
  obtain ⟨outcome, rfl⟩ := Prod.mk.inj called
  refine ⟨_, (Option.some.inj (Except.ok.inj outcome)).symm, rfl, ?_⟩
  rw [Changes.length_tagged, length_withData, List.length_map, newRows, List.length_map, List.length_range,
    Nat.add_assoc, ← List.length_append, List.take_append_drop, IndexedKeySet.length_sampleKeys]

/-- The counts of a batch either follow the request, or are capped to the keys that exist. -/
theorem operationCounts_spec (dataset : SimpleSequenceDataset) (existingCount : Nat) :
    (dataset.operationCounts existingCount).1 = dataset.batchSize -
        ((dataset.operationCounts existingCount).2.1 + (dataset.operationCounts existingCount).2.2) ∧
      (existingCount ≠ 0 → dataset.requestedMutations ≤ existingCount →
        (dataset.operationCounts existingCount).2.1 + (dataset.operationCounts existingCount).2.2 =
          dataset.requestedMutations) := by
  unfold operationCounts requestedMutations
  dsimp only
  split_ifs with empty
  · simp [empty]
  · refine ⟨rfl, ?_⟩
    intro _ enough
    rw [capToExisting, if_neg (by simpa using enough)]

/-- No batch of a step that fits has more rows than the counter advances by. -/
theorem rows_le_of_fits {state : GeneratorState Unit SequenceState Int (Option Int)} {draws : SequenceDraws}
    {length : Nat} (fit : dataset.fits state ((), draws) = true)
    (rows : length = (dataset.operationCounts state.dataset.keySet.len).1 +
      min ((dataset.operationCounts state.dataset.keySet.len).2.1 +
        (dataset.operationCounts state.dataset.keySet.len).2.2) state.dataset.keySet.len) :
    length ≤ dataset.batchSize := by
  obtain ⟨creates, capped⟩ := dataset.operationCounts_spec state.dataset.keySet.len
  rw [fits, Bool.or_eq_true, decide_eq_true_eq, decide_eq_true_eq] at fit
  rw [creates] at rows
  rcases fit with small | few
  · by_cases enough : state.dataset.keySet.len ≠ 0 ∧ dataset.requestedMutations ≤ state.dataset.keySet.len
    · have requested := capped enough.1 enough.2
      omega
    · omega
  · omega

/-- Every run whose steps fit is in order. -/
theorem numbered_of_fits {state : GeneratorState Unit SequenceState Int (Option Int)}
    (generated : (generator dataset.simpleSequence).ReachesWhen dataset.fits
      (generatorStart dataset.simpleSequence) state) :
    Numbered (state.emitted ()) state.dataset.opCounter := by
  refine generated.invariant (fun state => Numbered (state.emitted ()) state.dataset.opCounter) ?_ (.nil _)
  rintro before after numbered ⟨⟨⟨⟩, draws⟩, _, fit, stepped⟩
  obtain ⟨_, _, move⟩ := generatorStep_moves stepped
  cases move with
  | batch batch next call =>
      obtain ⟨changes, rfl, advanced, rows⟩ := rawNextBatch_counter call
      have room := rows_le_of_fits fit rows
      simp only [Function.update_self, advanced]
      exact numbered.push (by omega)
  | finish next call =>
      obtain ⟨_, _, same⟩ := rawNextBatch_quiet call (by simp)
      simp only [same]
      exact numbered
  | fail failure next call =>
      obtain ⟨_, _, same⟩ := rawNextBatch_quiet call (by simp)
      simp only [same]
      exact numbered

/-- No batch is empty. -/
theorem rows_positive (positive : 1 ≤ dataset.batchSize) (existingCount : Nat) :
    0 < (dataset.operationCounts existingCount).1 + min ((dataset.operationCounts existingCount).2.1 +
      (dataset.operationCounts existingCount).2.2) existingCount := by
  obtain ⟨creates, _⟩ := dataset.operationCounts_spec existingCount
  by_cases empty : existingCount = 0
  · simp only [operationCounts, empty, if_true]
    omega
  · omega

/-- A call that appends a batch to the stream appends it at the end, and the stream never shrinks. -/
theorem emitted_start {before after : GeneratorState Unit SequenceState Int (Option Int)}
    (path : (generator dataset.simpleSequence).Reaches before after) : before.emitted () <+: after.emitted () := by
  refine path.invariant (fun state => before.emitted () <+: state.emitted ()) ?_ (List.prefix_refl _)
  rintro state next start ⟨⟨⟨⟩, draws⟩, _, stepped⟩
  obtain ⟨_, _, move⟩ := generatorStep_moves stepped
  cases move with
  | batch batch next call =>
      simp only [Function.update_self]
      exact start.trans (List.prefix_append _ _)
  | finish => exact start
  | fail => exact start

/-- Whenever the stream grows later on, the next call returns a batch. -/
theorem exists_next {before after : GeneratorState Unit SequenceState Int (Option Int)}
    (path : (generator dataset.simpleSequence).Reaches before after)
    (longer : (before.emitted ()).length < (after.emitted ()).length) :
    ∃ middle changes, (generator dataset.simpleSequence).Reaches middle after ∧
      middle.emitted () = before.emitted () ++ [Changes.batch changes before.dataset.opCounter] ∧
      middle.dataset.opCounter = before.dataset.opCounter + dataset.batchSize ∧
      changes.tagged.length = (dataset.operationCounts before.dataset.keySet.len).1 +
        min ((dataset.operationCounts before.dataset.keySet.len).2.1 +
          (dataset.operationCounts before.dataset.keySet.len).2.2) before.dataset.keySet.len := by
  rcases Relation.ReflTransGen.cases_head path with rfl | ⟨middle, ⟨⟨⟨⟩, draws⟩, _, stepped⟩, rest⟩
  · omega
  · -- A table that has finished or failed makes no further call.
    have done : ∀ state : GeneratorState Unit SequenceState Int (Option Int),
        state.failed = true ∨ state.finished () = true →
        (generator dataset.simpleSequence).Reaches state after → after = state := by
      intro state closed path
      rcases Relation.ReflTransGen.cases_head path with same | ⟨_, ⟨⟨⟨⟩, _⟩, _, impossible⟩, _⟩
      · exact same.symm
      · obtain ⟨running, unfinished, _⟩ := generatorStep_moves impossible
        simp [running, unfinished] at closed
    obtain ⟨_, _, move⟩ := generatorStep_moves stepped
    cases move with
    | batch batch next call =>
        obtain ⟨changes, rfl, advanced, rows⟩ := rawNextBatch_counter call
        exact ⟨_, changes, rest, by simp, advanced, rows⟩
    | finish next call =>
        rw [done _ (.inr (by simp)) rest] at longer
        simp at longer
    | fail failure next call =>
        rw [done _ (.inl rfl) rest] at longer
        simp at longer

/-- After a call that returns more rows than a batch should have, the next one repeats an index. -/
theorem not_increasing_of_overfull (positive : 1 ≤ dataset.batchSize)
    {before after : GeneratorState Unit SequenceState Int (Option Int)}
    (large : dataset.batchSize < dataset.requestedMutations)
    (enough : dataset.requestedMutations ≤ before.dataset.keySet.len)
    (path : (generator dataset.simpleSequence).Reaches before after)
    (longer : (before.emitted ()).length + 2 ≤ (after.emitted ()).length) : ¬ Increasing (after.emitted ()) := by
  intro increasing
  obtain ⟨middle, changes, rest, emitted, advanced, rows⟩ := exists_next path (by omega)
  obtain ⟨next, following, last, continued, _, others⟩ := exists_next rest (by
    rw [emitted, List.length_append, List.length_singleton]
    omega)
  obtain ⟨_, requested⟩ := dataset.operationCounts_spec before.dataset.keySet.len
  rw [requested (by omega) enough] at rows
  have some := rows_positive positive middle.dataset.keySet.len
  rw [← others] at some
  -- The batch has a row at the index where the next batch starts.
  have first : dataset.batchSize < changes.tagged.length := by omega
  have early : (before.dataset.opCounter + dataset.batchSize) ∈
      (changes.rows before.dataset.opCounter).map Row.opIndex := by
    rw [changes.opIndex_rows, List.mem_map]
    exact ⟨dataset.batchSize, List.mem_range.mpr first, rfl⟩
  have late : (before.dataset.opCounter + dataset.batchSize) ∈
      (following.rows middle.dataset.opCounter).map Row.opIndex := by
    rw [following.opIndex_rows, List.mem_map]
    exact ⟨0, List.mem_range.mpr some, by simp [advanced]⟩
  obtain ⟨one, inFirst, same⟩ := List.mem_map.mp early
  obtain ⟨two, inSecond, equal⟩ := List.mem_map.mp late
  have start := increasing.of_start (emitted_start last)
  rw [continued, emitted] at start
  have less := start.lt inFirst inSecond
  omega

end SimpleSequenceDataset

end Spicebench.DataGeneration

namespace Spicebench.Etl
open Library DataGeneration

variable {Key Data : Type}

/-- Every sort by op index brings rows of the stream, in whatever order they arrive, back into emission order. -/
def SortRestores (batches : List (RecordBatch Key Data)) : Prop :=
  ∀ rows shuffled, rows.Sublist (batches.flatMap RecordBatch.rows) → shuffled.Perm rows →
    ∀ sort : OpIndexSort Key Data, sort.sort shuffled = rows

theorem sortRestores_of_increasing {batches : List (RecordBatch Key Data)} (increasing : Increasing batches) :
    SortRestores batches := by
  intro rows shuffled drawn perm sort
  have strict := increasing.sublist drawn
  have distinct : (rows.map Row.opIndex).Nodup := List.pairwise_map.mpr (strict.imp ne_of_lt)
  have together := (sort.perm shuffled).trans perm
  refine together.eq_of_pairwise ?_ (sort.sorted shuffled) (strict.imp le_of_lt)
  intro first second inFirst inSecond below above
  exact List.inj_on_of_nodup_map distinct (together.subset inFirst) inSecond (le_antisymm below above)

/-- The op indices of a table increase strictly over a whole run of either dataset, so that a sort restores the
emission order: always for TPC-H, and for the integer sequence in every run whose steps fit. A step of the sequence
that requests more mutations than a batch has rows, with as many keys to mutate, makes the next batch repeat an
index. -/
theorem op_indices_order_stream [DecidableEq Key] (tpch : TpchDataset) (gen : TpchGen Key Data)
    (sequence : SimpleSequenceDataset) :
    (∀ state, Generates (tpch.tpch gen) state → ∀ table,
      Increasing (state.emitted table) ∧ SortRestores (state.emitted table)) ∧
    (∀ state, (generator sequence.simpleSequence).ReachesWhen sequence.fits
      (generatorStart sequence.simpleSequence) state →
      Increasing (state.emitted ()) ∧ SortRestores (state.emitted ())) ∧
    (1 ≤ sequence.batchSize → ∀ before after, Generates sequence.simpleSequence before →
      sequence.batchSize < sequence.requestedMutations →
      sequence.requestedMutations ≤ before.dataset.keySet.len →
      (generator sequence.simpleSequence).Reaches before after →
      (before.emitted ()).length + 2 ≤ (after.emitted ()).length → ¬ Increasing (after.emitted ())) := by
  refine ⟨?_, ?_, ?_⟩
  · intro state generated table
    have numbered := TpchDataset.numbered_of_generates generated table
    exact ⟨numbered.increasing, sortRestores_of_increasing numbered.increasing⟩
  · intro state generated
    have numbered := SimpleSequenceDataset.numbered_of_fits generated
    exact ⟨numbered.increasing, sortRestores_of_increasing numbered.increasing⟩
  · intro positive before after _ large enough path longer
    exact SimpleSequenceDataset.not_increasing_of_overfull positive large enough path longer

def plainDraws : SequenceDraws := ⟨.first, fun _ => 0⟩

/-- Two rows a batch, half of them updates. -/
def halfUpdated : SimpleSequenceDataset := ⟨2, 3, ⟨.finite (1 / 2), .finite 0, false, 0, .finite 0⟩⟩

/-- The run of a sequence with updates fits, and its four rows so far are in order. -/
theorem op_indices_order_stream_sample :
    ∃ state, (generator halfUpdated.simpleSequence).ReachesWhen halfUpdated.fits
        (generatorStart halfUpdated.simpleSequence) state ∧
      (state.emitted ()).flatMap (fun batch => batch.rows.map fun row => (row.op, row.opIndex)) =
        [(some .create, 0), (some .create, 1), (some .create, 2), (some .update, 3)] ∧
      Increasing (state.emitted ()) := by
  have ran : ((generator halfUpdated.simpleSequence).runWhen halfUpdated.fits
      (generatorStart halfUpdated.simpleSequence) [((), plainDraws), ((), plainDraws)]).map (fun state =>
        (state.emitted ()).flatMap (fun batch => batch.rows.map fun row => (row.op, row.opIndex))) =
      some [(some .create, 0), (some .create, 1), (some .create, 2), (some .update, 3)] := by
    decide +kernel
  obtain ⟨state, reached, rows⟩ := Option.map_eq_some_iff.mp ran
  have path := Machine.reachesWhen_of_runWhen _ (fun _ _ => trivial) reached
  have order := @op_indices_order_stream Nat Unit _ ⟨.finite 0, 0, halfUpdated.mutations⟩
    ⟨fun _ _ _ _ => [], ()⟩ halfUpdated
  exact ⟨state, path, rows, (order.2.1 state path).1⟩

/-- One row a batch, with even odds for an update and a delete. -/
def evenlyMutated (mutations : MutationConfig) : SimpleSequenceDataset := ⟨1, 4, mutations⟩

/-- The third batch has an update and a delete where the counter advances by one, so the fourth one repeats the index
of the delete. -/
theorem op_index_repeated :
    ∃ mutations, MutationConfig.new (.finite (1 / 2)) (.finite (1 / 2)) = some mutations ∧
      ∃ state, Generates (evenlyMutated mutations).simpleSequence state ∧
        (state.emitted ()).flatMap (fun batch => batch.rows.map fun row => (row.op, row.opIndex)) =
          [(some .create, 0), (some .create, 1), (some .update, 2), (some .delete, 3), (some .create, 3)] ∧
        ¬ Increasing (state.emitted ()) := by
  refine ⟨⟨.finite (1 / 2), .finite (1 / 2), false, 0, .finite 0⟩, by decide +kernel, ?_⟩
  have ran : (runCalls (evenlyMutated ⟨.finite (1 / 2), .finite (1 / 2), false, 0, .finite 0⟩).simpleSequence
      [((), plainDraws), ((), plainDraws), ((), plainDraws), ((), plainDraws)]).map (fun state =>
        (state.emitted ()).flatMap (fun batch => batch.rows.map fun row => (row.op, row.opIndex))) =
      some [(some .create, 0), (some .create, 1), (some .update, 2), (some .delete, 3), (some .create, 3)] := by
    decide +kernel
  obtain ⟨state, generated, rows⟩ := generates_of_runCalls ran
  refine ⟨state, generated, rows, ?_⟩
  intro increasing
  have indices : ((state.emitted ()).flatMap RecordBatch.rows).map Row.opIndex = [0, 1, 2, 3, 3] := by
    have projected := congrArg (List.map Prod.snd) rows
    simpa [List.map_flatMap, Function.comp_def] using projected
  have strict := List.pairwise_map.mpr increasing
  rw [indices] at strict
  exact absurd strict (by decide)

end Spicebench.Etl
