import Spicebench.Proof.Dataset.SimpleSequence
import Spicebench.Proof.Dataset.TpchStream

namespace Spicebench.DataGeneration

open Library

namespace TpchDataset

variable {Key Data : Type} [DecidableEq Key] {dataset : TpchDataset} {gen : TpchGen Key Data}

/-- The rows of all parts of every table have pairwise distinct primary keys. -/
def DistinctKeys (dataset : TpchDataset) (gen : TpchGen Key Data) : Prop :=
  ∀ table, ((dataset.parts gen table).flatten.map Prod.fst).Nodup

omit [DecidableEq Key] in
/-- No key is created by two steps. -/
theorem DistinctKeys.created (distinct : dataset.DistinctKeys gen) {table : TpchTable} {count : Nat}
    (bound : count ≤ dataset.totalSteps table) :
    (((List.range count).flatMap (dataset.createsOf gen table)).map Prod.fst).Nodup := by
  rw [flatMap_createsOf bound]
  exact (distinct table).sublist ((taken_sublist_flatten _ _ _).map Prod.fst)

/-- The stream of a table replays to its stored keys. -/
structure Keys (state : GeneratorState TpchTable (TpchState Key) Key Data) (table : TpchTable)
    (live : Finset Key) : Prop where
  stream : StreamValid (state.emitted table) live
  stored : state.failed = false → (state.dataset.tables table).keySet.live = live

/-- A call that returns a batch extends the stream of its table by fitting changes. -/
theorem NextChanges.fit {progress next : TableProgress Key} {changes : Changes Key Data}
    {table : TpchTable} {batches : List (RecordBatch Key Data)}
    (spec : dataset.NextChanges gen table progress next changes)
    (stream : StreamValid batches progress.keySet.live)
    (created : createdRows batches =
      (List.range progress.step.toNat).flatMap (dataset.createsOf gen table))
    (distinct : dataset.DistinctKeys gen) :
    changes.Fit progress.keySet.live next.keySet.live := by
  have within := spec.within
  have keys : (((List.range (progress.step.toNat + 1)).flatMap
      (dataset.createsOf gen table)).map Prod.fst).Nodup := distinct.created (by omega)
  rw [List.range_succ, List.flatMap_append, List.flatMap_singleton, ← created, ← spec.creates,
    List.map_append, List.nodup_append] at keys
  obtain ⟨_, new, apart⟩ := keys
  constructor
  · exact new
  · intro key member live
    rw [← stream.live] at live
    rcases KeyLog.replay_subset live with never | old
    · exact Finset.notMem_empty _ never
    · rw [created_streamLog] at old
      exact apart key old key member rfl
  · exact spec.mutated
  · exact spec.inside
  · exact spec.after

theorem Keys.move (distinct : dataset.DistinctKeys gen)
    {state next : GeneratorState TpchTable (TpchState Key) Key Data}
    {called : TpchTable} {draws : TpchDraws Data} (running : state.failed = false)
    (unfinished : state.finished called = false)
    (move : GeneratorMove (dataset.tpch gen) state called draws next) {table : TpchTable}
    (steps : dataset.Steps gen state table) {live : Finset Key} (keys : Keys state table live) :
    ∃ live, Keys next table live := by
  have stored := keys.stored running
  cases move with
  | batch batch after call =>
      obtain ⟨changes, progress, spec, rfl, tables⟩ := rawNextBatch_some call
      by_cases same : table = called
      · subst same
        have created := createdRows_eq steps.batches
        rw [← steps.count running unfinished] at created
        have fit := spec.fit (stored ▸ keys.stream) created distinct
        refine ⟨progress.keySet.live, ?_, ?_⟩
        · simpa using (stored ▸ keys.stream).push fit state.dataset.opCounter
        · simp [tables]
      · refine ⟨live, ?_, ?_⟩
        · simpa [Function.update_of_ne same] using keys.stream
        · intro _
          simpa [tables, Function.update_of_ne same] using stored
  | finish after call =>
      obtain ⟨progress, spec, tables⟩ := rawNextBatch_none call
      refine ⟨live, keys.stream, fun _ => ?_⟩
      by_cases same : table = called
      · subst same
        simpa [tables, spec.kept] using stored
      · simpa [tables, Function.update_of_ne same] using stored
  | fail failure after call =>
      refine ⟨live, keys.stream, ?_⟩
      simp

theorem keys_of_generates (distinct : dataset.DistinctKeys gen)
    {state : GeneratorState TpchTable (TpchState Key) Key Data}
    (generated : Generates (dataset.tpch gen) state) (table : TpchTable) :
    ∃ live, Keys state table live := by
  refine (generated.invariant
    (fun state => ∀ table, dataset.Steps gen state table ∧ ∃ live, Keys state table live) ?_ ?_
      table).2
  · intro table
    exact ⟨steps_of_generates .refl table, ∅, .nil, fun _ => rfl⟩
  · intro before called draws after running unfinished move holds table
    obtain ⟨steps, live, keys⟩ := holds table
    exact ⟨steps.move running unfinished move table, keys.move distinct running unfinished move steps⟩

end TpchDataset

/-- Every create names a key that is not live, every mutation names a live key, no batch mutates a
key twice, and the live keys are the stored ones after every call, for both datasets. -/
theorem mutation_stream_valid :
    (∀ {Key Data : Type} [DecidableEq Key] (dataset : TpchDataset) (gen : TpchGen Key Data),
      dataset.DistinctKeys gen → ∀ state, Generates (dataset.tpch gen) state → ∀ table,
        (streamLog (state.emitted table)).Valid ∅ ∧
          (∀ batch ∈ state.emitted table, (keyLog batch.rows).mutated.Nodup) ∧
          (state.failed = false → (streamLog (state.emitted table)).replay ∅ =
            (state.dataset.tables table).keySet.live)) ∧
      ∀ (dataset : SimpleSequenceDataset) state, Generates dataset.simpleSequence state →
        (streamLog (state.emitted ())).Valid ∅ ∧
          (∀ batch ∈ state.emitted (), (keyLog batch.rows).mutated.Nodup) ∧
          (streamLog (state.emitted ())).replay ∅ = state.dataset.keySet.live := by
  constructor
  · intro Key Data _ dataset gen distinct state generated table
    obtain ⟨live, stream, stored⟩ := TpchDataset.keys_of_generates distinct generated table
    refine ⟨stream.valid, stream.distinct, fun running => ?_⟩
    rw [stored running, stream.live]
  · intro dataset state generated
    have stream := (SimpleSequenceDataset.keys_of_generates generated).stream
    exact ⟨stream.valid, stream.distinct, stream.live⟩

/-- These draws take the first positions and the upper ends of the jitter ranges. -/
def sampleDraws : TpchDraws Unit where
  toPositionDraw := .first
  updateJitter _ high := high
  deleteJitter _ high := high
  updateJitter_mem _ _ ordered := ⟨ordered, le_refl _⟩
  deleteJitter_mem _ _ ordered := ⟨ordered, le_refl _⟩
  data _ := ()

/-- Every part has two rows. -/
def sampleGen : TpchGen Nat Unit where
  rows _ _ part _ := [(2 * part, ()), (2 * part + 1, ())]
  nullData := ()

/-- At this scale the supplier table is expected to have two rows, and half of them mutate. -/
def mixedDataset : TpchDataset :=
  ⟨.finite (1 / 4096), 2, ⟨.finite (1 / 2), .finite (1 / 2), false, 0, .finite 0⟩⟩

/-- The second step of the sample updates and deletes one key each. -/
theorem mutation_stream_valid_mixed :
    ∃ state : GeneratorState TpchTable (TpchState Nat) Nat Unit,
      (streamLog (state.emitted .supplier)).mutated = [2, 3, 2, 4] ∧
        (streamLog (state.emitted .supplier)).Valid ∅ := by
  have ran : (runCalls (mixedDataset.tpch sampleGen)
      [(.supplier, sampleDraws), (.supplier, sampleDraws)]).map
        (fun state => (streamLog (state.emitted .supplier)).mutated) = some [2, 3, 2, 4] := by
    decide +kernel
  obtain ⟨state, reached, mutated⟩ := generates_of_runCalls ran
  have distinct : mixedDataset.DistinctKeys sampleGen := by
    intro table
    cases table <;> decide
  exact ⟨state, mutated, (mutation_stream_valid.1 _ _ distinct _ reached .supplier).1⟩

end Spicebench.DataGeneration
