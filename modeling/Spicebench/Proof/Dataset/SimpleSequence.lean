import Spicebench.Construction.Dataset.SimpleSequence
import Spicebench.Proof.Dataset.KeySet
import Spicebench.Proof.Dataset.Stream

namespace Spicebench.DataGeneration

open Library Changes

namespace SimpleSequenceDataset

variable (dataset : SimpleSequenceDataset)

/-- What a call that returns a batch has done. -/
structure NextSequence (state next : SequenceState) (changes : Changes Int (Option Int)) (count : Nat) :
    Prop where
  creates : changes.creates = newRows state.currentOffset count
  offset : next.currentOffset = state.currentOffset + count
  calm : dataset.mutations.zeroRatios = true → changes.updates = [] ∧ changes.deletes = []
  mutated : changes.mutatedKeys.Nodup
  inside : ∀ key ∈ changes.mutatedKeys, key ∈ state.keySet.live
  after : next.keySet.live =
    (state.keySet.live ∪ changes.createdKeys.toFinset) \ changes.deletedKeys.toFinset

/-- Without ratios every row of a batch creates. -/
theorem operationCounts_calm (existingCount : Nat) (zero : dataset.mutations.zeroRatios = true) :
    (dataset.operationCounts existingCount).2 = (0, 0) := by
  obtain ⟨update, delete⟩ := MutationConfig.zeroRatios_iff.mp zero
  unfold operationCounts
  simp only [update, delete, F64.toUsize_round_mul_zero]
  split <;> rfl

variable {dataset}

theorem rawNextBatch_some {state next : SequenceState} {draws : SequenceDraws}
    {batch : RecordBatch Int (Option Int)}
    (called : dataset.rawNextBatch state () draws = (.ok (some batch), next)) :
    ∃ changes count, dataset.NextSequence state next changes count ∧
      batch = changes.batch state.opCounter := by
  unfold rawNextBatch at called
  dsimp only at called
  split at called
  · exact nomatch called
  split at called
  · exact nomatch called
  rename_i enough
  injection called with outcome after
  injection outcome with outcome
  injection outcome with outcome
  subst outcome after
  generalize counts : dataset.operationCounts _ = planned at *
  generalize drawn : IndexedKeySet.sampleKeys _ _ _ = keys at *
  have split : keys.take planned.2.1 ++ keys.drop planned.2.1 = keys := List.take_append_drop _ _
  refine ⟨_, planned.1, ?_, rfl⟩
  constructor
  · rfl
  · rfl
  · intro zero
    have none_planned : planned.2 = (0, 0) := by
      rw [← counts, operationCounts_calm _ _ zero]
    have no_keys : keys = [] := by
      simp only [Prod.ext_iff] at none_planned
      rw [← drawn, none_planned.1, none_planned.2]
      exact IndexedKeySet.sampleKeys_zero _ _
    simp [no_keys, withData]
  · simp only [mutatedKeys, deletedKeys, keys_withData, keys_const, split]
    rw [← drawn]
    exact IndexedKeySet.nodup_sampleKeys _ _ _
  · simp only [mutatedKeys, deletedKeys, keys_withData, keys_const, split]
    intro key member
    rw [← drawn] at member
    rw [IndexedKeySet.mem_live]
    exact IndexedKeySet.mem_of_mem_sampleKeys member
  · simp only [Changes.deletedKeys, keys_const, IndexedKeySet.live_removeAll,
      IndexedKeySet.live_insertAll]
    rfl

/-- A call without a batch keeps the keys, the next id and the op counter. -/
theorem rawNextBatch_quiet {state next : SequenceState} {draws : SequenceDraws}
    {outcome : NextBatch Int (Option Int)} (called : dataset.rawNextBatch state () draws = (outcome, next))
    (quiet : ∀ batch, outcome ≠ .ok (some batch)) :
    next.keySet = state.keySet ∧ next.currentOffset = state.currentOffset ∧ next.opCounter = state.opCounter := by
  unfold rawNextBatch at called
  dsimp only at called
  split at called
  · injection called with _ after
    subst after
    exact ⟨rfl, rfl, rfl⟩
  split at called
  · injection called with _ after
    subst after
    exact ⟨rfl, rfl, rfl⟩
  · injection called with answer _
    exact absurd answer.symm (quiet _)

theorem mem_newRows {idOffset : Int} {count : Nat} {key : Int}
    (member : key ∈ (newRows idOffset count).map Prod.fst) :
    idOffset ≤ key ∧ key < idOffset + count := by
  simp only [newRows, List.map_map, List.mem_map, List.mem_range, Function.comp_apply] at member
  obtain ⟨index, inside, rfl⟩ := member
  omega

theorem nodup_newRows (idOffset : Int) (count : Nat) :
    ((newRows idOffset count).map Prod.fst).Nodup := by
  rw [newRows, List.map_map]
  apply List.nodup_range.map
  intro first second same
  simp only [Function.comp_apply] at same
  omega

/-- The created ids count up from zero, and the stream replays to the stored keys. -/
structure Keys (dataset : SimpleSequenceDataset)
    (state : GeneratorState Unit SequenceState Int (Option Int)) : Prop where
  stream : StreamValid (state.emitted ()) state.dataset.keySet.live
  created : ((createdRows (state.emitted ())).map Prod.fst).Nodup
  below : ∀ key ∈ (createdRows (state.emitted ())).map Prod.fst, key < state.dataset.currentOffset
  batches : ∀ batch ∈ state.emitted (), ∃ changes opBase, batch = Changes.batch changes opBase ∧
    (dataset.mutations.zeroRatios = true → changes.updates = [] ∧ changes.deletes = [])

theorem keys_of_generates {state : GeneratorState Unit SequenceState Int (Option Int)}
    (generated : Generates dataset.simpleSequence state) : dataset.Keys state := by
  refine generated.invariant dataset.Keys ?_ ?_
  · exact ⟨.nil, List.nodup_nil, by simp [generatorStart, createdRows], by simp [generatorStart]⟩
  · intro before table draws after _ _ move keys
    cases move with
    | batch batch next call =>
        obtain ⟨changes, count, spec, rfl⟩ := rawNextBatch_some call
        have new_keys : changes.createdKeys = (newRows before.dataset.currentOffset count).map Prod.fst :=
          congrArg _ spec.creates
        have fresh : ∀ key ∈ changes.createdKeys,
            key ∉ (createdRows (before.emitted ())).map Prod.fst := by
          intro key member old
          rw [new_keys] at member
          have := mem_newRows member
          have := keys.below key old
          omega
        have fit : changes.Fit before.dataset.keySet.live next.keySet.live := by
          constructor
          · rw [new_keys]
            exact nodup_newRows _ _
          · intro key member live
            rw [← keys.stream.live] at live
            rcases KeyLog.replay_subset live with never | old
            · exact Finset.notMem_empty _ never
            · rw [created_streamLog] at old
              exact fresh key member old
          · exact spec.mutated
          · intro key member
            exact Finset.mem_union_left _ (spec.inside key member)
          · exact spec.after
        have rows : createdRows (before.emitted () ++ [changes.batch before.dataset.opCounter]) =
            createdRows (before.emitted ()) ++ changes.creates := by
          rw [createdRows_append, changes.createdRows_batch]
        constructor
        · simpa using keys.stream.push fit before.dataset.opCounter
        · simp only [Function.update_self, rows, List.map_append]
          refine List.nodup_append.mpr ⟨keys.created, ?_, ?_⟩
          · exact fit.created
          · rintro old inside key member rfl
            exact fresh old member inside
        · simp only [Function.update_self, rows, List.map_append, List.mem_append, spec.offset]
          rintro key (old | new)
          · have := keys.below key old
            omega
          · rw [spec.creates] at new
            exact (mem_newRows new).2
        · simp only [Function.update_self, List.mem_append, List.mem_singleton]
          rintro batch (old | rfl)
          · exact keys.batches batch old
          · exact ⟨changes, before.dataset.opCounter, rfl, spec.calm⟩
    | finish next call =>
        obtain ⟨kept, offset, _⟩ := rawNextBatch_quiet call (by simp)
        exact ⟨kept ▸ keys.stream, keys.created, offset ▸ keys.below, keys.batches⟩
    | fail failure next call =>
        obtain ⟨kept, offset, _⟩ := rawNextBatch_quiet call (by simp)
        exact ⟨kept ▸ keys.stream, keys.created, offset ▸ keys.below, keys.batches⟩

end SimpleSequenceDataset

end Spicebench.DataGeneration
