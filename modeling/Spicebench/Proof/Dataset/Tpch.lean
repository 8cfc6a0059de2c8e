import Spicebench.Construction.Dataset.Tpch
import Spicebench.Proof.Dataset.Stream
import Spicebench.Proof.Dataset.KeySet

namespace Spicebench.DataGeneration

open Library Changes

variable {Key Data : Type}

@[simp] theorem jitter_zero (draw : Nat → Nat → Nat) : jitter draw 0 = 0 := rfl

namespace TpchDataset

variable (dataset : TpchDataset)

/-- The number of steps that emit creates. -/
def baseSteps (table : TpchTable) : Nat := if table.isDim then 1 else dataset.numSteps.toNat

/-- The rows of the parts the base steps ask for, in order. -/
def parts (gen : TpchGen Key Data) (table : TpchTable) : List (List (Key × Data)) :=
  (List.range (dataset.baseSteps table)).map fun step =>
    gen.rows table dataset.scaleFactor (dataset.partOf table step).1 (dataset.partOf table step).2

theorem inMutationPhase_iff {table : TpchTable} {step : Nat}
    (within : step < dataset.totalSteps table) :
    dataset.inMutationPhase table step = true ↔ dataset.baseSteps table ≤ step := by
  unfold inMutationPhase baseSteps
  unfold totalSteps at within
  cases dim : table.isDim <;> cases boot : dataset.mutations.bootstrap <;>
    simp [dim, boot] at within ⊢ <;> omega

theorem baseSteps_le_totalSteps (table : TpchTable) :
    dataset.baseSteps table ≤ dataset.totalSteps table := by
  have below := dataset.numSteps.toNat_lt
  unfold baseSteps totalSteps
  cases dim : table.isDim <;> cases boot : dataset.mutations.bootstrap <;> simp
  omega

theorem totalSteps_lt (table : TpchTable) : dataset.totalSteps table < 2 ^ 16 := by
  have below := dataset.numSteps.toNat_lt
  unfold totalSteps
  cases dim : table.isDim <;> cases boot : dataset.mutations.bootstrap <;> simp
  all_goals omega

/-- Without ratios a base step plans no mutations. -/
theorem plannedMutations_calm (draws : TpchDraws Data) (existingCount numCreates : Nat)
    (zero : dataset.mutations.zeroRatios = true) :
    dataset.plannedMutations draws false existingCount numCreates = (0, 0) := by
  obtain ⟨update, delete⟩ := MutationConfig.zeroRatios_iff.mp zero
  unfold plannedMutations
  simp only [update, delete, F64.toUsize_round_mul_zero, jitter_zero]
  cases dataset.mutations.bootstrap <;> rfl

variable [DecidableEq Key]

/-- What a call that returns a batch has done. -/
structure NextChanges (gen : TpchGen Key Data) (table : TpchTable) (progress next : TableProgress Key)
    (changes : Changes Key Data) : Prop where
  within : progress.step.toNat < dataset.totalSteps table
  creates : changes.creates = dataset.createsOf gen table progress.step.toNat
  base : dataset.inMutationPhase table progress.step.toNat = false → changes.creates ≠ []
  calm : dataset.mutations.zeroRatios = true →
    dataset.inMutationPhase table progress.step.toNat = false →
      changes.updates = [] ∧ changes.deletes = []
  nonempty : changes.tagged ≠ []
  mutated : changes.mutatedKeys.Nodup
  inside : ∀ key ∈ changes.mutatedKeys,
    key ∈ progress.keySet.live ∪ changes.createdKeys.toFinset
  after : next.keySet.live =
    (progress.keySet.live ∪ changes.createdKeys.toFinset) \ changes.deletedKeys.toFinset
  step : next.step = progress.step + 1

/-- What a call that returns no batch has done. -/
structure NextNone (gen : TpchGen Key Data) (table : TpchTable) (progress next : TableProgress Key) :
    Prop where
  kept : next.keySet.live = progress.keySet.live
  reason : dataset.baseSteps table ≤ progress.step.toNat ∨
    dataset.createsOf gen table progress.step.toNat = []

variable {dataset}

theorem nextChanges_some {gen : TpchGen Key Data} {table : TpchTable}
    {progress next : TableProgress Key} {draws : TpchDraws Data} {changes : Changes Key Data}
    (called : dataset.nextChanges gen table progress draws = (.ok (some changes), next)) :
    dataset.NextChanges gen table progress next changes := by
  unfold nextChanges at called
  dsimp only at called
  split at called
  · exact nomatch called
  rename_i within
  split at called
  · exact nomatch called
  rename_i creating
  split at called
  · exact nomatch called
  rename_i enough
  split at called
  · exact nomatch called
  rename_i some_rows
  split at called
  · exact nomatch called
  rename_i matching
  injection called with outcome progressed
  injection outcome with outcome
  injection outcome with outcome
  subst outcome progressed
  generalize counts : capMutations _ _ = planned at *
  generalize drawn : IndexedKeySet.sampleKeys _ _ _ = keys at *
  have split : keys.take planned.1 ++ keys.drop planned.1 = keys := List.take_append_drop _ _
  constructor
  · omega
  · rfl
  · intro phase
    simpa [phase] using creating
  · intro zero phase
    have none_planned : planned = (0, 0) := by
      rw [← counts, phase, plannedMutations_calm _ _ _ _ zero]
      rfl
    have no_keys : keys = [] := by simpa [none_planned] using matching
    simp [no_keys, withData]
  · rw [← List.length_pos_iff, length_tagged]
    simp only [List.length_map, length_withData, List.length_take]
    omega
  · simp only [mutatedKeys, deletedKeys, keys_withData, keys_const, split]
    rw [← drawn]
    exact IndexedKeySet.nodup_sampleKeys _ _ _
  · simp only [mutatedKeys, deletedKeys, keys_withData, keys_const, split]
    intro key member
    rw [← drawn] at member
    have inside := IndexedKeySet.mem_of_mem_sampleKeys member
    rw [← IndexedKeySet.mem_live, IndexedKeySet.live_insertAll] at inside
    exact inside
  · simp only [Changes.deletedKeys, keys_const, IndexedKeySet.live_removeAll,
      IndexedKeySet.live_insertAll]
    rfl
  · rfl

theorem nextChanges_none {gen : TpchGen Key Data} {table : TpchTable}
    {progress next : TableProgress Key} {draws : TpchDraws Data}
    (called : dataset.nextChanges gen table progress draws = (.ok none, next)) :
    dataset.NextNone gen table progress next := by
  unfold nextChanges at called
  dsimp only at called
  split at called
  · rename_i beyond
    injection called with _ progressed
    subst progressed
    have base := dataset.baseSteps_le_totalSteps table
    exact ⟨rfl, .inl (by omega)⟩
  split at called
  · rename_i _ empty
    injection called with _ progressed
    subst progressed
    rw [Bool.and_eq_true, List.isEmpty_iff] at empty
    exact ⟨rfl, .inr empty.2⟩
  split at called
  · exact nomatch called
  split at called
  · rename_i within _ _ no_rows
    injection called with _ progressed
    subst progressed
    generalize capMutations _ _ = planned at *
    have no_creates : dataset.createsOf gen table progress.step.toNat = [] := by
      rw [← List.length_eq_zero_iff]
      omega
    have no_updates : planned.1 = 0 := by omega
    have no_deletes : planned.2 = 0 := by omega
    refine ⟨?_, .inr no_creates⟩
    rw [no_creates, no_updates, no_deletes, IndexedKeySet.sampleKeys_zero]
    rfl
  split at called
  · exact nomatch called
  · exact nomatch called

end TpchDataset

end Spicebench.DataGeneration
