import Spicebench.Proof.Etl.Replay
import Spicebench.Proof.Etl.RowCounts

namespace Spicebench.Etl
open Library DataGeneration

section Windows

variable {Key Data : Type}

end Windows

section Stored

variable {Table Key Data : Type}

variable [DecidableEq Key]

end Stored

section Tables

variable {Key Data : Type}

variable [DecidableEq Key]

end Tables

section Target

variable {Table Key Data : Type} [DecidableEq Table]

/-- A stored stream is handed over from its front. -/
theorem Handover.takes {source : Source Table Key Data} {start final : Shared Table Key Data} {count : Nat}
    (handover : Handover source start final count) {table : Table} {length : Nat}
    (planned : ∀ batchId, start.work.steps.Pending table batchId ↔ batchId < length) :
    ∃ taken ≤ length, handedSince start.history final table = List.range taken ∧
      ((∀ batchId, ¬ final.work.steps.Pending table batchId) → taken = length) := by
  have gapless : ∀ batchId ∈ handedSince start.history final table, ∀ smaller < batchId,
      smaller ∈ handedSince start.history final table := by
    intro batchId member smaller less
    obtain ⟨pending, first⟩ := (handover.handed table batchId).mp member
    have inside := (planned batchId).mp pending
    have alsoPending := (planned smaller).mpr (less.trans inside)
    refine (handover.handed table smaller).mpr ⟨alsoPending, ?_⟩
    have key := WorkPlan.mem_keys_iff.mpr ⟨table, alsoPending⟩
    have order := start.work.steps.keys_ascending
    rw [← List.take_append_drop count start.work.steps.keys] at key order
    rcases List.mem_append.mp key with early | late
    · exact early
    · have := (List.pairwise_append.mp order).2.2 batchId first smaller late
      omega
  have counted := eq_range_of_gapless (handover.ascending table) gapless
  have handed : ∀ batchId, batchId < (handedSince start.history final table).length ↔
      batchId < length ∧ batchId ∈ start.work.steps.keys.take count := by
    intro batchId
    rw [← planned, ← handover.handed]
    conv_rhs => rw [counted]
    exact List.mem_range.symm
  have inside : (handedSince start.history final table).length ≤ length := by
    by_contra beyond
    have := ((handed length).mp (by omega)).1
    omega
  refine ⟨_, inside, counted, ?_⟩
  intro exhausted
  by_contra short
  have next := exhausted (handedSince start.history final table).length
  rw [handover.pending, planned, not_and, not_not] at next
  have more := (handed _).mpr ⟨by omega, next (by omega)⟩
  exact Nat.lt_irrefl _ more

end Target

end Spicebench.Etl
