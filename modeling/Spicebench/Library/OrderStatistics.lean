/-
This file reads values at fractional ranks of a sequence in ascending order.
-/

import Mathlib.Algebra.Order.Floor.Semiring
import Mathlib.Data.Rat.Floor
import Mathlib.Order.Monotone.Basic

namespace Spicebench.Library

variable {Value : Type}

/-- A rank that lies above an index by less than a margin stands for the element there, and any other for a value
between two neighbours. -/
def atRank (element : Nat → Value) (between : Value → Value → Value) (margin rank : ℚ) : Value :=
  if rank - ⌊rank⌋₊ < margin then element ⌊rank⌋₊ else between (element ⌊rank⌋₊) (element ⌈rank⌉₊)

variable {element : Nat → Value} {between : Value → Value → Value} {margin : ℚ}

theorem atRank_natCast (positive : 0 < margin) (index : Nat) : atRank element between margin index = element index := by
  rw [atRank, Nat.floor_natCast, sub_self, if_pos positive]

section Ordered

variable [PartialOrder Value]

/-- The value at a rank lies between the elements around it. -/
theorem atRank_bounds (ascending : Monotone element)
    (inside : ∀ lower upper, lower ≤ upper → lower ≤ between lower upper ∧ between lower upper ≤ upper) (rank : ℚ) :
    element ⌊rank⌋₊ ≤ atRank element between margin rank ∧ atRank element between margin rank ≤ element ⌈rank⌉₊ := by
  have ordered : element ⌊rank⌋₊ ≤ element ⌈rank⌉₊ := ascending (Nat.floor_le_ceil rank)
  unfold atRank
  split
  · exact ⟨le_rfl, ordered⟩
  · exact inside _ _ ordered

/-- A greater rank stands for a value that is no smaller. -/
theorem atRank_mono (ascending : Monotone element)
    (inside : ∀ lower upper, lower ≤ upper → lower ≤ between lower upper ∧ between lower upper ≤ upper)
    {lower upper : ℚ} (ordered : lower ≤ upper) :
    atRank element between margin lower ≤ atRank element between margin upper := by
  have floors : ⌊lower⌋₊ ≤ ⌊upper⌋₊ := Nat.floor_mono ordered
  by_cases apart : ⌈lower⌉₊ ≤ ⌊upper⌋₊
  · calc atRank element between margin lower
        ≤ element ⌈lower⌉₊ := (atRank_bounds ascending inside lower).2
      _ ≤ element ⌊upper⌋₊ := ascending apart
      _ ≤ atRank element between margin upper := (atRank_bounds ascending inside upper).1
  · -- Both ranks lie strictly between the same two indices, so only the margin can tell them apart.
    have near : ⌈lower⌉₊ ≤ ⌊lower⌋₊ + 1 := Nat.ceil_le_floor_add_one lower
    have sameFloor : ⌊lower⌋₊ = ⌊upper⌋₊ := by omega
    have above : (⌊upper⌋₊ : ℚ) < upper := by
      have below : (⌊upper⌋₊ : ℚ) < lower := by
        rw [not_le] at apart
        exact Nat.lt_ceil.mp apart
      exact below.trans_le ordered
    have sameCeil : ⌈lower⌉₊ = ⌈upper⌉₊ := by
      have lifted : ⌊upper⌋₊ < ⌈upper⌉₊ := Nat.lt_ceil.mpr above
      have close : ⌈upper⌉₊ ≤ ⌊upper⌋₊ + 1 := Nat.ceil_le_floor_add_one upper
      omega
    have neighbours : element ⌊upper⌋₊ ≤ element ⌈upper⌉₊ := ascending (Nat.floor_le_ceil upper)
    unfold atRank
    rw [sameFloor, sameCeil]
    by_cases low : lower - ⌊upper⌋₊ < margin
    · rw [if_pos low]
      split
      · exact le_rfl
      · exact (inside _ _ neighbours).1
    · have high : ¬ upper - ⌊upper⌋₊ < margin := by
        intro small
        exact low ((sub_le_sub_right ordered _).trans_lt small)
      rw [if_neg low, if_neg high]

end Ordered

end Spicebench.Library
