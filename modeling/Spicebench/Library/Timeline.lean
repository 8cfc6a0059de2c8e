/-
This file lays slots one after another on a line of time.
-/

import Mathlib

namespace Spicebench.Library

/-- A slot lasts for some length from its start. -/
structure Slot (Time : Type) where
  start : Time
  length : Time

namespace Slot

variable {Time : Type} [AddCommGroup Time] [LinearOrder Time] [IsOrderedAddMonoid Time]

omit [LinearOrder Time] [IsOrderedAddMonoid Time] in
def finish (slot : Slot Time) : Time := slot.start + slot.length

/-- The moments of a slot, its finish excluded. -/
def moments (slot : Slot Time) : Set Time := Set.Ico slot.start slot.finish

/-- Each slot is over when a later one begins. -/
def InTurn (slots : List (Slot Time)) : Prop :=
  slots.Pairwise fun earlier later => earlier.finish ≤ later.start

omit [IsOrderedAddMonoid Time] in
/-- Slots in turn share no moment. -/
theorem InTurn.disjoint {slots : List (Slot Time)} (inTurn : InTurn slots) :
    slots.Pairwise fun earlier later => Disjoint earlier.moments later.moments := by
  apply inTurn.imp
  intro earlier later ended
  rw [moments, moments, Set.Ico_disjoint_Ico]
  exact (min_le_left _ _).trans (ended.trans (le_max_right _ _))

/-- The slots before the last one fit between the opening of a window and the start of the last one. -/
theorem InTurn.sum_le {slots : List (Slot Time)} {last : Slot Time} (inTurn : InTurn (slots ++ [last]))
    {opening : Time} (inside : ∀ slot ∈ slots ++ [last], opening ≤ slot.start) :
    (slots.map length).sum ≤ last.start - opening := by
  induction slots generalizing opening with
  | nil =>
      have after := inside last (by simp)
      simpa using after
  | cons slot rest ih =>
      obtain ⟨ends, later⟩ := List.pairwise_cons.mp inTurn
      have fitting : (rest.map length).sum ≤ last.start - slot.finish := ih later ends
      have after : opening ≤ slot.start := inside slot (by simp)
      calc ((slot :: rest).map length).sum
          = slot.length + (rest.map length).sum := by simp
        _ ≤ slot.length + (last.start - slot.finish) := by gcongr
        _ = last.start - slot.start := by rw [finish]; abel
        _ ≤ last.start - opening := by gcongr

end Slot

end Spicebench.Library
