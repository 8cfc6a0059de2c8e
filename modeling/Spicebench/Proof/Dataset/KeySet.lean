import Spicebench.Construction.Dataset.KeySet
import Mathlib.Data.Finset.Card
import Mathlib.Data.List.Perm.Basic

namespace Spicebench.DataGeneration

namespace IndexedKeySet

variable {Key : Type}

theorem nodup (set : IndexedKeySet Key) : set.keys.Nodup := set.indexed.nodup

theorem nodup_sampleKeys (set : IndexedKeySet Key) (count : Nat) (draw : PositionDraw) :
    (set.sampleKeys count draw).Nodup := by
  unfold sampleKeys
  split
  · exact set.nodup
  · split
    · exact List.nodup_nil
    · rename_i fewer _
      have few : count < set.len := by omega
      apply (draw.distinct count set.len few).filterMap
      intro first second key atFirst atSecond
      exact set.indexed.unique atFirst atSecond

/-- A sample holds as many keys as it was asked for, or all of them. -/
theorem length_sampleKeys (set : IndexedKeySet Key) (count : Nat) (draw : PositionDraw) :
    (set.sampleKeys count draw).length = min count set.len := by
  unfold sampleKeys
  split_ifs with all none
  · exact (min_eq_right all).symm
  · simp [none]
  · have fewer : count < set.len := by omega
    have found : ∀ position ∈ draw.positions count set.len, (set.keys[position]?).isSome = true := by
      intro position member
      have inside : position < set.keys.length := draw.below count set.len fewer position member
      simp [inside]
    rw [List.length_filterMap_eq_countP, List.countP_eq_length.mpr found, draw.length count set.len fewer]
    omega

@[simp] theorem sampleKeys_zero (set : IndexedKeySet Key) (draw : PositionDraw) :
    set.sampleKeys 0 draw = [] := by
  unfold sampleKeys len
  split
  · exact List.length_eq_zero_iff.mp (by omega)
  · rfl

theorem mem_of_mem_sampleKeys {set : IndexedKeySet Key} {count : Nat} {draw : PositionDraw}
    {key : Key} (member : key ∈ set.sampleKeys count draw) : key ∈ set.keys := by
  unfold sampleKeys at member
  split at member
  · exact member
  · split at member
    · exact nomatch member
    · obtain ⟨position, _, stands⟩ := List.mem_filterMap.mp member
      exact List.mem_of_getElem? stands

variable [DecidableEq Key]

/-- The set of the stored keys. -/
def live (set : IndexedKeySet Key) : Finset Key := set.keys.toFinset

@[simp] theorem mem_live (set : IndexedKeySet Key) (key : Key) : key ∈ set.live ↔ key ∈ set.keys :=
  List.mem_toFinset

@[simp] theorem live_new : (new : IndexedKeySet Key).live = ∅ := rfl

@[simp] theorem card_live (set : IndexedKeySet Key) : set.live.card = set.len :=
  List.toFinset_card_of_nodup set.nodup

@[simp] theorem live_insert (set : IndexedKeySet Key) (key : Key) :
    (set.insert key).live = Insert.insert key set.live := by
  ext other
  simp only [mem_live, Finset.mem_insert]
  unfold insert
  split
  · simp [or_comm]
  · rename_i present
    rw [set.indexed.absent_iff, not_not] at present
    constructor
    · exact Or.inr
    · rintro (rfl | member)
      · exact present
      · exact member

omit [DecidableEq Key] in
/-- What is taken out and what is left are the keys in another order. -/
theorem swapRemove_perm {keys : List Key} {key : Key} {position : Nat} (stands : keys[position]? = some key) :
    (key :: swapRemove keys position).Perm keys := by
  cases keys using List.reverseRecOn with
  | nil => exact nomatch stands
  | append_singleton front last =>
      rw [swapRemove_concat]
      by_cases before : position < front.length
      · rw [List.getElem?_append_left before, List.getElem?_eq_getElem before] at stands
        have erased : (key :: front.eraseIdx position).Perm front := by
          rw [← Option.some.inj stands]
          exact List.getElem_cons_eraseIdx_perm before
        have filled := (List.set_perm_cons_eraseIdx before last).cons key
        have swapped := filled.trans (List.Perm.swap last key _)
        exact (swapped.trans (erased.cons last)).trans (List.perm_append_singleton last front).symm
      · have inside := (List.getElem?_eq_some_iff.mp stands).1
        rw [List.length_append, List.length_singleton] at inside
        have equal : position = front.length := by omega
        have same : last = key := by simpa [equal] using stands
        rw [List.set_eq_of_length_le (by omega), ← same]
        exact (List.perm_append_singleton last front).symm

omit [DecidableEq Key] in
theorem mem_swapRemove {keys : List Key} (nodup : keys.Nodup) {key : Key} {position : Nat}
    (stands : keys[position]? = some key) (other : Key) :
    other ∈ swapRemove keys position ↔ other ∈ keys ∧ other ≠ key := by
  have perm := swapRemove_perm stands
  have apart : key ∉ swapRemove keys position := (List.nodup_cons.mp (perm.nodup_iff.mpr nodup)).1
  rw [← perm.mem_iff, List.mem_cons]
  constructor
  · intro left
    exact ⟨Or.inr left, fun same => apart (same ▸ left)⟩
  · intro member
    exact member.1.resolve_left member.2

@[simp] theorem live_remove (set : IndexedKeySet Key) (key : Key) :
    (set.remove key).live = set.live.erase key := by
  ext other
  simp only [mem_live, Finset.mem_erase]
  unfold remove
  split
  · rename_i absent
    rw [set.indexed.absent_iff] at absent
    grind
  · rename_i position found
    rw [mem_swapRemove set.nodup ((set.indexed key position).mp found), and_comm]

theorem live_insertAll (set : IndexedKeySet Key) (keys : List Key) :
    (keys.foldl insert set).live = set.live ∪ keys.toFinset := by
  induction keys generalizing set with
  | nil => simp
  | cons key rest ih =>
      rw [List.foldl_cons, ih, live_insert]
      ext other
      simp only [Finset.mem_union, Finset.mem_insert, List.toFinset_cons]
      tauto

theorem live_removeAll (set : IndexedKeySet Key) (keys : List Key) :
    (keys.foldl remove set).live = set.live \ keys.toFinset := by
  induction keys generalizing set with
  | nil => simp
  | cons key rest ih =>
      rw [List.foldl_cons, ih, live_remove]
      ext other
      simp only [Finset.mem_sdiff, Finset.mem_erase, List.toFinset_cons, Finset.mem_insert]
      tauto

end IndexedKeySet

end Spicebench.DataGeneration
