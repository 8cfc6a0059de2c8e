/-
This file embeds the indexed key set: a dense vector of keys with a position index.
-/

import Mathlib.Data.List.Induction
import Mathlib.Data.List.Nodup
import Mathlib.Logic.Function.Basic

namespace Spicebench.DataGeneration

variable {Key : Type}

/-- The index gives the position of every key of the vector, and of no other key. -/
def Indexed (keys : List Key) (index : Key → Option Nat) : Prop :=
  ∀ (key : Key) (position : Nat), index key = some position ↔ keys[position]? = some key

namespace Indexed

variable {keys : List Key} {index : Key → Option Nat}

/-- Each key stands at one position only. -/
theorem unique (indexed : Indexed keys index) {key : Key} {first second : Nat}
    (atFirst : keys[first]? = some key) (atSecond : keys[second]? = some key) : first = second := by
  rw [← indexed] at atFirst atSecond
  exact Option.some.inj (atFirst.symm.trans atSecond)

theorem absent_iff (indexed : Indexed keys index) (key : Key) : index key = none ↔ key ∉ keys := by
  rw [List.mem_iff_getElem?, not_exists, Option.eq_none_iff_forall_ne_some]
  exact forall_congr' fun position => not_congr (indexed key position)

theorem nodup (indexed : Indexed keys index) : keys.Nodup := by
  rw [List.nodup_iff_getElem?_ne_getElem?]
  intro first second before inside same
  rw [List.getElem?_eq_getElem inside] at same
  have equal : first = second := indexed.unique same (List.getElem?_eq_getElem inside)
  omega

variable [DecidableEq Key]

theorem push (indexed : Indexed keys index) {key : Key} (absent : index key = none) :
    Indexed (keys ++ [key]) (Function.update index key (some keys.length)) := by
  intro other position
  have outside := (indexed.absent_iff key).mp absent
  have stands := indexed other position
  rw [Function.update_apply, List.getElem?_append]
  grind

theorem pop {last : Key} (indexed : Indexed (keys ++ [last]) index) :
    Indexed keys (Function.update index last none) := by
  intro other position
  have stands := indexed other position
  have apart : last ∉ keys := by
    have nodup := indexed.nodup
    grind
  rw [Function.update_apply]
  grind

/-- A key that stands nowhere takes over the position of another one. -/
theorem set (indexed : Indexed keys index) {position : Nat} {key replacement : Key}
    (stands : keys[position]? = some key) (absent : replacement ∉ keys) :
    Indexed (keys.set position replacement)
      (Function.update (Function.update index key none) replacement (some position)) := by
  intro other slot
  have elsewhere := indexed other slot
  have inside : position < keys.length := (List.getElem?_eq_some_iff.mp stands).1
  have unique : keys[slot]? = some key → position = slot := indexed.unique stands
  rw [Function.update_apply, Function.update_apply, List.getElem?_set]
  grind

end Indexed

/-- A key set carries a vector of keys and its index. -/
structure IndexedKeySet (Key : Type) where
  keys : List Key
  index : Key → Option Nat
  indexed : Indexed keys index

/-- The last element fills the vacated slot, as in `Vec::swap_remove`. -/
def swapRemove (keys : List Key) (position : Nat) : List Key :=
  match keys.getLast? with
  | none => []
  | some last => (keys.set position last).dropLast

theorem swapRemove_concat (front : List Key) (last : Key) (position : Nat) :
    swapRemove (front ++ [last]) position = front.set position last := by
  simp only [swapRemove, List.getLast?_concat]
  by_cases inside : position < front.length
  · rw [List.set_append_left _ _ inside, List.dropLast_concat]
  · have beyond : front.length ≤ position := by omega
    rw [List.set_append_right _ _ beyond, List.set_eq_of_length_le beyond]
    cases position - front.length <;> simp

/-- The random source of `sample_keys` yields `count` distinct positions in any order, since the
loop draws until its hash set holds that many. -/
structure PositionDraw where
  positions : Nat → Nat → List Nat
  length : ∀ count len, count < len → (positions count len).length = count
  distinct : ∀ count len, count < len → (positions count len).Nodup
  below : ∀ count len, count < len → ∀ position ∈ positions count len, position < len

/-- The first positions are one such draw. -/
def PositionDraw.first : PositionDraw where
  positions count _ := List.range count
  length := by simp
  distinct _ _ _ := List.nodup_range
  below count len fewer position member := by
    have := List.mem_range.mp member
    omega

namespace IndexedKeySet

def new : IndexedKeySet Key := ⟨[], fun _ => none, by simp [Indexed]⟩

def len (set : IndexedKeySet Key) : Nat := set.keys.length

variable [DecidableEq Key]

/-- A present key is left alone, and a new one goes to the end. -/
def insert (set : IndexedKeySet Key) (key : Key) : IndexedKeySet Key :=
  if absent : set.index key = none then
    ⟨set.keys ++ [key], Function.update set.index key (some set.keys.length), set.indexed.push absent⟩
  else set

/-- The index drops the key and records the new position of the key that moved. -/
def removedIndex (set : IndexedKeySet Key) (key : Key) (position : Nat) : Key → Option Nat :=
  match (swapRemove set.keys position)[position]? with
  | some moved => Function.update (Function.update set.index key none) moved (some position)
  | none => Function.update set.index key none

theorem removedIndex_indexed (set : IndexedKeySet Key) {key : Key} {position : Nat}
    (found : set.index key = some position) :
    Indexed (swapRemove set.keys position) (set.removedIndex key position) := by
  have stands : set.keys[position]? = some key := (set.indexed key position).mp found
  have indexed := set.indexed
  unfold removedIndex
  cases shape : set.keys using List.reverseRecOn with
  | nil =>
      rw [shape] at stands
      exact nomatch stands
  | append_singleton front last =>
      rw [shape] at stands indexed
      rw [swapRemove_concat]
      have inside := (List.getElem?_eq_some_iff.mp stands).1
      rw [List.length_append, List.length_singleton] at inside
      by_cases before : position < front.length
      · -- the last key moves into the slot
        rw [List.getElem?_append_left before] at stands
        have absent : last ∉ front := by
          have nodup := indexed.nodup
          grind
        have moved := indexed.pop.set stands absent
        have differs : last ≠ key := by
          have member := List.mem_of_getElem? stands
          grind
        rw [List.getElem?_set_self before]
        rw [Function.update_comm differs, Function.update_idem] at moved
        exact moved
      · -- the key is the last one itself
        have equal : position = front.length := by omega
        have same : last = key := by simpa [equal] using stands
        have unchanged : front.set position last = front := List.set_eq_of_length_le (by omega)
        rw [unchanged, List.getElem?_eq_none (by omega), ← same]
        exact indexed.pop

/-- An absent key is left alone. -/
def remove (set : IndexedKeySet Key) (key : Key) : IndexedKeySet Key :=
  match found : set.index key with
  | none => set
  | some position =>
      ⟨swapRemove set.keys position, set.removedIndex key position, set.removedIndex_indexed found⟩

/-- The sample has all keys when at least as many are asked for. -/
def sampleKeys (set : IndexedKeySet Key) (count : Nat) (draw : PositionDraw) : List Key :=
  if set.len ≤ count then set.keys
  else if count = 0 then []
  else (draw.positions count set.len).filterMap fun position => set.keys[position]?

end IndexedKeySet

end Spicebench.DataGeneration
