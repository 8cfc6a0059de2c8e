import Mathlib.Data.List.AList
import Mathlib.Data.List.Sort

namespace Spicebench.Library

/-- A map from keys to values, whose entries come in no particular order. -/
abbrev KeyedMap (Key Value : Type) := AList fun _ : Key => Value

namespace KeyedMap

variable {Key Value Result : Type} [DecidableEq Key]

/-- The value under a key, or a default that is not stored. -/
def orDefault (map : KeyedMap Key Value) (key : Key) (default : Value) : Value := (map.lookup key).getD default

/-- The entry of a map of maps takes one more value, and is made when there is none. -/
def insertAt {Inner : Type} [DecidableEq Inner] (map : KeyedMap Key (KeyedMap Inner Value)) (key : Key) (inner : Inner)
    (value : Value) : KeyedMap Key (KeyedMap Inner Value) :=
  map.insert key ((orDefault map key ∅).insert inner value)

/-- The value under both keys. -/
def lookupAt {Inner : Type} [DecidableEq Inner] (map : KeyedMap Key (KeyedMap Inner Value)) (key : Key)
    (inner : Inner) : Option Value :=
  (map.lookup key).bind fun entry => entry.lookup inner

section Nested

variable {Inner : Type} [DecidableEq Inner] (map : KeyedMap Key (KeyedMap Inner Value)) (key : Key) (inner : Inner)
  (value : Value)

theorem lookup_orDefault : (orDefault map key ∅).lookup inner = lookupAt map key inner := by
  unfold orDefault lookupAt
  cases map.lookup key with
  | none => exact AList.lookup_empty inner
  | some entry => rfl

@[simp] theorem lookupAt_insertAt : lookupAt (insertAt map key inner value) key inner = some value := by
  simp [lookupAt, insertAt]

theorem lookupAt_insertAt_inner {other : Inner} (differ : other ≠ inner) :
    lookupAt (insertAt map key inner value) key other = lookupAt map key other := by
  rw [← lookup_orDefault map key other]
  simp [lookupAt, insertAt, AList.lookup_insert_ne differ]

theorem lookupAt_insertAt_ne {other : Key} (differ : other ≠ key) (index : Inner) :
    lookupAt (insertAt map key inner value) other index = lookupAt map other index := by
  simp [lookupAt, insertAt, AList.lookup_insert_ne differ]

end Nested

/-- A new map takes what a step makes of each entry, where a step may skip its entry. -/
def rebuild (step : Key → Value → Option Result) (map : KeyedMap Key Value) : KeyedMap Key Result :=
  map.entries.foldl (fun built entry =>
    match step entry.1 entry.2 with
    | some result => built.insert entry.1 result
    | none => built) ∅

/-- The keys in ascending order. -/
def sortedKeys [LinearOrder Key] (map : KeyedMap Key Value) : List Key := map.keys.insertionSort (· ≤ ·)

theorem lookup_rebuildFrom (step : Key → Value → Option Result) (entries : List (Σ _ : Key, Value))
    (distinct : entries.NodupKeys) (built : KeyedMap Key Result) (fresh : ∀ key ∈ entries.keys, built.lookup key = none)
    (key : Key) :
    (entries.foldl (fun built entry =>
      match step entry.1 entry.2 with
      | some result => built.insert entry.1 result
      | none => built) built).lookup key = ((entries.dlookup key).bind (step key)).or (built.lookup key) := by
  induction entries generalizing built with
  | nil => simp
  | cons entry rest ih =>
      obtain ⟨name, value⟩ := entry
      obtain ⟨absent, nodup⟩ := List.nodupKeys_cons.mp distinct
      have unset : built.lookup name = none := fresh name (by simp)
      have later : ∀ other ∈ rest.keys, other ≠ name := fun other member same => absent (same ▸ member)
      rw [List.foldl_cons]
      by_cases same : key = name
      · subst same
        rw [List.dlookup_cons_eq, Option.bind_some]
        have gone : rest.dlookup key = none := List.dlookup_eq_none.mpr absent
        cases made : step key value with
        | none =>
            rw [ih nodup built fun other member => fresh other (by simp [member]), gone, unset]
            simp
        | some result =>
            rw [ih nodup _ ?_, gone]
            · simp
            · intro other member
              rw [AList.lookup_insert_ne (later other member)]
              exact fresh other (by simp [member])
      · rw [List.dlookup_cons_ne _ _ same]
        cases made : step name value with
        | none => exact ih nodup built fun other member => fresh other (by simp [member])
        | some result =>
            rw [ih nodup _ ?_, AList.lookup_insert_ne same]
            intro other member
            rw [AList.lookup_insert_ne (later other member)]
            exact fresh other (by simp [member])

/-- The new map has what the step makes of the old value. -/
theorem lookup_rebuild (step : Key → Value → Option Result) (map : KeyedMap Key Value) (key : Key) :
    (rebuild step map).lookup key = (map.lookup key).bind (step key) := by
  unfold rebuild
  rw [lookup_rebuildFrom step map.entries map.nodupKeys ∅ fun _ _ => AList.lookup_empty _]
  simp [AList.lookup]

/-- The sorted keys are the numbers below a bound when exactly these have a value. -/
theorem sortedKeys_eq_range {map : KeyedMap ℕ Value} {bound : ℕ}
    (domain : ∀ key, (map.lookup key).isSome ↔ key < bound) : map.sortedKeys = List.range bound := by
  have same : map.keys.Perm (List.range bound) := by
    refine (List.perm_ext_iff_of_nodup map.keys_nodup List.nodup_range).mpr fun key => ?_
    rw [← AList.mem_keys, ← AList.lookup_isSome, domain, List.mem_range]
  have ascending : map.sortedKeys.Pairwise (· ≤ ·) := List.pairwise_insertionSort _ _
  have listed : map.sortedKeys.Perm (List.range bound) := (List.perm_insertionSort _ _).trans same
  exact listed.eq_of_pairwise (fun _ _ _ _ => le_antisymm) ascending List.pairwise_le_range

end KeyedMap

end Spicebench.Library
