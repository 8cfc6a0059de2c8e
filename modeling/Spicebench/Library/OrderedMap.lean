import Mathlib

namespace Spicebench.Library

/-- An ordered map lists its entries by strictly ascending key. -/
structure OrderedMap (Key Value : Type) [LinearOrder Key] where
  entries : List (Key × Value)
  ascending : entries.Pairwise (fun first second => first.1 < second.1)

namespace OrderedMap

variable {Key Value : Type} [LinearOrder Key]

/-- The empty map has no entries. -/
def empty : OrderedMap Key Value := ⟨[], .nil⟩

/-- This is the value under a key. -/
def get? (map : OrderedMap Key Value) (key : Key) : Option Value := map.entries.lookup key

/-- The keys appear in ascending order. -/
def keys (map : OrderedMap Key Value) : List Key := map.entries.map Prod.fst

/-- This pass rewrites the value under one key and keeps the order of the others. -/
def alterEntries (key : Key) (change : Option Value → Option Value) :
    List (Key × Value) → List (Key × Value)
  | [] => ((change none).map (Prod.mk key)).toList
  | entry :: rest =>
      if key < entry.1 then ((change none).map (Prod.mk key)).toList ++ entry :: rest
      else if entry.1 = key then ((change (some entry.2)).map (Prod.mk key)).toList ++ rest
      else entry :: alterEntries key change rest

theorem mem_alterEntries {key : Key} {change : Option Value → Option Value}
    {entries : List (Key × Value)} {entry : Key × Value}
    (member : entry ∈ alterEntries key change entries) : entry.1 = key ∨ entry ∈ entries := by
  induction entries with
  | nil =>
      simp only [alterEntries, Option.mem_toList, Option.map_eq_some_iff] at member
      obtain ⟨value, _, rfl⟩ := member
      exact .inl rfl
  | cons head rest ih =>
      simp only [alterEntries] at member
      split_ifs at member
      · simp only [List.mem_append, Option.mem_toList, Option.map_eq_some_iff] at member
        obtain ⟨value, _, rfl⟩ | member := member
        · exact .inl rfl
        · exact .inr member
      · simp only [List.mem_append, Option.mem_toList, Option.map_eq_some_iff] at member
        obtain ⟨value, _, rfl⟩ | member := member
        · exact .inl rfl
        · exact .inr (List.mem_cons_of_mem _ member)
      · rcases List.mem_cons.mp member with rfl | member
        · exact .inr (by simp)
        · rcases ih member with same | member
          · exact .inl same
          · exact .inr (List.mem_cons_of_mem _ member)

theorem alterEntries_ascending (key : Key) (change : Option Value → Option Value)
    {entries : List (Key × Value)}
    (ascending : entries.Pairwise (fun first second => first.1 < second.1)) :
    (alterEntries key change entries).Pairwise (fun first second => first.1 < second.1) := by
  induction entries with
  | nil => cases found : change none <;> simp [alterEntries, found]
  | cons head rest ih =>
      obtain ⟨above, tail⟩ := List.pairwise_cons.mp ascending
      simp only [alterEntries]
      split_ifs with before same
      · cases found : change none with
        | none => simpa using ascending
        | some value =>
            refine List.pairwise_cons.mpr ⟨?_, ascending⟩
            intro entry member
            rcases List.mem_cons.mp member with rfl | member
            · exact before
            · exact before.trans (above entry member)
      · cases found : change (some head.2) with
        | none => simpa using tail
        | some value =>
            refine List.pairwise_cons.mpr ⟨?_, tail⟩
            intro entry member
            exact same ▸ above entry member
      · refine List.pairwise_cons.mpr ⟨?_, ih tail⟩
        intro entry member
        rcases mem_alterEntries member with found | member
        · exact found ▸ lt_of_le_of_ne (not_lt.mp before) same
        · exact above entry member

/-- This operation inserts, replaces or removes the entry of one key. -/
def alter (map : OrderedMap Key Value) (key : Key) (change : Option Value → Option Value) :
    OrderedMap Key Value :=
  ⟨alterEntries key change map.entries, alterEntries_ascending key change map.ascending⟩

theorem keys_ascending (map : OrderedMap Key Value) : map.keys.Pairwise (· < ·) :=
  List.pairwise_map.mpr map.ascending

theorem lookup_eq_none_of_lt {entries : List (Key × Value)} {key : Key}
    (below : ∀ entry ∈ entries, key < entry.1) : entries.lookup key = none := by
  rw [List.lookup_eq_none_iff]
  intro entry member
  exact bne_iff_ne.mpr (below entry member).ne

theorem lookup_eq_some_iff {entries : List (Key × Value)} {key : Key} {value : Value}
    (ascending : entries.Pairwise (fun first second => first.1 < second.1)) :
    entries.lookup key = some value ↔ (key, value) ∈ entries := by
  induction entries with
  | nil => simp
  | cons head rest ih =>
      obtain ⟨above, tail⟩ := List.pairwise_cons.mp ascending
      obtain ⟨headKey, headValue⟩ := head
      simp only [List.lookup_cons, List.mem_cons, Prod.mk.injEq]
      by_cases same : key = headKey
      · subst same
        have absent : (key, value) ∉ rest := fun member => lt_irrefl key (above (key, value) member)
        simp [absent, eq_comm]
      · have differ : (key == headKey) = false := beq_eq_false_iff_ne.mpr same
        simp only [differ, ih tail, same, false_and, false_or]

theorem get?_eq_some_iff {map : OrderedMap Key Value} {key : Key} {value : Value} :
    map.get? key = some value ↔ (key, value) ∈ map.entries :=
  lookup_eq_some_iff map.ascending

theorem get?_isSome_iff {map : OrderedMap Key Value} {key : Key} :
    (map.get? key).isSome ↔ key ∈ map.keys := by
  rw [Option.isSome_iff_exists, keys, List.mem_map]
  constructor
  · rintro ⟨value, found⟩
    exact ⟨(key, value), get?_eq_some_iff.mp found, rfl⟩
  · rintro ⟨⟨_, value⟩, member, rfl⟩
    exact ⟨value, get?_eq_some_iff.mpr member⟩

theorem lookup_alterEntries_self (key : Key) (change : Option Value → Option Value)
    {entries : List (Key × Value)}
    (ascending : entries.Pairwise (fun first second => first.1 < second.1)) :
    (alterEntries key change entries).lookup key = change (entries.lookup key) := by
  induction entries with
  | nil => cases found : change none <;> simp [alterEntries, found]
  | cons head rest ih =>
      obtain ⟨above, tail⟩ := List.pairwise_cons.mp ascending
      obtain ⟨headKey, headValue⟩ := head
      simp only [alterEntries]
      split_ifs with before same
      · have absent : ((headKey, headValue) :: rest).lookup key = none := by
          apply lookup_eq_none_of_lt
          intro entry member
          rcases List.mem_cons.mp member with rfl | member
          · exact before
          · exact before.trans (above entry member)
        rw [absent]
        cases found : change none <;> simp [absent]
      · subst same
        have absent : rest.lookup headKey = none := lookup_eq_none_of_lt above
        rw [List.lookup_cons_self]
        cases found : change (some headValue) <;> simp [absent]
      · have differ : (key == headKey) = false := beq_eq_false_iff_ne.mpr (Ne.symm same)
        simp only [List.lookup_cons, differ, ih tail]

theorem lookup_alterEntries_ne {key other : Key} (differ : other ≠ key)
    (change : Option Value → Option Value) (entries : List (Key × Value)) :
    (alterEntries key change entries).lookup other = entries.lookup other := by
  have skip : (other == key) = false := beq_eq_false_iff_ne.mpr differ
  induction entries with
  | nil => cases found : change none <;> simp [alterEntries, found, List.lookup_cons, skip]
  | cons head rest ih =>
      obtain ⟨headKey, headValue⟩ := head
      simp only [alterEntries]
      split_ifs with before same
      · cases found : change none <;> simp [List.lookup_cons, skip]
      · subst same
        cases found : change (some headValue) <;> simp [List.lookup_cons, skip]
      · simp only [List.lookup_cons, ih]

@[simp] theorem get?_alter_self (map : OrderedMap Key Value) (key : Key)
    (change : Option Value → Option Value) : (map.alter key change).get? key = change (map.get? key) :=
  lookup_alterEntries_self key change map.ascending

theorem get?_alter_ne (map : OrderedMap Key Value) {key other : Key} (differ : other ≠ key)
    (change : Option Value → Option Value) : (map.alter key change).get? other = map.get? other :=
  lookup_alterEntries_ne differ change map.entries

/-- This is the sum of a weight over all values. -/
def total (weight : Value → Nat) (map : OrderedMap Key Value) : Nat :=
  (map.entries.map fun entry => weight entry.2).sum

theorem sum_alterEntries (weight : Value → Nat) (key : Key) (change : Option Value → Option Value)
    {entries : List (Key × Value)}
    (ascending : entries.Pairwise (fun first second => first.1 < second.1)) :
    ((alterEntries key change entries).map fun entry => weight entry.2).sum +
        ((entries.lookup key).map weight).getD 0 =
      (entries.map fun entry => weight entry.2).sum +
        ((change (entries.lookup key)).map weight).getD 0 := by
  induction entries with
  | nil => cases found : change none <;> simp [alterEntries, found]
  | cons head rest ih =>
      obtain ⟨above, tail⟩ := List.pairwise_cons.mp ascending
      obtain ⟨headKey, headValue⟩ := head
      simp only [alterEntries]
      split_ifs with before same
      · have absent : ((headKey, headValue) :: rest).lookup key = none := by
          apply lookup_eq_none_of_lt
          intro entry member
          rcases List.mem_cons.mp member with rfl | member
          · exact before
          · exact before.trans (above entry member)
        rw [absent]
        cases found : change none <;> simp [Nat.add_comm]
      · subst same
        rw [List.lookup_cons_self]
        cases found : change (some headValue) <;> simp [Nat.add_comm, Nat.add_left_comm]
      · have differ : (key == headKey) = false := beq_eq_false_iff_ne.mpr (Ne.symm same)
        simp only [List.lookup_cons, differ, List.map_cons, List.sum_cons]
        have rest := ih tail
        omega

/-- An alteration changes the total by the difference of the two weights. -/
theorem total_alter (weight : Value → Nat) (map : OrderedMap Key Value) (key : Key)
    (change : Option Value → Option Value) :
    (map.alter key change).total weight + ((map.get? key).map weight).getD 0 =
      map.total weight + ((change (map.get? key)).map weight).getD 0 :=
  sum_alterEntries weight key change map.ascending

/-- The map without its first entry keeps the order. -/
def tail (map : OrderedMap Key Value) : OrderedMap Key Value :=
  ⟨map.entries.tail, map.ascending.sublist (List.tail_sublist _)⟩

end OrderedMap

end Spicebench.Library
