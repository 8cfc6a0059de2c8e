import Mathlib.Data.List.Induction
import Mathlib.Data.List.Nodup
import Mathlib.Data.List.Perm.Basic

namespace Spicebench.Library

/-- A hash set or a hash map is gone through in some order. -/
structure HashOrder (Item : Type) where
  arrange : List Item → List Item
  perm : ∀ items, (arrange items).Perm items

section Entries

variable {Key Value : Type} {entries : List (Key × Value)} {entry : Key × Value}

/-- An entry is the first of its key when the keys differ. -/
theorem first_of_nodup (distinct : (entries.map Prod.fst).Nodup) (member : entry ∈ entries) :
    ∃ before behind, entries = before ++ entry :: behind ∧ ∀ other ∈ before, other.1 ≠ entry.1 := by
  obtain ⟨before, behind, rfl⟩ := List.append_of_mem member
  refine ⟨before, behind, rfl, ?_⟩
  intro other earlier same
  rw [List.map_append, List.map_cons] at distinct
  exact (List.nodup_append.mp distinct).2.2 _ (List.mem_map_of_mem earlier) _ List.mem_cons_self same

variable [DecidableEq Key]

theorem find?_of_nodup (distinct : (entries.map Prod.fst).Nodup) (member : entry ∈ entries) :
    entries.find? (·.1 = entry.1) = some entry := by
  obtain ⟨before, behind, split, differ⟩ := first_of_nodup distinct member
  rw [List.find?_eq_some_iff_append]
  exact ⟨by simp, before, behind, split, fun other earlier => by simp [differ other earlier]⟩

theorem lookup_of_nodup (distinct : (entries.map Prod.fst).Nodup) (member : entry ∈ entries) :
    entries.lookup entry.1 = some entry.2 := by
  obtain ⟨before, behind, split, differ⟩ := first_of_nodup distinct member
  rw [List.lookup_eq_some_iff]
  exact ⟨before, behind, split, fun other earlier => by simp [(differ other earlier).symm]⟩

end Entries

namespace HashGroups

variable {Key Item : Type} [DecidableEq Key]

section Collect

variable (key : Item → Key)

/-- `groups.entry(key).or_default().push(item)`. -/
def push (groups : List (Key × List Item)) (item : Item) : List (Key × List Item) :=
  if key item ∈ groups.map Prod.fst then
    groups.map fun group => if group.1 = key item then (group.1, group.2 ++ [item]) else group
  else groups ++ [(key item, [item])]

def collect (items : List Item) : List (Key × List Item) := items.foldl (push key) []

/-- The groups of the items, each under its own key and in the order of the items. -/
structure Complete (items : List Item) (groups : List (Key × List Item)) : Prop where
  distinct : (groups.map Prod.fst).Nodup
  covers : ∀ name, name ∈ groups.map Prod.fst ↔ name ∈ items.map key
  members : ∀ group ∈ groups, group.2 = items.filter (key · = group.1)

variable {key}

theorem map_fst_push (groups : List (Key × List Item)) (item : Item) : (push key groups item).map Prod.fst =
    if key item ∈ groups.map Prod.fst then groups.map Prod.fst else groups.map Prod.fst ++ [key item] := by
  unfold push
  split_ifs with known
  · rw [List.map_map]
    refine List.map_congr_left fun group _ => ?_
    rw [Function.comp_apply]
    split_ifs <;> rfl
  · rw [List.map_append, List.map_singleton]

/-- One more item completes the groups of one more item. -/
theorem Complete.push {items : List Item} {groups : List (Key × List Item)} (complete : Complete key items groups)
    (item : Item) : Complete key (items ++ [item]) (push key groups item) := by
  constructor
  · rw [map_fst_push]
    split_ifs with known
    · exact complete.distinct
    · exact List.nodup_append.mpr ⟨complete.distinct, List.nodup_singleton _, by
        rintro name inside other last rfl
        rw [List.mem_singleton.mp last] at inside
        exact known inside⟩
  · intro name
    rw [map_fst_push, List.map_append, List.map_singleton, List.mem_append, List.mem_singleton, ← complete.covers]
    split_ifs with known
    · constructor
      · exact .inl
      · rintro (inside | rfl)
        · exact inside
        · exact known
    · rw [List.mem_append, List.mem_singleton]
  · intro group member
    rw [List.filter_append, List.filter_singleton]
    unfold HashGroups.push at member
    split_ifs at member with known
    · obtain ⟨old, inside, rfl⟩ := List.mem_map.mp member
      split_ifs with same
      · rw [complete.members old inside, same]
        simp
      · simpa [Ne.symm same] using complete.members old inside
    · rcases List.mem_append.mp member with inside | last
      · have differ : key item ≠ group.1 := fun same => known (same ▸ List.mem_map_of_mem inside)
        simpa [differ] using complete.members group inside
      · obtain rfl := List.mem_singleton.mp last
        rw [complete.covers] at known
        have none : items.filter (key · = key item) = [] := by
          rw [List.filter_eq_nil_iff]
          intro other inside
          simpa using fun same : key other = key item => known (same ▸ List.mem_map_of_mem inside)
        simp [none]

theorem complete_collect (items : List Item) : Complete key items (collect key items) := by
  induction items using List.reverseRecOn with
  | nil => exact ⟨List.nodup_nil, by simp [collect], by simp [collect]⟩
  | append_singleton items item ih =>
      have step := ih.push item
      rwa [collect, List.foldl_concat]

theorem Complete.perm {items : List Item} {groups others : List (Key × List Item)}
    (complete : Complete key items groups) (permuted : others.Perm groups) : Complete key items others where
  distinct := (permuted.map Prod.fst).nodup_iff.mpr complete.distinct
  covers name := (permuted.map Prod.fst).mem_iff.trans (complete.covers name)
  members group member := complete.members group (permuted.mem_iff.mp member)

/-- Among keys that differ one is the key of the item. -/
theorem flatMap_own {names : List Key} (distinct : names.Nodup) {item : Item} (covered : key item ∈ names) :
    (names.flatMap fun name => if key item = name then [item] else []) = [item] := by
  obtain ⟨before, behind, rfl⟩ := List.append_of_mem covered
  obtain ⟨outside, -⟩ := List.nodup_cons.mp (List.nodup_middle.mp distinct)
  have none : ∀ part : List Key, part ⊆ before ++ behind →
      (part.flatMap fun name => if key item = name then [item] else []) = [] := by
    intro part inside
    rw [List.flatMap_eq_nil_iff]
    intro name member
    have differ : key item ≠ name := by
      rintro rfl
      exact outside (inside member)
    rw [if_neg differ]
  rw [List.flatMap_append, List.flatMap_cons, if_pos rfl, none before (List.subset_append_left _ _),
    none behind (List.subset_append_right _ _)]
  rfl

/-- Keys that differ and cover the items cut them into their groups. -/
theorem flatMap_filter_perm {names : List Key} (distinct : names.Nodup) {items : List Item}
    (covered : ∀ item ∈ items, key item ∈ names) :
    (names.flatMap fun name => items.filter (key · = name)).Perm items := by
  induction items with
  | nil => simp
  | cons item rest ih =>
      obtain ⟨here, later⟩ := List.forall_mem_cons.mp covered
      have split : ∀ name, (item :: rest).filter (key · = name) =
          (if key item = name then [item] else []) ++ rest.filter (key · = name) := by
        intro name
        by_cases same : key item = name <;> simp [same]
      simp only [split]
      refine (List.flatMap_append_perm names _ _).symm.trans ?_
      rw [flatMap_own distinct here]
      exact (ih later).cons item

theorem Complete.flatMap_perm {items : List Item} {groups : List (Key × List Item)}
    (complete : Complete key items groups) : (groups.flatMap Prod.snd).Perm items := by
  have cut : groups.flatMap Prod.snd = (groups.map Prod.fst).flatMap fun name => items.filter (key · = name) := by
    rw [List.flatMap_map]
    exact List.flatMap_congr complete.members
  rw [cut]
  exact flatMap_filter_perm complete.distinct fun item member =>
    (complete.covers _).mpr (List.mem_map_of_mem member)

end Collect

section Iterate

/-- The groups in the order in which the map yields its keys. -/
def iterate (order : HashOrder Key) (groups : List (Key × List Item)) : List (Key × List Item) :=
  (order.arrange (groups.map Prod.fst)).filterMap fun name => (groups.lookup name).map fun group => (name, group)

theorem filterMap_lookup {groups : List (Key × List Item)} (distinct : (groups.map Prod.fst).Nodup) :
    ((groups.map Prod.fst).filterMap fun name => (groups.lookup name).map fun group => (name, group)) = groups := by
  have found : ∀ group ∈ groups, ((groups.lookup group.1).map fun items => (group.1, items)) = some group := by
    intro group member
    rw [lookup_of_nodup distinct member]
    rfl
  rw [List.filterMap_map]
  exact (List.filterMap_congr found).trans List.filterMap_some

/-- The map yields each of its groups once. -/
theorem iterate_perm (order : HashOrder Key) {groups : List (Key × List Item)}
    (distinct : (groups.map Prod.fst).Nodup) : (iterate order groups).Perm groups := by
  have arranged := (order.perm (groups.map Prod.fst)).filterMap fun name =>
    (groups.lookup name).map fun group => (name, group)
  rwa [filterMap_lookup distinct] at arranged

end Iterate

section Columns

/-- The items of one index, one of each group that has it. -/
def column (groups : List (Key × List Item)) (index : ℕ) : List Item := groups.filterMap (·.2[index]?)

theorem flatMap_getElem? (items : List Item) :
    ((List.range items.length).flatMap fun index => (items[index]?).toList) = items := by
  induction items with
  | nil => rfl
  | cons item rest ih =>
      rw [List.length_cons, List.range_succ_eq_map, List.flatMap_cons, List.flatMap_map]
      exact congrArg (item :: ·) ih

omit [DecidableEq Key] in
/-- The columns of even groups hold the items of the groups. -/
theorem flatten_columns_perm {groups : List (Key × List Item)} {size : ℕ}
    (even : ∀ group ∈ groups, group.2.length = size) :
    ((List.range size).map (column groups)).flatten.Perm (groups.flatMap Prod.snd) := by
  rw [← List.flatMap_def]
  induction groups with
  | nil => simp [column]
  | cons group rest ih =>
      obtain ⟨here, later⟩ := List.forall_mem_cons.mp even
      have split : column (group :: rest) = fun index => (group.2[index]?).toList ++ column rest index := by
        funext index
        rw [column, List.filterMap_cons]
        cases group.2[index]? <;> rfl
      rw [split]
      refine (List.flatMap_append_perm (List.range size) _ _).symm.trans ?_
      rw [List.flatMap_cons, ← here, flatMap_getElem?, here]
      exact (ih later).append_left group.2

end Columns

section Relabel

variable {Other : Type} (relabel : Item → Other)

/-- The groups of other items, one for each item. -/
def relabelGroups (groups : List (Key × List Item)) : List (Key × List Other) :=
  groups.map fun group => (group.1, group.2.map relabel)

omit [DecidableEq Key] in
theorem map_fst_relabelGroups (groups : List (Key × List Item)) :
    (relabelGroups relabel groups).map Prod.fst = groups.map Prod.fst := by
  rw [relabelGroups, List.map_map]
  rfl

theorem push_relabel (key : Other → Key) (groups : List (Key × List Item)) (item : Item) :
    push key (relabelGroups relabel groups) (relabel item) =
      relabelGroups relabel (push (key ∘ relabel) groups item) := by
  rw [push, push, map_fst_relabelGroups, Function.comp_apply]
  split_ifs
  · rw [relabelGroups, relabelGroups, List.map_map, List.map_map]
    refine List.map_congr_left fun group _ => ?_
    rw [Function.comp_apply, Function.comp_apply]
    split_ifs <;> simp
  · simp [relabelGroups]

theorem collect_relabel (key : Other → Key) (items : List Item) :
    collect key (items.map relabel) = relabelGroups relabel (collect (key ∘ relabel) items) := by
  induction items using List.reverseRecOn with
  | nil => rfl
  | append_singleton items item ih =>
      rw [collect, collect] at ih
      rw [collect, collect, List.map_append, List.map_singleton, List.foldl_concat, List.foldl_concat, ih, push_relabel]

theorem iterate_relabel (order : HashOrder Key) (groups : List (Key × List Item)) :
    iterate order (relabelGroups relabel groups) = relabelGroups relabel (iterate order groups) := by
  have looked : ∀ name, (relabelGroups relabel groups).lookup name = (groups.lookup name).map (List.map relabel) := by
    intro name
    induction groups with
    | nil => rfl
    | cons group rest ih =>
        rw [relabelGroups] at ih
        rw [relabelGroups, List.map_cons, List.lookup_cons, List.lookup_cons, ih]
        cases name == group.1 <;> rfl
  rw [iterate, map_fst_relabelGroups]
  simp only [looked]
  rw [relabelGroups, iterate, List.map_filterMap]
  refine List.filterMap_congr fun name _ => ?_
  cases groups.lookup name <;> rfl

omit [DecidableEq Key] in
theorem column_relabel (groups : List (Key × List Item)) (index : ℕ) :
    column (relabelGroups relabel groups) index = (column groups index).map relabel := by
  rw [column, column, relabelGroups, List.filterMap_map, List.map_filterMap]
  refine List.filterMap_congr fun group _ => ?_
  rw [Function.comp_apply, List.getElem?_map]

end Relabel

end HashGroups

end Spicebench.Library
