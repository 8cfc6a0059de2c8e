import Mathlib.Data.List.Basic
import Mathlib.Logic.Basic

namespace Spicebench.Library

/-- A tree of leaves, sequences and mappings, where a key is a tree too. -/
inductive DataTree (Leaf : Type) where
  | leaf (value : Leaf)
  | sequence (items : List (DataTree Leaf))
  | mapping (entries : List (DataTree Leaf × DataTree Leaf))

namespace DataTree

variable {Leaf : Type}

section Equality

variable [DecidableEq Leaf]

mutual
def decEq : (first second : DataTree Leaf) → Decidable (first = second)
  | .leaf first, .leaf second => decidable_of_iff (first = second) (by simp)
  | .sequence first, .sequence second =>
      have := decEqItems first second
      decidable_of_iff (first = second) (by simp)
  | .mapping first, .mapping second =>
      have := decEqEntries first second
      decidable_of_iff (first = second) (by simp)
  | .leaf _, .sequence _ | .leaf _, .mapping _ | .sequence _, .leaf _ | .sequence _, .mapping _
  | .mapping _, .leaf _ | .mapping _, .sequence _ => isFalse nofun

def decEqItems : (first second : List (DataTree Leaf)) → Decidable (first = second)
  | [], [] => isTrue rfl
  | [], _ :: _ | _ :: _, [] => isFalse nofun
  | one :: first, two :: second =>
      have := decEq one two
      have := decEqItems first second
      decidable_of_iff (one = two ∧ first = second) (by simp)

def decEqEntries : (first second : List (DataTree Leaf × DataTree Leaf)) → Decidable (first = second)
  | [], [] => isTrue rfl
  | [], _ :: _ | _ :: _, [] => isFalse nofun
  | (key, one) :: first, (other, two) :: second =>
      have := decEq key other
      have := decEq one two
      have := decEqEntries first second
      decidable_of_iff (key = other ∧ one = two ∧ first = second) (by simp [and_assoc])
end

instance : DecidableEq (DataTree Leaf) := decEq

end Equality

section Induction

variable {motive : DataTree Leaf → Prop} (leaf : ∀ value, motive (.leaf value))
  (sequence : ∀ items, (∀ item ∈ items, motive item) → motive (.sequence items))
  (mapping : ∀ entries, (∀ entry ∈ entries, motive entry.1 ∧ motive entry.2) → motive (.mapping entries))

include leaf sequence mapping

mutual
/-- What holds of a node once it holds of the trees below it holds of every tree. -/
theorem induct : ∀ tree, motive tree
  | .leaf value => leaf value
  | .sequence items => sequence items (inductItems items)
  | .mapping entries => mapping entries (inductEntries entries)

theorem inductItems : ∀ items : List (DataTree Leaf), ∀ item ∈ items, motive item
  | [] => by simp
  | item :: rest => List.forall_mem_cons.mpr ⟨induct item, inductItems rest⟩

theorem inductEntries : ∀ entries : List (DataTree Leaf × DataTree Leaf), ∀ entry ∈ entries, motive entry.1 ∧ motive entry.2
  | [] => by simp
  | (key, value) :: rest => List.forall_mem_cons.mpr ⟨⟨induct key, induct value⟩, inductEntries rest⟩
end

end Induction

section All

variable (node : DataTree Leaf → Bool)

mutual
/-- The check holds of each node of the tree, the nodes of its keys included. -/
def all : DataTree Leaf → Bool
  | .leaf value => node (.leaf value)
  | .sequence items => node (.sequence items) && allItems items
  | .mapping entries => node (.mapping entries) && allEntries entries

def allItems : List (DataTree Leaf) → Bool
  | [] => true
  | item :: rest => all item && allItems rest

def allEntries : List (DataTree Leaf × DataTree Leaf) → Bool
  | [] => true
  | (key, value) :: rest => (all key && all value) && allEntries rest
end

theorem allItems_iff (items : List (DataTree Leaf)) : allItems node items = true ↔ ∀ item ∈ items, item.all node = true := by
  induction items with
  | nil => simp [allItems]
  | cons item rest ih => simp [allItems, ih]

theorem allEntries_iff (entries : List (DataTree Leaf × DataTree Leaf)) :
    allEntries node entries = true ↔ ∀ entry ∈ entries, entry.1.all node = true ∧ entry.2.all node = true := by
  induction entries with
  | nil => simp [allEntries]
  | cons entry rest ih =>
      obtain ⟨key, value⟩ := entry
      simp [allEntries, ih]

@[simp] theorem all_leaf (value : Leaf) : (DataTree.leaf value).all node = node (.leaf value) := rfl

@[simp] theorem all_sequence (items : List (DataTree Leaf)) :
    (DataTree.sequence items).all node = true ↔ node (.sequence items) = true ∧ ∀ item ∈ items, item.all node = true := by
  rw [all, Bool.and_eq_true, allItems_iff]

@[simp] theorem all_mapping (entries : List (DataTree Leaf × DataTree Leaf)) :
    (DataTree.mapping entries).all node = true ↔ node (.mapping entries) = true ∧
      ∀ entry ∈ entries, entry.1.all node = true ∧ entry.2.all node = true := by
  rw [all, Bool.and_eq_true, allEntries_iff]

end All

end DataTree

end Spicebench.Library
