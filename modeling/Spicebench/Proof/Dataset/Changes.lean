import Spicebench.Construction.Dataset.Generator
import Mathlib.Data.List.Zip

namespace Spicebench.DataGeneration

open Library

variable {Key Data : Type}

@[simp] theorem keys_withData (keys : List Key) (data : Nat → Data) :
    (withData keys data).map Prod.fst = keys := by
  rw [withData, List.map_map]
  exact List.zipIdx_map_fst 0 keys

@[simp] theorem keys_const (keys : List Key) (data : Data) :
    (keys.map fun key => (key, data)).map Prod.fst = keys := by
  simp [Function.comp_def]

@[simp] theorem length_withData (keys : List Key) (data : Nat → Data) :
    (withData keys data).length = keys.length := by
  rw [← List.length_map (f := Prod.fst), keys_withData]

namespace Changes

variable (changes : Changes Key Data)

def createdKeys : List Key := changes.creates.map Prod.fst

def deletedKeys : List Key := changes.deletes.map Prod.fst

/-- The keys of the updates, then those of the deletes. -/
def mutatedKeys : List Key := changes.updates.map Prod.fst ++ changes.deletedKeys

theorem length_tagged : changes.tagged.length =
    changes.creates.length + changes.updates.length + changes.deletes.length := by
  simp [tagged, Nat.add_assoc]

/-- What a row shows apart from its op index comes from the tagged changes in order. -/
theorem filterMap_rows {Item : Type} (read : Row Key Data → Option Item)
    (tagged : Op × Key × Data → Option Item)
    (same : ∀ op key data opIndex, read ⟨key, data, some op, opIndex⟩ = tagged (op, key, data))
    (opBase : Int) : (changes.rows opBase).filterMap read = changes.tagged.filterMap tagged := by
  have positions : changes.tagged.zipIdx.map Prod.fst = changes.tagged := List.zipIdx_map_fst 0 _
  calc (changes.rows opBase).filterMap read
      = changes.tagged.zipIdx.filterMap fun entry => tagged entry.1 := by
        rw [rows, List.filterMap_map]
        apply List.filterMap_congr
        intro entry _
        exact same _ _ _ _
    _ = (changes.tagged.zipIdx.map Prod.fst).filterMap tagged := by
        rw [List.filterMap_map]
        rfl
    _ = changes.tagged.filterMap tagged := by rw [positions]

/-- The log of a generated batch lists its creates, its updates and its deletes. -/
theorem keyLog_rows (opBase : Int) :
    keyLog (changes.rows opBase) = changes.createdKeys.map Change.create ++
      (changes.updates.map Prod.fst).map Change.update ++ changes.deletedKeys.map Change.delete := by
  have tagged := changes.filterMap_rows Row.change?
    (fun entry => Row.change? ⟨entry.2.1, entry.2.2, some entry.1, opBase⟩) (fun _ _ _ _ => rfl) opBase
  rw [keyLog, tagged]
  simp [Changes.tagged, createdKeys, deletedKeys, List.filterMap_map, Function.comp_def, Row.change?]

theorem mem_rows {opBase : Int} {row : Row Key Data} (member : row ∈ changes.rows opBase) :
    (row.op = some .create ∧ (row.key, row.data) ∈ changes.creates) ∨
      (row.op = some .update ∧ (row.key, row.data) ∈ changes.updates) ∨
      (row.op = some .delete ∧ (row.key, row.data) ∈ changes.deletes) := by
  obtain ⟨entry, inside, rfl⟩ := List.mem_map.mp member
  have tagged : entry.1 ∈ changes.tagged := by
    have positions : changes.tagged.zipIdx.map Prod.fst = changes.tagged := List.zipIdx_map_fst 0 _
    rw [← positions]
    exact List.mem_map_of_mem inside
  obtain ⟨⟨op, key, data⟩, index⟩ := entry
  simp only [Changes.tagged, List.append_assoc, List.mem_append, List.mem_map, Prod.mk.injEq]
    at tagged
  rcases tagged with ⟨pair, inside, rfl, rfl⟩ | ⟨pair, inside, rfl, rfl⟩ | ⟨pair, inside, rfl, rfl⟩
  · exact .inl ⟨rfl, inside⟩
  · exact .inr (.inl ⟨rfl, inside⟩)
  · exact .inr (.inr ⟨rfl, inside⟩)

theorem op_of_mem_rows {opBase : Int} {row : Row Key Data} (member : row ∈ changes.rows opBase) :
    row.op = some .create ∨ row.op = some .update ∨ row.op = some .delete :=
  (changes.mem_rows member).imp And.left (Or.imp And.left And.left)

/-- Without mutations every row creates. -/
theorem create_of_calm (calm : changes.updates = [] ∧ changes.deletes = []) {opBase : Int}
    {row : Row Key Data} (member : row ∈ changes.rows opBase) : row.op = some .create := by
  rcases changes.mem_rows member with create | update | delete
  · exact create.1
  · simp [calm.1] at update
  · simp [calm.2] at delete

theorem mutated_keyLog (opBase : Int) :
    (keyLog (changes.rows opBase)).mutated = changes.mutatedKeys := by
  have split : changes.mutatedKeys = changes.updates.map Prod.fst ++ changes.deletedKeys := rfl
  simp [keyLog_rows, KeyLog.mutated, List.filterMap_map, Function.comp_def, Change.mutatedKey?, split]

variable [DecidableEq Key]

/-- The changes fit the live keys and lead to the next ones. -/
structure Fit (live next : Finset Key) : Prop where
  created : changes.createdKeys.Nodup
  fresh : ∀ key ∈ changes.createdKeys, key ∉ live
  mutated : changes.mutatedKeys.Nodup
  inside : ∀ key ∈ changes.mutatedKeys, key ∈ live ∪ changes.createdKeys.toFinset
  after : next = (live ∪ changes.createdKeys.toFinset) \ changes.deletedKeys.toFinset

variable {changes}

/-- The rows of fitting changes replay without a conflict. -/
theorem Fit.valid {live next : Finset Key} (fit : changes.Fit live next) (opBase : Int) :
    (keyLog (changes.rows opBase)).Valid live ∧
      (keyLog (changes.rows opBase)).replay live = next := by
  have updatable : ∀ key ∈ changes.updates.map Prod.fst,
      key ∈ live ∪ changes.createdKeys.toFinset :=
    fun key member => fit.inside key (List.mem_append_left _ member)
  have deletable : ∀ key ∈ changes.deletedKeys, key ∈ live ∪ changes.createdKeys.toFinset :=
    fun key member => fit.inside key (List.mem_append_right _ member)
  have creating := KeyLog.valid_creates fit.created fit.fresh
  have updating := KeyLog.valid_updates updatable
  have deleting := KeyLog.valid_deletes (List.nodup_append.mp fit.mutated).2.1 deletable
  rw [keyLog_rows, KeyLog.valid_append, KeyLog.valid_append]
  simp only [KeyLog.replay_append, creating.2, updating.2, deleting.2]
  exact ⟨⟨⟨creating.1, updating.1⟩, deleting.1⟩, fit.after.symm⟩

end Changes

end Spicebench.DataGeneration
