import Mathlib

namespace Spicebench.Library

/-- A change creates, updates or deletes the record of one key. -/
inductive Change (Key : Type) where
  | create (key : Key)
  | update (key : Key)
  | delete (key : Key)
  deriving DecidableEq, Repr

namespace Change

variable {Key : Type}

def createdKey? : Change Key → Option Key
  | .create key => some key
  | _ => none

def deletedKey? : Change Key → Option Key
  | .delete key => some key
  | _ => none

/-- The mutations are the updates and the deletes. -/
def mutatedKey? : Change Key → Option Key
  | .create _ => none
  | .update key => some key
  | .delete key => some key

/-- The change in the number of live keys. -/
def delta : Change Key → Int
  | .create _ => 1
  | .update _ => 0
  | .delete _ => -1

variable [DecidableEq Key]

/-- A create needs a key that is not live, and a mutation needs a live one. -/
def Fits (live : Finset Key) : Change Key → Prop
  | .create key => key ∉ live
  | .update key => key ∈ live
  | .delete key => key ∈ live

def apply (live : Finset Key) : Change Key → Finset Key
  | .create key => insert key live
  | .update _ => live
  | .delete key => live.erase key

theorem card_apply {live : Finset Key} {change : Change Key} (fits : change.Fits live) :
    ((change.apply live).card : Int) = live.card + change.delta := by
  cases change with
  | create key =>
      have card := Finset.card_insert_of_notMem fits
      simp only [apply, delta, card]
      push_cast
      rfl
  | update key => simp [apply, delta]
  | delete key =>
      have card := Finset.card_erase_add_one fits
      simp only [apply, delta]
      omega

end Change

/-- A log is a list of changes in the order in which they take effect. -/
abbrev KeyLog (Key : Type) := List (Change Key)

namespace KeyLog

variable {Key : Type}

def created (log : KeyLog Key) : List Key := log.filterMap Change.createdKey?

def deleted (log : KeyLog Key) : List Key := log.filterMap Change.deletedKey?

def mutated (log : KeyLog Key) : List Key := log.filterMap Change.mutatedKey?

@[simp] theorem created_append (first second : KeyLog Key) :
    created (first ++ second) = created first ++ created second := List.filterMap_append

@[simp] theorem deleted_append (first second : KeyLog Key) :
    deleted (first ++ second) = deleted first ++ deleted second := List.filterMap_append

@[simp] theorem mutated_append (first second : KeyLog Key) :
    mutated (first ++ second) = mutated first ++ mutated second := List.filterMap_append

/-- The creates and the deletes are the changes that move the count. -/
theorem sum_delta (log : KeyLog Key) :
    (log.map Change.delta).sum = ((created log).length : Int) - (deleted log).length := by
  induction log with
  | nil => rfl
  | cons change rest ih =>
      rw [List.map_cons, List.sum_cons, ih]
      cases change with
      | create key =>
          change 1 + _ = ((created rest).length + 1 : Nat) - ((deleted rest).length : Int)
          omega
      | update key =>
          change 0 + _ = ((created rest).length : Int) - (deleted rest).length
          omega
      | delete key =>
          change -1 + _ = ((created rest).length : Int) - ((deleted rest).length + 1 : Nat)
          omega

variable [DecidableEq Key]

/-- The replay applies the changes in order. -/
def replay (live : Finset Key) (log : KeyLog Key) : Finset Key := log.foldl Change.apply live

/-- Every change fits the keys that are live when it takes effect. -/
def Valid : Finset Key → KeyLog Key → Prop
  | _, [] => True
  | live, change :: rest => change.Fits live ∧ Valid (change.apply live) rest

@[simp] theorem replay_nil (live : Finset Key) : replay live [] = live := rfl

theorem replay_append (live : Finset Key) (first second : KeyLog Key) :
    replay live (first ++ second) = replay (replay live first) second := List.foldl_append

theorem valid_append (live : Finset Key) (first second : KeyLog Key) :
    Valid live (first ++ second) ↔ Valid live first ∧ Valid (replay live first) second := by
  induction first generalizing live with
  | nil => simp [Valid]
  | cons change rest ih =>
      simp only [List.cons_append, Valid, ih, and_assoc]
      rfl

/-- Fresh distinct keys can be created one after another. -/
theorem valid_creates {live : Finset Key} {keys : List Key} (nodup : keys.Nodup)
    (fresh : ∀ key ∈ keys, key ∉ live) :
    Valid live (keys.map Change.create) ∧
      replay live (keys.map Change.create) = live ∪ keys.toFinset := by
  induction keys generalizing live with
  | nil => simp [Valid]
  | cons key rest ih =>
      rw [List.nodup_cons] at nodup
      have later : ∀ other ∈ rest, other ∉ insert key live := by
        intro other member
        have differs : other ≠ key := fun same => nodup.1 (same ▸ member)
        simp [differs, fresh other (by simp [member])]
      obtain ⟨valid, final⟩ := ih nodup.2 later
      constructor
      · exact ⟨fresh key (by simp), valid⟩
      · calc replay live ((key :: rest).map Change.create)
            = replay (insert key live) (rest.map Change.create) := rfl
          _ = insert key live ∪ rest.toFinset := final
          _ = live ∪ (key :: rest).toFinset := by
              ext other
              simp only [Finset.mem_union, Finset.mem_insert, List.toFinset_cons]
              tauto

/-- Updates of live keys keep the live keys. -/
theorem valid_updates {live : Finset Key} {keys : List Key} (inside : ∀ key ∈ keys, key ∈ live) :
    Valid live (keys.map Change.update) ∧ replay live (keys.map Change.update) = live := by
  induction keys with
  | nil => simp [Valid]
  | cons key rest ih =>
      obtain ⟨valid, final⟩ := ih fun other member => inside other (by simp [member])
      exact ⟨⟨inside key (by simp), valid⟩, final⟩

/-- Live distinct keys can be deleted one after another. -/
theorem valid_deletes {live : Finset Key} {keys : List Key} (nodup : keys.Nodup)
    (inside : ∀ key ∈ keys, key ∈ live) :
    Valid live (keys.map Change.delete) ∧
      replay live (keys.map Change.delete) = live \ keys.toFinset := by
  induction keys generalizing live with
  | nil => simp [Valid]
  | cons key rest ih =>
      rw [List.nodup_cons] at nodup
      have later : ∀ other ∈ rest, other ∈ live.erase key := by
        intro other member
        have differs : other ≠ key := fun same => nodup.1 (same ▸ member)
        simp [differs, inside other (by simp [member])]
      obtain ⟨valid, final⟩ := ih nodup.2 later
      constructor
      · exact ⟨inside key (by simp), valid⟩
      · calc replay live ((key :: rest).map Change.delete)
            = replay (live.erase key) (rest.map Change.delete) := rfl
          _ = live.erase key \ rest.toFinset := final
          _ = live \ (key :: rest).toFinset := by
              ext other
              simp only [Finset.mem_sdiff, Finset.mem_erase, List.toFinset_cons, Finset.mem_insert]
              tauto

/-- A valid log changes the number of live keys by its creates minus its deletes. -/
theorem card_replay {live : Finset Key} {log : KeyLog Key} (valid : Valid live log) :
    ((replay live log).card : Int) = live.card + (created log).length - (deleted log).length := by
  have counted : ((replay live log).card : Int) = live.card + (log.map Change.delta).sum := by
    induction log generalizing live with
    | nil => simp
    | cons change rest ih =>
        have head := Change.card_apply valid.1
        have tail : ((replay live (change :: rest)).card : Int)
            = (change.apply live).card + (rest.map Change.delta).sum := ih valid.2
        rw [tail, head, List.map_cons, List.sum_cons, Int.add_assoc]
  rw [counted, sum_delta]
  omega

/-- A live key was live at first or created. -/
theorem replay_subset {live : Finset Key} {log : KeyLog Key} {key : Key}
    (member : key ∈ replay live log) : key ∈ live ∨ key ∈ created log := by
  induction log generalizing live with
  | nil => exact .inl member
  | cons change rest ih =>
      have tail := ih member
      cases change with
      | create other =>
          have shape : created (.create other :: rest) = other :: created rest := rfl
          rw [shape]
          simp only [Change.apply, Finset.mem_insert, List.mem_cons] at tail ⊢
          tauto
      | update other => exact tail
      | delete other =>
          exact tail.imp_left Finset.mem_of_mem_erase

/-- A deleted key was live at first or created before. -/
theorem deleted_subset {live : Finset Key} {log : KeyLog Key} (valid : Valid live log) {key : Key}
    (gone : key ∈ deleted log) : key ∈ live ∨ key ∈ created log := by
  induction log generalizing live with
  | nil => simp [deleted] at gone
  | cons change rest ih =>
      have tail := ih valid.2
      have fits := valid.1
      cases change <;>
        simp [deleted, created, Change.createdKey?, Change.deletedKey?, Change.apply,
          Change.Fits] at gone tail fits ⊢ <;> grind

/-- Where no key is created twice, no key is deleted twice. -/
theorem nodup_deleted {live : Finset Key} {log : KeyLog Key} (valid : Valid live log)
    (nodup : (created log).Nodup) (fresh : ∀ key ∈ created log, key ∉ live) :
    (deleted log).Nodup := by
  induction log generalizing live with
  | nil => simp [deleted]
  | cons change rest ih =>
      cases change with
      | create key =>
          obtain ⟨apart, nodup⟩ := List.nodup_cons.mp nodup
          apply ih valid.2 nodup
          intro other member
          have differs : other ≠ key := fun same => apart (same ▸ member)
          simp [Change.apply, differs, fresh other (List.mem_cons_of_mem _ member)]
      | update key => exact ih valid.2 nodup fresh
      | delete key =>
          have later : (deleted rest).Nodup :=
            ih valid.2 nodup fun other member inside =>
              fresh other member (Finset.mem_of_mem_erase inside)
          refine List.nodup_cons.mpr ⟨?_, later⟩
          intro again
          -- the key is no longer live, so a second delete needs a second create
          have source := deleted_subset valid.2 again
          simp only [Change.apply, Finset.mem_erase, ne_eq, not_true, false_and, false_or] at source
          exact fresh key source valid.1

end KeyLog

end Spicebench.Library
