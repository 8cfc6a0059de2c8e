import Spicebench.Construction.Dataset.RawKeySet
import Spicebench.Proof.Dataset.KeySet

namespace Spicebench.DataGeneration

open Library

section Updates

variable {Key : Type} [DecidableEq Key]

def IndexedKeySet.raw (set : IndexedKeySet Key) : RawKeySet Key := ⟨set.keys, set.index⟩

namespace KeyOperation

/-- What an operation does to the set that carries its invariant. -/
def onSet (operation : KeyOperation Key) (set : IndexedKeySet Key) : IndexedKeySet Key :=
  match operation with
  | .insert key => set.insert key
  | .remove key => set.remove key

/-- What an operation does to a finite set. -/
def effect (operation : KeyOperation Key) (members : Finset Key) : Finset Key :=
  match operation with
  | .insert key => Insert.insert key members
  | .remove key => members.erase key

theorem live_onSet (operation : KeyOperation Key) (set : IndexedKeySet Key) :
    (operation.onSet set).live = operation.effect set.live := by
  cases operation with
  | insert key => exact set.live_insert key
  | remove key => exact set.live_remove key

end KeyOperation

theorem IndexedKeySet.raw_insert (set : IndexedKeySet Key) (key : Key) :
    set.raw.insert key = (decide (key ∉ set.keys), (set.insert key).raw) := by
  unfold RawKeySet.insert IndexedKeySet.insert
  by_cases absent : set.index key = none
  · have outside := (set.indexed.absent_iff key).mp absent
    rw [dif_pos absent]
    simp [IndexedKeySet.raw, absent, outside]
  · have present : key ∈ set.keys := by rwa [set.indexed.absent_iff, not_not] at absent
    rw [dif_neg absent]
    simp [IndexedKeySet.raw, Option.isSome_iff_ne_none.mpr absent, present]

theorem IndexedKeySet.raw_remove_absent {set : IndexedKeySet Key} {key : Key} (absent : set.index key = none) :
    (set.remove key).raw = set.raw := by
  unfold IndexedKeySet.remove
  split
  · rfl
  · rename_i position found
    cases absent.symm.trans found

theorem IndexedKeySet.raw_remove_found {set : IndexedKeySet Key} {key : Key} {position : ℕ}
    (found : set.index key = some position) :
    (set.remove key).raw = ⟨swapRemove set.keys position, set.removedIndex key position⟩ := by
  unfold IndexedKeySet.remove
  split
  · rename_i absent
    cases absent.symm.trans found
  · rename_i other same
    obtain rfl := Option.some.inj (same.symm.trans found)
    rfl

/-- The place of a key is inside of the vector, so that a removal does not panic. -/
theorem IndexedKeySet.raw_remove (set : IndexedKeySet Key) (key : Key) :
    set.raw.remove key = some (decide (key ∈ set.keys), (set.remove key).raw) := by
  have index : set.raw.index key = set.index key := rfl
  rw [RawKeySet.remove, index]
  cases found : set.index key with
  | none =>
      have outside := (set.indexed.absent_iff key).mp found
      rw [raw_remove_absent found, decide_eq_false outside]
  | some position =>
      have stands := (set.indexed key position).mp found
      have inside := (List.getElem?_eq_some_iff.mp stands).1
      have taken : vecSwapRemove set.keys position = some (swapRemove set.keys position) := if_pos inside
      rw [raw_remove_found found, decide_eq_true (List.mem_of_getElem? stands), removedIndex]
      simp only [IndexedKeySet.raw, taken, Option.bind_eq_bind, Option.bind_some]
      cases (swapRemove set.keys position)[position]? <;> rfl

theorem KeyOperation.apply_raw (operation : KeyOperation Key) (set : IndexedKeySet Key) :
    ∃ changed, operation.apply set.raw = some (changed, (operation.onSet set).raw) ∧
      (changed = true ↔ operation.effect set.live ≠ set.live) := by
  cases operation with
  | insert key =>
      refine ⟨_, congrArg some (set.raw_insert key), ?_⟩
      rw [decide_eq_true_iff, effect, ne_eq, Finset.insert_eq_self, set.mem_live]
  | remove key =>
      refine ⟨_, set.raw_remove key, ?_⟩
      rw [decide_eq_true_iff, effect, ne_eq, Finset.erase_eq_self, set.mem_live, not_not]

/-- Each run goes through sets that carry the invariant. -/
theorem RawKeySet.run_raw (operations : List (KeyOperation Key)) (set : IndexedKeySet Key) :
    set.raw.run operations = some (operations.foldl (fun set operation => operation.onSet set) set).raw := by
  induction operations generalizing set with
  | nil => rfl
  | cons operation rest ih =>
      obtain ⟨changed, applied, -⟩ := operation.apply_raw set
      rw [RawKeySet.run, applied, List.foldl_cons, ← ih]
      rfl

end Updates

section Sampling

variable {State : Type} (rng : Rng State)

/-- The numbers that the source yields one after another. -/
def Rng.draws (len : ℕ) : ℕ → State → List ℕ
  | 0, _ => []
  | count + 1, state => (rng.randomRange len state).1 :: Rng.draws len count (rng.randomRange len state).2

variable {rng}

/-- The loop ends within its fuel exactly when the draws bring the chosen numbers to enough different ones. -/
theorem chooseUntil_isSome_iff (n len fuel : ℕ) (state : State) {chosen : List ℕ} (distinct : chosen.Nodup) :
    (RawKeySet.chooseUntil rng n len fuel chosen state).isSome = true ↔
      n ≤ (chosen ++ rng.draws len fuel state).toFinset.card := by
  induction fuel generalizing chosen state with
  | zero =>
      rw [RawKeySet.chooseUntil, Rng.draws, List.append_nil, List.toFinset_card_of_nodup distinct]
      split_ifs with fewer
      · simp [fewer]
      · simp [not_lt.mp fewer]
  | succ fuel ih =>
      rw [RawKeySet.chooseUntil]
      split_ifs with fewer
      · rw [ih _ distinct.insert, Rng.draws]
        have same : (chosen.insert (rng.randomRange len state).1 ++
            rng.draws len fuel (rng.randomRange len state).2).toFinset = (chosen ++ (rng.randomRange len state).1 ::
              rng.draws len fuel (rng.randomRange len state).2).toFinset := by
          ext position
          simp only [List.mem_toFinset, List.mem_append, List.mem_insert_iff, List.mem_cons]
          tauto
        rw [same]
      · have enough : n ≤ (chosen ++ rng.draws len (fuel + 1) state).toFinset.card := by
          rw [← List.toFinset_card_of_nodup distinct, not_lt] at fewer
          refine fewer.trans (Finset.card_le_card fun position member => ?_)
          simp [List.mem_toFinset.mp member]
        exact iff_of_true rfl enough

/-- What the loop leaves behind are as many different numbers as were asked for. -/
theorem of_chooseUntil {n len fuel : ℕ} {chosen positions : List ℕ} {state rest : State} (room : 0 < len)
    (distinct : chosen.Nodup) (few : chosen.length ≤ n) (below : ∀ position ∈ chosen, position < len)
    (ended : RawKeySet.chooseUntil rng n len fuel chosen state = some (positions, rest)) :
    positions.Nodup ∧ positions.length = n ∧ ∀ position ∈ positions, position < len := by
  induction fuel generalizing chosen state with
  | zero =>
      rw [RawKeySet.chooseUntil] at ended
      split_ifs at ended with fewer
      obtain ⟨rfl, -⟩ := Prod.mk.inj (Option.some.inj ended)
      exact ⟨distinct, le_antisymm few (not_lt.mp fewer), below⟩
  | succ fuel ih =>
      rw [RawKeySet.chooseUntil] at ended
      split_ifs at ended with fewer
      · refine ih distinct.insert ?_ ?_ ended
        · rw [List.length_insert]
          split_ifs <;> omega
        · intro position member
          rcases List.mem_insert_iff.mp member with rfl | known
          · exact rng.below len state room
          · exact below position known
      · obtain ⟨rfl, -⟩ := Prod.mk.inj (Option.some.inj ended)
        exact ⟨distinct, le_antisymm few (not_lt.mp fewer), below⟩

/-- A draw whose positions are the given ones, for one request. -/
def PositionDraw.only (positions : List ℕ) (n len : ℕ) (size : positions.length = n) (distinct : positions.Nodup)
    (below : ∀ position ∈ positions, position < len) : PositionDraw where
  positions count total := if count = n ∧ total = len then positions else List.range count
  length count total _ := by
    split_ifs with same
    · rw [size, same.1]
    · exact List.length_range
  distinct count total _ := by
    split_ifs
    · exact distinct
    · exact List.nodup_range
  below count total fewer position member := by
    split_ifs at member with same
    · exact same.2 ▸ below position member
    · exact (List.mem_range.mp member).trans fewer

theorem mapM_getElem? {Item : Type} {items : List Item} {positions : List ℕ}
    (below : ∀ position ∈ positions, position < items.length) :
    (positions.mapM fun position => items[position]?) =
      some (positions.filterMap fun position => items[position]?) := by
  induction positions with
  | nil => rfl
  | cons position rest ih =>
      obtain ⟨first, others⟩ := List.forall_mem_cons.mp below
      rw [List.mapM_cons, ih others, List.filterMap_cons, List.getElem?_eq_getElem first]
      rfl

variable {Key : Type}

/-- A sample that ends is one of the set with its invariant. -/
theorem IndexedKeySet.of_raw_sampleKeys {set : IndexedKeySet Key} {n fuel : ℕ} {order : HashOrder ℕ}
    {state rest : State} {sample : List Key} {after : RawKeySet Key}
    (ended : set.raw.sampleKeys n rng order fuel state = some (sample, after, rest)) :
    after = set.raw ∧ ∃ draw, sample = set.sampleKeys n draw := by
  unfold RawKeySet.sampleKeys at ended
  dsimp only at ended
  split_ifs at ended with all none
  · obtain ⟨rfl, rfl, -⟩ : set.raw.keys = sample ∧ set.raw = after ∧ state = rest := by simpa using ended
    exact ⟨rfl, .first, (if_pos all).symm⟩
  · obtain ⟨rfl, rfl, -⟩ : [] = sample ∧ set.raw = after ∧ state = rest := by simpa using ended
    exact ⟨rfl, .first, by rw [none, sampleKeys_zero]⟩
  · obtain ⟨⟨chosen, left⟩, looped, picked⟩ := Option.bind_eq_some_iff.mp ended
    have room : 0 < set.raw.keys.length := by omega
    obtain ⟨distinct, size, below⟩ := of_chooseUntil room List.nodup_nil (Nat.zero_le n) (by simp) looped
    have perm := order.perm chosen
    have inside : ∀ position ∈ order.arrange chosen, position < set.raw.keys.length := fun position member =>
      below position (perm.mem_iff.mp member)
    simp only [mapM_getElem? inside, Option.bind_eq_bind, Option.bind_some, Option.pure_def, Option.some.injEq,
      Prod.mk.injEq] at picked
    obtain ⟨rfl, rfl, -⟩ := picked
    refine ⟨rfl, .only (order.arrange chosen) n set.raw.keys.length (perm.length_eq.trans size)
      (perm.nodup_iff.mpr distinct) inside, ?_⟩
    have more : ¬set.len ≤ n := all
    have request : n = n ∧ set.len = set.raw.keys.length := ⟨rfl, rfl⟩
    rw [IndexedKeySet.sampleKeys, if_neg more, if_neg none, PositionDraw.only]
    dsimp only
    rw [if_pos request]
    rfl

/-- The sampling ends exactly when no draw is needed, or the draws bring enough different positions. -/
theorem IndexedKeySet.raw_sampleKeys_isSome_iff (set : IndexedKeySet Key) (n fuel : ℕ) (order : HashOrder ℕ)
    (state : State) : (set.raw.sampleKeys n rng order fuel state).isSome = true ↔
      set.raw.keys.length ≤ n ∨ n = 0 ∨ n ≤ (rng.draws set.raw.keys.length fuel state).toFinset.card := by
  have loop : (RawKeySet.chooseUntil rng n set.raw.keys.length fuel [] state).isSome = true ↔ _ :=
    chooseUntil_isSome_iff n set.raw.keys.length fuel state List.nodup_nil
  rw [List.nil_append] at loop
  rw [← loop]
  unfold RawKeySet.sampleKeys
  dsimp only
  split_ifs with all none
  · simp [all]
  · simp [none]
  · cases looped : RawKeySet.chooseUntil rng n set.raw.keys.length fuel [] state with
    | none => simp [all, none]
    | some result =>
        have room : 0 < set.raw.keys.length := by omega
        obtain ⟨-, -, below⟩ := of_chooseUntil room List.nodup_nil (Nat.zero_le n) (by simp) looped
        have inside : ∀ position ∈ order.arrange result.1, position < set.raw.keys.length := fun position member =>
          below position ((order.perm result.1).mem_iff.mp member)
        simp [mapM_getElem? inside]

end Sampling

/-- After every sequence of operations the vector and the index agree, the next operation has the effect that it has on
the finite set of the members and reports if it changed it, and a sample has different members, as many as were asked
for or all, once the source has yielded enough different positions. -/
theorem key_set_refines_finset {Key : Type} [DecidableEq Key] (operations : List (KeyOperation Key)) :
    ∃ set, RawKeySet.new.run operations = some set ∧ set.keys.Nodup ∧
      (∀ key, set.index key ≠ none ↔ key ∈ set.keys) ∧
      (∀ position key, set.keys[position]? = some key → set.index key = some position) ∧
      (∀ operation : KeyOperation Key, ∃ changed after, operation.apply set = some (changed, after) ∧
        after.keys.toFinset = operation.effect set.keys.toFinset ∧
        (changed = true ↔ after.keys.toFinset ≠ set.keys.toFinset)) ∧
      ∀ {State : Type} (rng : Rng State) (order : HashOrder ℕ) (n : ℕ) (state : State),
        ((∃ fuel result, set.sampleKeys n rng order fuel state = some result) ↔ set.keys.length ≤ n ∨ n = 0 ∨
          ∃ count, n ≤ (rng.draws set.keys.length count state).toFinset.card) ∧
        ∀ fuel sample after rest, set.sampleKeys n rng order fuel state = some (sample, after, rest) →
          sample.length = min n set.keys.length ∧ sample.Nodup ∧ (∀ key ∈ sample, key ∈ set.keys) ∧ after = set := by
  obtain ⟨set, reached⟩ : ∃ set : IndexedKeySet Key, RawKeySet.new.run operations = some set.raw :=
    ⟨_, RawKeySet.run_raw operations .new⟩
  refine ⟨set.raw, reached, set.nodup, ?_, ?_, ?_, ?_⟩
  · intro key
    exact (not_congr (set.indexed.absent_iff key)).trans not_not
  · intro position key stands
    exact (set.indexed key position).mpr stands
  · intro operation
    obtain ⟨changed, applied, reported⟩ := operation.apply_raw set
    have effect := operation.live_onSet set
    refine ⟨changed, _, applied, effect, ?_⟩
    exact reported.trans (by rw [← effect]; rfl)
  · intro State rng order n state
    constructor
    · constructor
      · rintro ⟨fuel, result, ended⟩
        have some := (set.raw_sampleKeys_isSome_iff n fuel order state).mp (by rw [ended]; rfl)
        exact some.imp_right (Or.imp_right fun enough => ⟨fuel, enough⟩)
      · intro condition
        obtain ⟨fuel, enough⟩ : ∃ fuel, set.raw.keys.length ≤ n ∨ n = 0 ∨
            n ≤ (rng.draws set.raw.keys.length fuel state).toFinset.card := by
          rcases condition with all | none | ⟨count, enough⟩
          · exact ⟨0, .inl all⟩
          · exact ⟨0, .inr (.inl none)⟩
          · exact ⟨count, .inr (.inr enough)⟩
        obtain ⟨result, ended⟩ :=
          Option.isSome_iff_exists.mp ((set.raw_sampleKeys_isSome_iff n fuel order state).mpr enough)
        exact ⟨fuel, result, ended⟩
    · intro fuel sample after rest ended
      obtain ⟨rfl, draw, rfl⟩ := IndexedKeySet.of_raw_sampleKeys ended
      exact ⟨set.length_sampleKeys n draw, set.nodup_sampleKeys n draw,
        fun key member => IndexedKeySet.mem_of_mem_sampleKeys member, rfl⟩

/-- The source that yields zero each time. -/
def zeroRng : Rng Unit where
  randomRange _ state := (0, state)
  below _ _ room := room

/-- A source that repeats itself keeps the sampling in its loop. -/
theorem sampling_repeats : ∃ set : RawKeySet ℕ, RawKeySet.new.run [.insert 1, .insert 2, .insert 3] = some set ∧
    set.keys.length = 3 ∧ ∀ order fuel, set.sampleKeys 2 zeroRng order fuel () = none := by
  refine ⟨_, RawKeySet.run_raw _ .new, rfl, fun order fuel => ?_⟩
  have few : ∀ fuel, (zeroRng.draws 3 fuel ()).toFinset ⊆ {0} := by
    intro fuel
    induction fuel with
    | zero => simp [Rng.draws]
    | succ fuel ih =>
        rw [Rng.draws, List.toFinset_cons, Finset.insert_subset_iff]
        exact ⟨by simp [zeroRng], ih⟩
  rw [← Option.not_isSome_iff_eq_none, IndexedKeySet.raw_sampleKeys_isSome_iff]
  have bound := Finset.card_le_card (few fuel)
  rw [Finset.card_singleton] at bound
  rintro (all | none | enough)
  · exact absurd all (by decide)
  · cases none
  · exact absurd (enough.trans bound) (by decide)

end Spicebench.DataGeneration
