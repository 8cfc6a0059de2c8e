import Spicebench.Construction.Etl.WorkPlan

namespace Spicebench.Etl
open Library

variable {Table : Type} [DecidableEq Table]

theorem StepTables.mem_push {table other : Table} {step : Option (StepTables Table)} :
    other ∈ (StepTables.push table step).tables ↔
      other = table ∨ ∃ old, step = some old ∧ other ∈ old.tables := by
  cases step with
  | none => simp [StepTables.push]
  | some old =>
      by_cases member : table ∈ old.tables
      · simp only [StepTables.push, member, dite_true, Option.some.injEq, exists_eq_left']
        constructor
        · exact .inr
        · rintro (rfl | inside)
          · exact member
          · exact inside
      · simp [StepTables.push, member, or_comm]

theorem StepTables.mem_remove {table other : Table} {step : StepTables Table} :
    (∃ kept, step.remove table = some kept ∧ other ∈ kept.tables) ↔
      other ∈ step.tables ∧ other ≠ table := by
  unfold StepTables.remove
  split
  · rename_i empty
    have erased : other ∉ step.tables.erase table := by simp [empty]
    rw [step.nodup.mem_erase_iff] at erased
    simp only [reduceCtorEq, false_and, exists_false, false_iff]
    tauto
  · simp only [Option.some.injEq, exists_eq_left', step.nodup.mem_erase_iff]
    tauto

namespace WorkPlan

omit [DecidableEq Table] in
theorem mem_keys_iff {plan : WorkPlan Table} {batchId : Nat} :
    batchId ∈ plan.keys ↔ ∃ table, plan.Pending table batchId := by
  rw [← OrderedMap.get?_isSome_iff, Option.isSome_iff_exists]
  constructor
  · rintro ⟨step, found⟩
    obtain ⟨table, member⟩ := List.exists_mem_of_ne_nil _ step.nonempty
    exact ⟨table, step, found, member⟩
  · rintro ⟨_, step, found, _⟩
    exact ⟨step, found⟩

omit [DecidableEq Table] in
theorem pending_iff_entry {plan : WorkPlan Table} {table : Table} {batchId : Nat} :
    plan.Pending table batchId ↔ ∃ step, (batchId, step) ∈ plan.entries ∧ table ∈ step.tables := by
  simp only [Pending, OrderedMap.get?_eq_some_iff]

omit [DecidableEq Table] in
@[simp] theorem not_pending_empty (table : Table) (batchId : Nat) :
    ¬ WorkPlan.Pending .empty table batchId := by
  simp [Pending, OrderedMap.get?, OrderedMap.empty]

theorem pending_push {plan : WorkPlan Table} {table other : Table} {batchId otherId : Nat} :
    (plan.push table batchId).Pending other otherId ↔
      other = table ∧ otherId = batchId ∨ plan.Pending other otherId := by
  by_cases same : otherId = batchId
  · subst same
    simp only [Pending, push, OrderedMap.get?_alter_self, Option.some.injEq, exists_eq_left',
      StepTables.mem_push, and_true]
  · simp only [Pending, push, OrderedMap.get?_alter_ne _ same, same, and_false, false_or]

theorem pending_remove {plan : WorkPlan Table} {table other : Table} {batchId otherId : Nat} :
    (plan.remove table batchId).Pending other otherId ↔
      plan.Pending other otherId ∧ ¬ (other = table ∧ otherId = batchId) := by
  by_cases same : otherId = batchId
  · subst same
    simp only [Pending, remove, OrderedMap.get?_alter_self, and_true]
    cases found : plan.get? otherId with
    | none => simp
    | some step =>
        have kept := @StepTables.mem_remove _ _ table other step
        simpa using kept
  · simp only [Pending, remove, OrderedMap.get?_alter_ne _ same, same, and_false, not_false_eq_true,
      and_true]

/-- A restoration adds exactly the restored ids of its table. -/
theorem pending_restore {plan : WorkPlan Table} {table other : Table} {batchIds : List Nat}
    {otherId : Nat} :
    (plan.restoreUnconsumedReservations table batchIds).Pending other otherId ↔
      other = table ∧ otherId ∈ batchIds ∨ plan.Pending other otherId := by
  induction batchIds generalizing plan with
  | nil => simp [restoreUnconsumedReservations]
  | cons batchId rest ih =>
      change ((plan.push table batchId).restoreUnconsumedReservations table rest).Pending other otherId ↔ _
      rw [ih, pending_push, List.mem_cons]
      tauto

/-- A reservation takes the least planned id of the table at or after the start. -/
theorem reserve_some {plan next : WorkPlan Table} {table : Table} {afterBatchId batchId : Nat}
    {maxBatchId : Option Nat}
    (reserved : plan.reserveNextBatchIdForTable table afterBatchId maxBatchId = some (batchId, next)) :
    plan.Pending table batchId ∧ (∀ boundary ∈ maxBatchId, batchId ≤ boundary) ∧
      (∀ otherId, plan.Pending table otherId → afterBatchId < otherId → batchId ≤ otherId) ∧
      next = plan.remove table batchId := by
  simp only [reserveNextBatchIdForTable, Option.map_eq_some_iff, Prod.mk.injEq] at reserved
  obtain ⟨⟨foundId, step⟩, found, rfl, rfl⟩ := reserved
  have accepted := List.find?_some found
  obtain ⟨_, before, after, split, rejected⟩ := List.find?_eq_some_iff_append.mp found
  simp only [decide_eq_true_eq] at accepted
  obtain ⟨_, within, member⟩ := accepted
  have bounded : ∀ boundary ∈ maxBatchId, foundId ≤ boundary := by
    rintro boundary rfl
    simpa using within
  refine ⟨pending_iff_entry.mpr ⟨step, List.mem_of_find?_eq_some found, member⟩, bounded, ?_, rfl⟩
  intro otherId pending later
  obtain ⟨otherStep, entry, otherMember⟩ := pending_iff_entry.mp pending
  have order := plan.ascending
  rw [split] at entry order
  rcases List.mem_append.mp entry with entry | entry
  · -- An earlier entry was rejected, so it lies outside the range or beyond the boundary.
    have no := rejected _ entry
    have below : otherId < foundId :=
      (List.pairwise_append.mp order).2.2 _ entry (foundId, step) (by simp)
    have inside : maxBatchId.all (otherId ≤ ·) = true := by
      cases maxBatchId with
      | none => rfl
      | some boundary =>
          have := bounded boundary rfl
          simp only [Option.all_some, decide_eq_true_eq]
          omega
    simp only [inside, otherMember, and_true, Bool.not_eq_eq_eq_not, Bool.not_true,
      decide_eq_false_iff_not, not_le] at no
    omega
  · rcases List.mem_cons.mp entry with same | entry
    · exact (Prod.mk.inj same).1.ge
    · exact ((List.pairwise_cons.mp (List.pairwise_append.mp order).2.1).1 _ entry).le

/-- A failed reservation leaves no planned id of the table after the cursor and within the boundary. -/
theorem reserve_none {plan : WorkPlan Table} {table : Table} {afterBatchId otherId : Nat}
    {maxBatchId : Option Nat}
    (reserved : plan.reserveNextBatchIdForTable table afterBatchId maxBatchId = none)
    (pending : plan.Pending table otherId) (later : afterBatchId < otherId) :
    ∃ boundary ∈ maxBatchId, boundary < otherId := by
  simp only [reserveNextBatchIdForTable, Option.map_eq_none_iff, List.find?_eq_none,
    decide_eq_true_eq] at reserved
  obtain ⟨step, entry, member⟩ := pending_iff_entry.mp pending
  have rejected := reserved _ entry
  cases maxBatchId with
  | none => simp [member] at rejected; omega
  | some boundary =>
      refine ⟨boundary, rfl, ?_⟩
      simp only [member, Option.all_some, decide_eq_true_eq, and_true] at rejected
      omega

omit [DecidableEq Table] in
/-- A pop takes every table of the least planned id. -/
theorem pop_some {plan next : WorkPlan Table} {maxBatchId : Option Nat} {batchId : Nat}
    {tables : List Table} (popped : plan.popStep maxBatchId = some (batchId, tables, next)) :
    tables.Nodup ∧ tables ≠ [] ∧ (∀ boundary ∈ maxBatchId, batchId ≤ boundary) ∧
      (∀ table, table ∈ tables ↔ plan.Pending table batchId) ∧
      (∀ table otherId, plan.Pending table otherId → batchId ≤ otherId) ∧
      (∀ table otherId, next.Pending table otherId ↔ plan.Pending table otherId ∧ otherId ≠ batchId) := by
  unfold popStep at popped
  split at popped
  · simp at popped
  · rename_i first step rest listed
    split at popped
    · simp at popped
    · rename_i within
      simp only [Option.some.injEq, Prod.mk.injEq] at popped
      obtain ⟨rfl, rfl, rfl⟩ := popped
      have order := plan.ascending
      rw [listed] at order
      obtain ⟨above, _⟩ := List.pairwise_cons.mp order
      have entries : ∀ {table otherId}, plan.Pending table otherId ↔
          (otherId = first ∧ table ∈ step.tables) ∨
            ∃ other, (otherId, other) ∈ rest ∧ table ∈ other.tables := by
        intro table otherId
        rw [pending_iff_entry, listed]
        simp only [List.mem_cons, Prod.mk.injEq, or_and_right, exists_or]
        constructor
        · rintro (⟨other, ⟨rfl, rfl⟩, member⟩ | later)
          · exact .inl ⟨rfl, member⟩
          · exact .inr later
        · rintro (⟨rfl, member⟩ | later)
          · exact .inl ⟨step, ⟨rfl, rfl⟩, member⟩
          · exact .inr later
      refine ⟨step.nodup, step.nonempty, ?_, ?_, ?_, ?_⟩
      · rintro boundary rfl
        simpa using within
      · intro table
        rw [entries]
        constructor
        · exact fun member => .inl ⟨rfl, member⟩
        · rintro (⟨_, member⟩ | ⟨other, entry, _⟩)
          · exact member
          · exact absurd (above _ entry) (lt_irrefl _)
      · intro table otherId pending
        rcases entries.mp pending with ⟨rfl, _⟩ | ⟨other, entry, _⟩
        · exact le_rfl
        · exact (above _ entry).le
      · intro table otherId
        rw [entries, pending_iff_entry]
        simp only [OrderedMap.tail, listed, List.tail_cons]
        constructor
        · rintro ⟨other, entry, member⟩
          exact ⟨.inr ⟨other, entry, member⟩, (above _ entry).ne'⟩
        · rintro ⟨⟨same, _⟩ | later, differ⟩
          · exact absurd same differ
          · exact later

omit [DecidableEq Table] in
/-- Nothing is popped only when every planned id lies beyond the boundary. -/
theorem pop_none {plan : WorkPlan Table} {maxBatchId : Option Nat}
    (popped : plan.popStep maxBatchId = none) {table : Table} {otherId : Nat}
    (pending : plan.Pending table otherId) : ∃ boundary ∈ maxBatchId, boundary < otherId := by
  obtain ⟨step, entry, _⟩ := pending_iff_entry.mp pending
  unfold popStep at popped
  split at popped
  · rename_i listed
    simp [listed] at entry
  · rename_i first head rest listed
    split at popped
    · rename_i beyond
      cases maxBatchId with
      | none => simp at beyond
      | some boundary =>
          refine ⟨boundary, rfl, ?_⟩
          simp only [Option.any_some, decide_eq_true_eq] at beyond
          have order := plan.ascending
          rw [listed] at entry order
          rcases List.mem_cons.mp entry with same | entry
          · rw [(Prod.mk.inj same).1]
            exact beyond
          · exact beyond.trans ((List.pairwise_cons.mp order).1 _ entry)
    · simp at popped

/-- The size of a plan counts each table of each step. -/
def size (plan : WorkPlan Table) : Nat := plan.total fun step => step.tables.length

/-- Taking a planned id makes the plan smaller by one. -/
theorem size_remove {plan : WorkPlan Table} {table : Table} {batchId : Nat}
    (pending : plan.Pending table batchId) : (plan.remove table batchId).size + 1 = plan.size := by
  obtain ⟨step, found, member⟩ := pending
  have total := plan.total_alter (fun step => step.tables.length) batchId
    fun step => step.bind (StepTables.remove table)
  have shorter := List.length_erase_of_mem member
  have positive := List.length_pos_of_mem member
  have kept : ((step.remove table).map fun step => step.tables.length).getD 0 =
      (step.tables.erase table).length := by
    unfold StepTables.remove
    split
    · rename_i empty
      simp [empty]
    · rfl
  rw [found, Option.bind_some, kept] at total
  simp only [Option.map_some, Option.getD_some] at total
  unfold size remove
  omega

theorem size_push (plan : WorkPlan Table) (table : Table) (batchId : Nat) :
    (plan.push table batchId).size ≤ plan.size + 1 := by
  have total := plan.total_alter (fun step => step.tables.length) batchId
    fun step => some (StepTables.push table step)
  have longer : (StepTables.push table (plan.get? batchId)).tables.length ≤
      ((plan.get? batchId).map fun step => step.tables.length).getD 0 + 1 := by
    cases plan.get? batchId with
    | none => simp [StepTables.push]
    | some step =>
        unfold StepTables.push
        dsimp only
        split <;> simp
  simp only [Option.map_some, Option.getD_some] at total
  unfold size push
  omega

theorem size_restore (plan : WorkPlan Table) (table : Table) (batchIds : List Nat) :
    (plan.restoreUnconsumedReservations table batchIds).size ≤ plan.size + batchIds.length := by
  induction batchIds generalizing plan with
  | nil => exact le_rfl
  | cons batchId rest ih =>
      have later := ih (plan.push table batchId)
      have first := size_push plan table batchId
      simp only [restoreUnconsumedReservations, List.foldl_cons, List.length_cons] at later ⊢
      omega

omit [DecidableEq Table] in
/-- A pop makes the plan smaller. -/
theorem size_pop {plan next : WorkPlan Table} {maxBatchId : Option Nat} {batchId : Nat}
    {tables : List Table} (popped : plan.popStep maxBatchId = some (batchId, tables, next)) :
    next.size < plan.size := by
  unfold popStep at popped
  split at popped
  · simp at popped
  · rename_i first step rest listed
    split at popped
    · simp at popped
    · simp only [Option.some.injEq, Prod.mk.injEq] at popped
      obtain ⟨rfl, rfl, rfl⟩ := popped
      have positive := List.length_pos_of_ne_nil step.nonempty
      simp only [size, OrderedMap.total, OrderedMap.tail, listed, List.tail_cons, List.map_cons,
        List.sum_cons]
      omega

end WorkPlan

/-- One table enters the plan with each of its ids, except the one that `initialize` handled. -/
theorem pending_addTable {skipFirst : Bool} {table other : Table} {batchIds : List Nat}
    {plan : WorkPlan Table} {otherId : Nat} :
    (addTable skipFirst table batchIds plan).Pending other otherId ↔
      (other = table ∧ otherId ∈ batchIds ∧ ¬ (skipFirst = true ∧ batchIds.head? = some otherId)) ∨
        plan.Pending other otherId := by
  have skipped : ∀ batchId : Nat, some batchId = (if skipFirst then batchIds.head? else none) ↔
      skipFirst = true ∧ batchIds.head? = some batchId := by
    intro batchId
    cases skipFirst <;> simp [eq_comm]
  unfold addTable
  generalize (if skipFirst then batchIds.head? else none) = initializedId at skipped ⊢
  -- The ids already seen are planned, which makes the duplicate guard harmless.
  have general : ∀ (ids seen : List Nat) (plan : WorkPlan Table),
      (∀ batchId ∈ seen, plan.Pending table batchId) →
      ((ids.foldl (fun (state : List Nat × WorkPlan Table) batchId =>
        if some batchId = initializedId then state
        else if batchId ∈ state.1 then state
        else (batchId :: state.1, state.2.push table batchId)) (seen, plan)).2.Pending other otherId ↔
        (other = table ∧ otherId ∈ ids ∧ some otherId ≠ initializedId) ∨ plan.Pending other otherId) := by
    intro ids
    induction ids with
    | nil => simp
    | cons batchId rest ih =>
        intro seen plan planned
        rw [List.foldl_cons]
        by_cases first : some batchId = initializedId
        · rw [if_pos first, ih seen plan planned, List.mem_cons]
          constructor
          · rintro (⟨same, member, differ⟩ | old)
            · exact .inl ⟨same, .inr member, differ⟩
            · exact .inr old
          · rintro (⟨same, rfl | member, differ⟩ | old)
            · exact absurd first differ
            · exact .inl ⟨same, member, differ⟩
            · exact .inr old
        · rw [if_neg first]
          by_cases duplicate : batchId ∈ seen
          · rw [if_pos duplicate, ih seen plan planned, List.mem_cons]
            constructor
            · rintro (⟨same, member, differ⟩ | old)
              · exact .inl ⟨same, .inr member, differ⟩
              · exact .inr old
            · rintro (⟨rfl, rfl | member, differ⟩ | old)
              · exact .inr (planned _ duplicate)
              · exact .inl ⟨rfl, member, differ⟩
              · exact .inr old
          · rw [if_neg duplicate, ih, WorkPlan.pending_push, List.mem_cons]
            · constructor
              · rintro (⟨same, member, differ⟩ | ⟨same, rfl⟩ | old)
                · exact .inl ⟨same, .inr member, differ⟩
                · exact .inl ⟨same, .inl rfl, first⟩
                · exact .inr old
              · rintro (⟨same, rfl | member, differ⟩ | old)
                · exact .inr (.inl ⟨same, rfl⟩)
                · exact .inl ⟨same, member, differ⟩
                · exact .inr (.inr old)
            · intro otherId member
              rw [WorkPlan.pending_push]
              rcases List.mem_cons.mp member with rfl | member
              · exact .inl ⟨rfl, rfl⟩
              · exact .inr (planned otherId member)
  rw [general batchIds [] plan (by simp)]
  simp only [ne_eq, skipped]

/-- The built plan holds each distinct id of each table, except the initialized ones. -/
theorem pending_buildWorkPlan {metadata : Metadata Table} {order : List Table} {skipFirst : Bool}
    {table : Table} {batchId : Nat} :
    (buildWorkPlan metadata order skipFirst).Pending table batchId ↔
      table ∈ order ∧ batchId ∈ metadata.batchIds table ∧
        ¬ (skipFirst = true ∧ (metadata.batchIds table).head? = some batchId) := by
  unfold buildWorkPlan
  have general : ∀ (names : List Table) (plan : WorkPlan Table),
      (names.foldl (fun plan table => addTable skipFirst table (metadata.batchIds table) plan)
        plan).Pending table batchId ↔
      (table ∈ names ∧ batchId ∈ metadata.batchIds table ∧
        ¬ (skipFirst = true ∧ (metadata.batchIds table).head? = some batchId)) ∨
        plan.Pending table batchId := by
    intro names
    induction names with
    | nil => simp
    | cons name rest ih =>
        intro plan
        rw [List.foldl_cons, ih, pending_addTable, List.mem_cons]
        constructor
        · rintro (⟨member, facts⟩ | ⟨rfl, facts⟩ | old)
          · exact .inl ⟨.inr member, facts⟩
          · exact .inl ⟨.inl rfl, facts⟩
          · exact .inr old
        · rintro (⟨rfl | member, facts⟩ | old)
          · exact .inr (.inl ⟨rfl, facts⟩)
          · exact .inl ⟨member, facts⟩
          · exact .inr (.inr old)
  rw [general order .empty]
  simp

omit [DecidableEq Table] in
/-- The ids of a table are listed in ascending order. -/
theorem batchIds_sorted (metadata : Metadata Table) (table : Table) :
    (metadata.batchIds table).Pairwise (· ≤ ·) := by
  unfold Metadata.batchIds
  split
  · exact List.pairwise_lt_range.imp le_of_lt
  · exact List.pairwise_insertionSort _ _

end Spicebench.Etl
