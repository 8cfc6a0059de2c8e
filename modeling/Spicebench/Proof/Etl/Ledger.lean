import Spicebench.Proof.Etl.TableTask

namespace Spicebench.Etl
open Library DataGeneration

variable {Table Key Data : Type} [DecidableEq Table]

/-- These ids of a table were handed over in a history, in this order. -/
def handedIds (table : Table) (history : List (Event Table)) : List Nat :=
  history.filterMap fun event =>
    match event with
    | .handed other batchId => if other = table then some batchId else none
    | .failed => none

@[simp] theorem handedIds_nil (table : Table) : handedIds table [] = [] := rfl

@[simp] theorem handedIds_append (table : Table) (first second : List (Event Table)) :
    handedIds table (first ++ second) = handedIds table first ++ handedIds table second := by
  simp [handedIds]

@[simp] theorem handedIds_handed (table other : Table) (batchIds : List Nat) :
    handedIds table (batchIds.map (Event.handed other)) = if other = table then batchIds else [] := by
  unfold handedIds
  split
  · induction batchIds with
    | nil => rfl
    | cons batchId rest ih => simp_all
  · induction batchIds with
    | nil => rfl
    | cons batchId rest ih => simp_all

theorem handedIds_failures {table : Table} {failures : List (Event Table)}
    (onlyFailures : ∀ event ∈ failures, event = .failed) : handedIds table failures = [] := by
  unfold handedIds
  rw [List.filterMap_eq_nil_iff]
  intro event member
  rw [onlyFailures event member]

theorem mem_handedIds {table : Table} {history : List (Event Table)} {batchId : Nat} :
    batchId ∈ handedIds table history ↔ .handed table batchId ∈ history := by
  unfold handedIds
  rw [List.mem_filterMap]
  constructor
  · rintro ⟨event, member, found⟩
    cases event with
    | handed other otherId =>
        obtain ⟨rfl, rfl⟩ : other = table ∧ otherId = batchId := by
          simpa using found
        exact member
    | failed => simp at found
  · intro member
    exact ⟨_, member, by simp⟩

/-- Each handing over of an id is listed once. -/
theorem count_handedIds (table : Table) (batchId : Nat) (history : List (Event Table)) :
    (handedIds table history).count batchId = history.count (.handed table batchId) := by
  induction history with
  | nil => rfl
  | cons event rest ih =>
      rw [← List.singleton_append, handedIds_append, List.count_append, List.count_append, ih]
      congr 1
      cases event with
      | failed => rfl
      | handed other otherId =>
          by_cases same : other = table
          · subst same
            simp [handedIds, List.count_singleton]
          · simp [handedIds, same]

/-- These ids of a table were handed over after a past history. -/
def handedSince (past : List (Event Table)) (shared : Shared Table Key Data) (table : Table) : List Nat :=
  handedIds table (shared.history.drop past.length)

/-- The ids that were handed over since the past come first in each table, then the held ones, and
then the pending ones. All of them are planned. -/
structure Ledger (planned : Table → Nat → Prop) (past : List (Event Table))
    (shared : Shared Table Key Data) (held : Table → List Nat) : Prop where
  grown : past <+: shared.history
  ascending : ∀ table, (handedSince past shared table ++ held table).Pairwise (· < ·)
  line : ∀ table, ∀ batchId ∈ handedSince past shared table ++ held table, planned table batchId
  pending : ∀ table batchId, shared.work.steps.Pending table batchId → planned table batchId
  later : ∀ table batchId, shared.work.steps.Pending table batchId →
    ∀ earlier ∈ handedSince past shared table ++ held table, earlier < batchId

/-- A history that grows only grows what was handed over since. -/
theorem handedSince_extend {past : List (Event Table)} {shared next : Shared Table Key Data}
    {events : List (Event Table)} (before : past <+: shared.history)
    (history : next.history = shared.history ++ events) (table : Table) :
    handedSince past next table = handedSince past shared table ++ handedIds table events := by
  unfold handedSince
  rw [history, List.drop_append_of_le_length before.length_le, handedIds_append]

/-- This is a part of each task of a group, and the default for a table without a task. -/
def pool {Value : Type} (default : Value) (part : TaskState Key Data → Value) (active : List Table)
    (tasks : Table → TaskState Key Data) (table : Table) : Value :=
  if table ∈ active then part (tasks table) else default

theorem pool_update {Value : Type} (default : Value) (part : TaskState Key Data → Value)
    {active : List Table} (tasks : Table → TaskState Key Data) {table : Table} (member : table ∈ active)
    (result : TaskState Key Data) :
    pool default part active (Function.update tasks table result) =
      Function.update (pool default part active tasks) table (part result) := by
  funext other
  by_cases same : other = table
  · subst same
    simp [pool, member]
  · simp [pool, same]

theorem pool_erase {Value : Type} (default : Value) (part : TaskState Key Data → Value)
    (active : List Table) (tasks : Table → TaskState Key Data) {table : Table}
    (spent : part (tasks table) = default) :
    pool default part (active.erase table) tasks = pool default part active tasks := by
  funext other
  by_cases same : other = table
  · subst same
    simp [pool, spent]
  · simp [pool, List.mem_erase_of_ne same]

/-- What was handed over since the past was handed over before some state, or since that state. -/
theorem handedSince_trans {past : List (Event Table)} {shared next : Shared Table Key Data}
    (before : past <+: shared.history) (grown : shared.history <+: next.history) (table : Table) :
    handedSince past next table = handedSince past shared table ++ handedSince shared.history next table := by
  obtain ⟨events, history⟩ := grown
  rw [handedSince_extend before history.symm]
  congr 1
  unfold handedSince
  rw [← history, List.drop_left]

namespace Ledger

variable {planned : Table → Nat → Prop} {past : List (Event Table)}
  {shared next : Shared Table Key Data} {held after : Table → List Nat}

/-- A change of one table keeps the ledger when the new line of that table is in order. -/
theorem change (ledger : Ledger planned past shared held) (table : Table)
    {events : List (Event Table)} (history : next.history = shared.history ++ events)
    (others : ∀ other, other ≠ table → handedIds other events = [] ∧ after other = held other)
    (plans : ∀ other batchId, other ≠ table → next.work.steps.Pending other batchId →
      shared.work.steps.Pending other batchId)
    (ascending : (handedSince past next table ++ after table).Pairwise (· < ·))
    (line : ∀ batchId ∈ handedSince past next table ++ after table, planned table batchId)
    (pending : ∀ batchId, next.work.steps.Pending table batchId → planned table batchId ∧
      ∀ earlier ∈ handedSince past next table ++ after table, earlier < batchId) :
    Ledger planned past next after := by
  have same : ∀ other, other ≠ table →
      handedSince past next other ++ after other = handedSince past shared other ++ held other := by
    intro other differ
    rw [handedSince_extend ledger.grown history, (others other differ).1, (others other differ).2,
      List.append_nil]
  constructor
  · rw [history]
    exact ledger.grown.trans (List.prefix_append _ _)
  · intro other
    by_cases differ : other = table
    · rw [differ]
      exact ascending
    · rw [same other differ]
      exact ledger.ascending other
  · intro other
    by_cases differ : other = table
    · rw [differ]
      exact line
    · rw [same other differ]
      exact ledger.line other
  · intro other batchId planned
    by_cases differ : other = table
    · subst differ
      exact (pending batchId planned).1
    · exact ledger.pending other batchId (plans other batchId differ planned)
  · intro other batchId planned
    by_cases differ : other = table
    · subst differ
      exact (pending batchId planned).2
    · rw [same other differ]
      exact ledger.later other batchId (plans other batchId differ planned)

/-- Dropping held ids and recording failures keeps the ledger. -/
theorem release (ledger : Ledger planned past shared held) {failures : List (Event Table)}
    (steps : next.work.steps = shared.work.steps) (history : next.history = shared.history ++ failures)
    (onlyFailures : ∀ event ∈ failures, event = .failed)
    (fewer : ∀ table, (after table).Sublist (held table)) : Ledger planned past next after := by
  have since : ∀ table, handedSince past next table = handedSince past shared table := by
    intro table
    rw [handedSince_extend ledger.grown history, handedIds_failures onlyFailures, List.append_nil]
  have shorter : ∀ table, (handedSince past next table ++ after table).Sublist
      (handedSince past shared table ++ held table) := by
    intro table
    rw [since]
    exact (fewer table).append_left _
  constructor
  · rw [history]
    exact ledger.grown.trans (List.prefix_append _ _)
  · intro table
    exact (ledger.ascending table).sublist (shorter table)
  · intro table batchId member
    exact ledger.line table batchId ((shorter table).subset member)
  · rw [steps]
    exact ledger.pending
  · intro table batchId pending earlier member
    rw [steps] at pending
    exact ledger.later table batchId pending earlier ((shorter table).subset member)

/-- Popping a step keeps the ledger when each of its tables holds the popped id, or nothing. -/
theorem pop (ledger : Ledger planned past shared fun _ => []) {maxBatchId : Option Nat} {batchId : Nat}
    {tables : List Table} {steps : WorkPlan Table}
    (popped : shared.work.steps.popStep maxBatchId = some (batchId, tables, steps))
    (taken : ∀ table, after table = [] ∨ table ∈ tables ∧ after table = [batchId]) :
    Ledger planned past (shared.withSteps steps) after := by
  obtain ⟨_, _, _, members, least, remaining⟩ := WorkPlan.pop_some popped
  have since : ∀ table, handedSince past (shared.withSteps steps) table =
      handedSince past shared table := fun _ => rfl
  constructor
  · exact ledger.grown
  · intro table
    rw [since]
    have ascending := ledger.ascending table
    rcases taken table with none | ⟨member, one⟩
    · rw [none]
      exact ascending
    · rw [one]
      rw [List.append_nil] at ascending
      refine List.pairwise_append.mpr ⟨ascending, by simp, ?_⟩
      intro earlier before popped same
      rw [List.mem_singleton.mp same]
      exact ledger.later table batchId ((members table).mp member) earlier (by simpa using before)
  · intro table otherId member
    rw [since, List.mem_append] at member
    rcases member with before | inside
    · exact ledger.line table otherId (List.mem_append_left _ before)
    · rcases taken table with none | ⟨member, one⟩
      · simp [none] at inside
      · rw [one] at inside
        rw [List.mem_singleton.mp inside]
        exact ledger.pending table batchId ((members table).mp member)
  · intro table otherId pending
    exact ledger.pending table otherId ((remaining table otherId).mp pending).1
  · intro table otherId pending earlier member
    obtain ⟨old, differ⟩ := (remaining table otherId).mp pending
    rw [since, List.mem_append] at member
    rcases member with before | inside
    · exact ledger.later table otherId old earlier (List.mem_append_left _ before)
    · rcases taken table with none | ⟨_, one⟩
      · simp [none] at inside
      · rw [one] at inside
        have atLeast := least table otherId old
        have same := List.mem_singleton.mp inside
        omega

/-- The move of one table task keeps the ledger. -/
theorem move {config : EtlConfig Key Data} {maxBatchId : Option Nat} {table : Table}
    {task result : TaskState Key Data} (ledger : Ledger planned past shared held)
    (holds : held table = task.held) (moved : TaskMove config maxBatchId table shared next task result)
    (updated : after = Function.update held table result.held) : Ledger planned past next after := by
  subst updated
  have ascending := ledger.ascending table
  have line := ledger.line table
  have later := ledger.later table
  rw [holds] at ascending line later
  cases moved with
  | stay failures work history onlyFailures same _ _ _ =>
      have since : handedSince past next table = handedSince past shared table := by
        rw [handedSince_extend ledger.grown history, handedIds_failures onlyFailures, List.append_nil]
      apply ledger.change table history
      · intro other differ
        exact ⟨handedIds_failures onlyFailures, Function.update_of_ne differ _ _⟩
      · intro other batchId _ pending
        rwa [work] at pending
      · rw [since, Function.update_self, same]
        exact ascending
      · rw [since, Function.update_self, same]
        exact line
      · intro batchId pending
        rw [work] at pending
        rw [since, Function.update_self, same]
        exact ⟨ledger.pending table batchId pending, later batchId pending⟩
  | reserve batchId cursor reserved last _ history grown _ _ =>
      have extended : next.history = shared.history ++ [] := by simp [history]
      have since : handedSince past next table = handedSince past shared table := by
        rw [handedSince_extend ledger.grown extended, handedIds_nil, List.append_nil]
      obtain ⟨taken, _, least, removed⟩ := WorkPlan.reserve_some reserved
      apply ledger.change table extended
      · intro other differ
        exact ⟨rfl, Function.update_of_ne differ _ _⟩
      · intro other otherId _ pending
        rw [removed, WorkPlan.pending_remove] at pending
        exact pending.1
      · rw [since, Function.update_self, grown, ← List.append_assoc, List.pairwise_append]
        refine ⟨ascending, by simp, ?_⟩
        intro earlier before reservedId same
        rw [List.mem_singleton.mp same]
        exact later batchId taken earlier before
      · intro otherId member
        rw [since, Function.update_self, grown, ← List.append_assoc, List.mem_append] at member
        rcases member with before | same
        · exact line otherId before
        · rw [List.mem_singleton.mp same]
          exact ledger.pending table batchId taken
      · intro otherId pending
        rw [removed, WorkPlan.pending_remove] at pending
        refine ⟨ledger.pending table otherId pending.1, ?_⟩
        intro earlier member
        rw [since, Function.update_self, grown, ← List.append_assoc, List.mem_append] at member
        rcases member with before | same
        · exact later otherId pending.1 earlier before
        · have cursorBefore : cursor < otherId :=
            later otherId pending.1 cursor (List.mem_append_right _ (List.mem_of_getLast? last))
          have atMost := least otherId pending.1 cursorBefore
          have differ : otherId ≠ batchId := fun same => pending.2 ⟨rfl, same⟩
          rw [List.mem_singleton.mp same]
          omega
  | leave handed restored failures steps _ history onlyFailures kept _ empty _ _ =>
      have extended : next.history = shared.history ++ (handed.map (Event.handed table) ++ failures) := by
        rw [history, List.append_assoc]
      have since : handedSince past next table = handedSince past shared table ++ handed := by
        rw [handedSince_extend ledger.grown extended, handedIds_append, handedIds_handed, if_pos rfl,
          handedIds_failures onlyFailures, List.append_nil]
      have shorter : (handedSince past shared table ++ (handed ++ restored)).Sublist
          (handedSince past shared table ++ task.held) := kept.append_left _
      have ordered := ascending.sublist shorter
      rw [← List.append_assoc, List.pairwise_append] at ordered
      rw [← List.append_assoc] at shorter
      apply ledger.change table extended
      · intro other differ
        refine ⟨?_, Function.update_of_ne differ _ _⟩
        rw [handedIds_append, handedIds_handed, if_neg (Ne.symm differ), handedIds_failures onlyFailures,
          List.append_nil]
      · intro other otherId differ pending
        rw [steps, WorkPlan.pending_restore] at pending
        rcases pending with ⟨same, _⟩ | pending
        · exact absurd same differ
        · exact pending
      · rw [since, Function.update_self, empty, List.append_nil]
        exact ordered.1
      · intro otherId member
        rw [since, Function.update_self, empty, List.append_nil] at member
        exact line otherId (shorter.subset (List.mem_append_left _ member))
      · intro otherId pending
        rw [since, Function.update_self, empty, List.append_nil]
        rw [steps, WorkPlan.pending_restore] at pending
        rcases pending with ⟨_, returned⟩ | pending
        · refine ⟨line otherId (shorter.subset (List.mem_append_right _ returned)), ?_⟩
          intro earlier member
          exact ordered.2.2 earlier member otherId returned
        · refine ⟨ledger.pending table otherId pending, ?_⟩
          intro earlier member
          exact later otherId pending earlier (shorter.subset (List.mem_append_left _ member))

end Ledger

end Spicebench.Etl
