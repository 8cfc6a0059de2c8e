import Spicebench.Proof.Etl.Progress
import Spicebench.Proof.Etl.Termination

namespace Spicebench.Etl
open Library

variable {Table Key Data : Type} [DecidableEq Table]

/-- A segment leaves only steps that were in its plan, and not all of them. -/
def RemovesStep (before after : WorkPlan Table) : Prop :=
  after.keys ⊆ before.keys ∧ ∃ batchId ∈ before.keys, batchId ∉ after.keys

omit [DecidableEq Table] in
/-- The plan has fewer steps when one was removed. -/
theorem RemovesStep.length_lt {before after : WorkPlan Table} (removes : RemovesStep before after) :
    after.keys.length < before.keys.length := by
  obtain ⟨subset, batchId, member, absent⟩ := removes
  have distinct : after.keys.Nodup := after.keys_ascending.imp ne_of_lt
  have smaller : after.keys ⊆ before.keys.erase batchId := by
    intro other inside
    have differ : other ≠ batchId := by
      rintro rfl
      exact absent inside
    exact (List.mem_erase_of_ne differ).mpr (subset inside)
  have atMost := (List.subperm_of_subset distinct smaller).length_le
  have erased := List.length_erase_of_mem member
  have some := List.length_pos_of_mem member
  omega

/-- The run has not popped a step of its plan yet. -/
def RunTask.Fresh (start : WorkPlan Table) (shared : Shared Table Key Data) (run : RunTask Table Key Data) : Prop :=
  shared.work.steps = start ∧ (run.phase = .starting ∨
    run.phase = .loopHead 0 ∧ run.checkpointMaxBatchId = Etl.checkpointMaxBatchId start run.stepLimit)

/-- A popped step is below everything that is pending or could still be restored. -/
def RunTask.Popped (start : WorkPlan Table) (shared : Shared Table Key Data) (run : RunTask Table Key Data) : Prop :=
  ∃ first ∈ start.keys, ∀ table batchId,
    shared.work.steps.Pending table batchId ∨ batchId ∈ (run.held table).tail → first < batchId

/-- The segment has popped a step of its plan, or is about to, unless there is none. -/
structure Advancing (start : WorkPlan Table) (shared : Shared Table Key Data) (run : RunTask Table Key Data) : Prop where
  shape : run.Shape
  budget : run.stepLimit ≠ some 0
  within : ∀ table batchId, shared.work.steps.Pending table batchId ∨ batchId ∈ run.held table →
    start.Pending table batchId
  stage : run.Fresh start shared ∨ run.Popped start shared ∨
    start.keys = [] ∧ ∃ reason, run.phase = .returned (.stopped reason)

section Steps

variable {config : EtlConfig Key Data} {start : WorkPlan Table} {shared next : Shared Table Key Data}
  {run after : RunTask Table Key Data} {action : RunAction Table Key Data}

/-- A task brings an id into line or back into the plan only from the plan or from its own line. -/
theorem TaskMove.origin {maxBatchId : Option Nat} {table other : Table} {task result : TaskState Key Data}
    (moved : TaskMove config maxBatchId table shared next task result) {batchId : Nat}
    (pending : next.work.steps.Pending other batchId) :
    shared.work.steps.Pending other batchId ∨ other = table ∧ batchId ∈ task.held.tail := by
  cases moved with
  | stay _ work =>
      rw [work] at pending
      exact .inl pending
  | reserve _ _ reserved =>
      obtain ⟨_, _, _, removed⟩ := WorkPlan.reserve_some reserved
      rw [removed, WorkPlan.pending_remove] at pending
      exact .inl pending.1
  | leave _ _ _ steps _ _ _ _ later =>
      rw [steps, WorkPlan.pending_restore] at pending
      rcases pending with ⟨same, restored⟩ | pending
      · exact .inr ⟨same, later.subset restored⟩
      · exact .inl pending

/-- The line of a task grows only by an id that was pending. -/
theorem TaskMove.line {maxBatchId : Option Nat} {table : Table} {task result : TaskState Key Data}
    (moved : TaskMove config maxBatchId table shared next task result) :
    result.held = [] ∨ result.held = task.held ∨ ∃ batchId, task.held ≠ [] ∧ shared.work.steps.Pending table batchId ∧
      result.held = task.held ++ [batchId] := by
  cases moved with
  | stay _ _ _ _ held => exact .inr (.inl held)
  | reserve batchId cursor reserved last _ _ held =>
      obtain ⟨pending, _⟩ := WorkPlan.reserve_some reserved
      exact .inr (.inr ⟨batchId, List.ne_nil_of_mem (List.mem_of_getLast? last), pending, held⟩)
  | leave _ _ _ _ _ _ _ _ _ held => exact .inl held

/-- The held ids of the tables after the step of one task. -/
theorem held_update {outerSteps batchId : Nat} {active : List Table} {tasks : Table → TaskState Key Data}
    {table : Table} {result : TaskState Key Data} (busy : run.phase = .processing outerSteps batchId active tasks)
    (member : table ∈ active) (other : Table) :
    RunTask.held { run with phase := .processing outerSteps batchId active (Function.update tasks table result) } other =
      if other = table then result.held else run.held other := by
  by_cases same : other = table
  · subst same
    simp [RunTask.held, member]
  · simp [RunTask.held, busy, same]

/-- What is pending or held after a step was pending or held before it, and what could still be restored was pending
or could be restored. -/
structure Inherits (shared next : Shared Table Key Data) (run after : RunTask Table Key Data) : Prop where
  pending : ∀ table batchId, next.work.steps.Pending table batchId →
    shared.work.steps.Pending table batchId ∨ batchId ∈ (run.held table).tail
  tail : ∀ table, ∀ batchId ∈ (after.held table).tail,
    shared.work.steps.Pending table batchId ∨ batchId ∈ (run.held table).tail
  held : ∀ table, ∀ batchId ∈ after.held table,
    shared.work.steps.Pending table batchId ∨ batchId ∈ run.held table

/-- A step after which nothing is held. -/
theorem Inherits.idle (steps : next.work.steps = shared.work.steps)
    (nothing : ∀ outerSteps batchId active tasks, after.phase ≠ .processing outerSteps batchId active tasks) :
    Inherits shared next run after := by
  have empty := RunTask.held_of_phase nothing
  refine ⟨?_, by simp [empty], by simp [empty]⟩
  intro table batchId pending
  rw [steps] at pending
  exact .inl pending

/-- A step of one task inherits from its line. -/
theorem Inherits.task {outerSteps batchId : Nat} {active : List Table} {tasks : Table → TaskState Key Data}
    {table : Table} {result : TaskState Key Data} (busy : run.phase = .processing outerSteps batchId active tasks)
    (member : table ∈ active)
    (moved : TaskMove config run.checkpointMaxBatchId table shared next (tasks table) result) :
    Inherits shared next run
      { run with phase := .processing outerSteps batchId active (Function.update tasks table result) } := by
  have holds : run.held table = (tasks table).held := by
    simp [RunTask.held, busy, member]
  constructor
  · intro other otherId pending
    rcases moved.origin pending with before | ⟨rfl, restored⟩
    · exact .inl before
    · rw [holds]
      exact .inr restored
  · intro other otherId inside
    rw [held_update busy member other] at inside
    by_cases same : other = table
    · subst same
      rw [if_pos rfl] at inside
      rcases moved.line with none | kept | ⟨newId, nonempty, pending, grown⟩
      · simp [none] at inside
      · rw [kept] at inside
        exact .inr (holds ▸ inside)
      · rw [grown, List.tail_append_of_ne_nil nonempty, List.mem_append, List.mem_singleton] at inside
        rcases inside with old | rfl
        · exact .inr (holds ▸ old)
        · exact .inl pending
    · rw [if_neg same] at inside
      exact .inr inside
  · intro other otherId inside
    rw [held_update busy member other] at inside
    by_cases same : other = table
    · subst same
      rw [if_pos rfl] at inside
      rcases moved.line with none | kept | ⟨newId, nonempty, pending, grown⟩
      · simp [none] at inside
      · rw [kept] at inside
        exact .inr (holds ▸ inside)
      · rw [grown, List.mem_append, List.mem_singleton] at inside
        rcases inside with old | rfl
        · exact .inr (holds ▸ old)
        · exact .inl pending
    · rw [if_neg same] at inside
      exact .inr inside

theorem RunMove.inherits (moved : RunMove config shared next run after action) (shape : run.Shape) :
    Inherits shared next run after := by
  cases moved with
  | start _ same begun => exact .idle (by rw [same]) (by simp [begun])
  | giveUp _ _ _ _ _ returned spent =>
      refine .idle ?_ (by simp [returned])
      rcases spent with ⟨rfl, _⟩ | ⟨rfl, _⟩
      · rfl
      · rfl
  | pop outerSteps _ _ popId tables steps _ popped same begun =>
      obtain ⟨_, _, _, members, _, remaining⟩ := WorkPlan.pop_some popped
      have taken : ∀ table, after.held table = [] ∨ table ∈ tables ∧ after.held table = [popId] := by
        intro table
        rw [begun]
        unfold RunTask.held
        dsimp only
        split_ifs with finished
        · exact .inl rfl
        · dsimp only
          split_ifs with member
          · exact .inr ⟨List.mem_of_mem_filter member, rfl⟩
          · exact .inl rfl
      subst same
      constructor
      · intro table batchId pending
        exact .inl ((remaining table batchId).mp pending).1
      · intro table batchId inside
        rcases taken table with none | ⟨_, one⟩
        · simp [none] at inside
        · simp [one] at inside
      · intro table batchId inside
        rcases taken table with none | ⟨member, one⟩
        · simp [none] at inside
        · rw [one] at inside
          rw [List.mem_singleton.mp inside]
          exact .inl ((members table).mp member)
  | task _ _ active tasks table _ result busy member stepped begun =>
      simp only [RunTask.Shape, busy] at shape
      subst begun
      exact .task busy member (taskStep_moves (shape.2 table member) stepped)
  | collect _ _ active tasks table _ busy _ _ same begun =>
      have fewer : ∀ other, after.held other = [] ∨ after.held other = run.held other := by
        intro other
        simp only [RunTask.held, busy, begun]
        split_ifs with kept old
        · exact .inr rfl
        · exact absurd (List.mem_of_mem_erase kept) old
        · exact .inl rfl
        · exact .inl rfl
      subst same
      refine ⟨fun _ _ => .inl, ?_, ?_⟩
      · intro other batchId inside
        rcases fewer other with none | same
        · simp [none] at inside
        · rw [same] at inside
          exact .inr inside
      · intro other batchId inside
        rcases fewer other with none | same
        · simp [none] at inside
        · rw [same] at inside
          exact .inr inside
  | collectError _ _ _ _ _ _ _ _ _ same begun => exact .idle (by rw [same]) (by simp [begun])
  | stepDone _ _ _ _ same begun => exact .idle (by rw [same]) (by simp [begun])
  | cancel _ _ _ _ _ same begun => exact .idle (by rw [same]) (by simp [begun])

omit [DecidableEq Table] in
/-- Within its boundary a segment can pop the first step of its plan. -/
theorem popStep_none_of_fresh {stepLimit : Option Nat}
    (nothing : start.popStep (checkpointMaxBatchId start stepLimit) = none) : start.keys = [] := by
  by_contra nonempty
  obtain ⟨first, rest, listed⟩ := List.exists_cons_of_ne_nil nonempty
  obtain ⟨table, pending⟩ := WorkPlan.mem_keys_iff.mp (listed ▸ List.mem_cons_self : first ∈ start.keys)
  obtain ⟨boundary, bounded, beyond⟩ := WorkPlan.pop_none nothing pending
  obtain ⟨limit, _, found⟩ := Option.bind_eq_some_iff.mp (Option.mem_def.mp bounded)
  have ascending := start.keys_ascending
  rw [listed] at ascending found
  rcases List.mem_cons.mp (List.mem_of_getElem? found) with rfl | later
  · omega
  · have above := (List.pairwise_cons.mp ascending).1 boundary later
    omega

/-- The first turn of the step loop pops a step, unless the plan is empty. -/
theorem Advancing.pop (advancing : Advancing start shared run) (same : shared.work.steps = start)
    (boundary : run.checkpointMaxBatchId = checkpointMaxBatchId start run.stepLimit) {flush : Except String Unit}
    (stepped : loopHeadStep shared run 0 false flush = (next, after)) :
    after.Popped start next ∨ start.keys = [] ∧ ∃ reason, after.phase = .returned (.stopped reason) := by
  have budget : run.stepLimit.any (· ≤ 0) = false := by
    cases limit : run.stepLimit with
    | none => rfl
    | some count =>
        have positive := advancing.budget
        rw [limit] at positive
        simpa using positive
  simp only [loopHeadStep, budget, Bool.false_eq_true, if_false] at stepped
  cases popped : shared.work.steps.popStep run.checkpointMaxBatchId with
  | none =>
      right
      rw [same, boundary] at popped
      have empty := popStep_none_of_fresh popped
      have unbounded : run.checkpointMaxBatchId = none := by
        rw [boundary, checkpointMaxBatchId, empty]
        cases run.stepLimit <;> rfl
      refine ⟨empty, ?_⟩
      simp only [same, boundary, popped] at stepped
      simp only [← boundary, unbounded, Option.isSome_none, Bool.false_eq_true, if_false] at stepped
      cases flush with
      | ok value =>
          obtain ⟨_, rfl⟩ := Prod.mk.inj stepped
          exact ⟨.completed, rfl⟩
      | error message =>
          obtain ⟨_, rfl⟩ := Prod.mk.inj stepped
          exact ⟨_, rfl⟩
  | some found =>
      left
      obtain ⟨popId, tables, steps⟩ := found
      obtain ⟨_, nonempty, _, members, least, remaining⟩ := WorkPlan.pop_some popped
      simp only [popped] at stepped
      obtain ⟨rfl, rfl⟩ := Prod.mk.inj stepped
      obtain ⟨table, member⟩ := List.exists_mem_of_ne_nil _ nonempty
      refine ⟨popId, ?_, ?_⟩
      · rw [← same]
        exact WorkPlan.mem_keys_iff.mpr ⟨table, (members table).mp member⟩
      · rintro other batchId (pending | inside)
        · obtain ⟨old, differ⟩ := (remaining other batchId).mp pending
          have atLeast := least other batchId old
          omega
        · simp only [RunTask.held] at inside
          split_ifs at inside
          · simp at inside
          · dsimp only at inside
            split_ifs at inside
            · simp [TaskState.held, ReadLoop.start] at inside
            · simp at inside

/-- A step that observes no cancelled token keeps the segment advancing. -/
theorem Advancing.step (advancing : Advancing start shared run) (calm : ∀ flush, action ≠ .loopHead true flush)
    (stepped : runStep config shared run action = some (next, after)) : Advancing start next after := by
  have moved := runStep_moves stepped
  have inherits := moved.inherits advancing.shape
  refine ⟨moved.shape advancing.shape, ?_, ?_, ?_⟩
  · rw [moved.stepLimit]
    exact advancing.budget
  · rintro table batchId (pending | held)
    · rcases inherits.pending table batchId pending with before | restored
      · exact advancing.within table batchId (.inl before)
      · exact advancing.within table batchId (.inr (List.mem_of_mem_tail restored))
    · exact advancing.within table batchId (inherits.held table batchId held)
  · rcases advancing.stage with ⟨same, starting | ⟨head, boundary⟩⟩ | ⟨first, member, below⟩ | ⟨_, reason, ended⟩
    · left
      cases action with
      | start =>
          simp only [runStep, starting, Option.some.injEq, Prod.mk.injEq] at stepped
          obtain ⟨rfl, rfl⟩ := stepped
          exact ⟨same, .inr ⟨rfl, by rw [same]⟩⟩
      | _ => simp [runStep, starting] at stepped
    · right
      cases action with
      | loopHead cancelled flush =>
          obtain rfl : cancelled = false := by
            cases cancelled with
            | false => rfl
            | true => exact absurd rfl (calm flush)
          simp only [runStep, head, Option.some.injEq] at stepped
          exact advancing.pop same boundary stepped
      | _ => simp [runStep, head] at stepped
    · right; left
      refine ⟨first, member, ?_⟩
      rintro table batchId (pending | inside)
      · exact below table batchId (inherits.pending table batchId pending)
      · exact below table batchId (inherits.tail table batchId inside)
    · simp [runStep, ended] at stepped

theorem Advancing.spawn {stepLimit : Option Nat} (positive : stepLimit ≠ some 0) (shared : Shared Table Key Data) :
    Advancing shared.work.steps shared (.spawn stepLimit) where
  shape := trivial
  budget := positive
  within := by
    rintro table batchId (pending | held)
    · exact pending
    · simp [RunTask.held, RunTask.spawn] at held
  stage := .inl ⟨rfl, .inl rfl⟩

/-- A segment that has returned has removed a step, unless its plan was empty and it has stopped. -/
theorem Advancing.returned (advancing : Advancing start shared run) {outcome : PipelineState}
    (ended : run.phase = .returned outcome) :
    RemovesStep start shared.work.steps ∨ start.keys = [] ∧ ∃ reason, outcome = .stopped reason := by
  rcases advancing.stage with ⟨_, starting | ⟨head, _⟩⟩ | ⟨first, member, below⟩ | ⟨empty, reason, stopped⟩
  · simp [starting] at ended
  · simp [head] at ended
  · left
    constructor
    · intro batchId inside
      obtain ⟨table, pending⟩ := WorkPlan.mem_keys_iff.mp inside
      exact WorkPlan.mem_keys_iff.mpr ⟨table, advancing.within table batchId (.inl pending)⟩
    · refine ⟨first, member, ?_⟩
      intro inside
      obtain ⟨table, pending⟩ := WorkPlan.mem_keys_iff.mp inside
      exact Nat.lt_irrefl _ (below table first (.inl pending))
  · rw [stopped] at ended
    exact .inr ⟨empty, reason, (Phase.returned.inj ended).symm⟩

end Steps

/-- A segment without a budget returns before it takes anything from its plan. -/
structure Idling (start : WorkPlan Table) (shared : Shared Table Key Data) (run : RunTask Table Key Data) : Prop where
  budget : run.stepLimit = some 0
  kept : shared.work.steps = start
  stage : run.phase = .starting ∨ run.phase = .loopHead 0 ∨ run.Returned

/-- A step that observes no cancelled token takes nothing from the plan of a segment without a budget. -/
theorem Idling.step {config : EtlConfig Key Data} {start : WorkPlan Table} {shared next : Shared Table Key Data}
    {run after : RunTask Table Key Data} {action : RunAction Table Key Data} (idling : Idling start shared run)
    (calm : ∀ flush, action ≠ .loopHead true flush)
    (stepped : runStep config shared run action = some (next, after)) : Idling start next after := by
  rcases idling.stage with starting | head | ⟨outcome, ended⟩
  · cases action with
    | start =>
        simp only [runStep, starting, Option.some.injEq, Prod.mk.injEq] at stepped
        obtain ⟨rfl, rfl⟩ := stepped
        exact ⟨idling.budget, idling.kept, .inr (.inl rfl)⟩
    | _ => simp [runStep, starting] at stepped
  · cases action with
    | loopHead cancelled flush =>
        obtain rfl : cancelled = false := by
          cases cancelled with
          | false => rfl
          | true => exact absurd rfl (calm flush)
        simp only [runStep, head, loopHeadStep, idling.budget, Option.any_some, le_refl, decide_true,
          Bool.false_eq_true, if_false, if_true, Option.some.injEq] at stepped
        cases flush with
        | ok value =>
            obtain ⟨rfl, rfl⟩ := Prod.mk.inj stepped
            exact ⟨idling.budget, idling.kept, .inr (.inr ⟨_, rfl⟩)⟩
        | error message =>
            obtain ⟨rfl, rfl⟩ := Prod.mk.inj stepped
            exact ⟨idling.budget, idling.kept, .inr (.inr ⟨_, rfl⟩)⟩
    | _ => simp [runStep, head] at stepped
  · simp [runStep, ended] at stepped

end Spicebench.Etl
