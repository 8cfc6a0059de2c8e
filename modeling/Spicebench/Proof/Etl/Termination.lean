import Mathlib.Data.Prod.Lex
import Mathlib.Algebra.Order.BigOperators.Group.List
import Spicebench.Proof.Etl.Segment

namespace Spicebench.Etl
open Library DataGeneration

variable {Table Key Data : Type} [DecidableEq Table]

/-- The reservations of the active tasks are the held ids beyond the first of each. -/
def Phase.reserved : Phase Table Key Data → Nat
  | .processing _ _ active tasks => (active.map fun table => (tasks table).held.length - 1).sum
  | _ => 0

/-- This counts the active tasks that still read. -/
def Phase.reading : Phase Table Key Data → Nat
  | .processing _ _ active tasks => (active.map fun table => (tasks table).reads).sum
  | _ => 0

def Phase.weight (config : EtlConfig Key Data) : Phase Table Key Data → Nat
  | .starting => 2
  | .loopHead _ => 1
  | .processing _ _ active tasks => 2 + (active.map fun table => 1 + (tasks table).weight config).sum
  | .returned _ => 0

/-- The rank falls with each step: a pop takes from the plan, leaving a read loop lowers the readers,
a reservation takes from the plan without lowering the first entry, and the rest lowers the weight. -/
def runRank (config : EtlConfig Key Data) (state : Shared Table Key Data × RunTask Table Key Data) :
    ℕ ×ₗ ℕ ×ₗ ℕ ×ₗ ℕ :=
  toLex (state.1.work.steps.size + state.2.phase.reserved, toLex (state.2.phase.reading,
    toLex (state.1.work.steps.size, state.2.phase.weight config)))

omit [DecidableEq Table] in
theorem runRank_lt {config : EtlConfig Key Data}
    {state next : Shared Table Key Data × RunTask Table Key Data}
    (planned : next.1.work.steps.size + next.2.phase.reserved ≤
      state.1.work.steps.size + state.2.phase.reserved)
    (reading : next.1.work.steps.size + next.2.phase.reserved =
      state.1.work.steps.size + state.2.phase.reserved → next.2.phase.reading ≤ state.2.phase.reading)
    (last : next.1.work.steps.size + next.2.phase.reserved =
      state.1.work.steps.size + state.2.phase.reserved → next.2.phase.reading = state.2.phase.reading →
      next.1.work.steps.size < state.1.work.steps.size ∨
        next.1.work.steps.size = state.1.work.steps.size ∧
          next.2.phase.weight config < state.2.phase.weight config) :
    runRank config next < runRank config state := by
  unfold runRank
  rw [Prod.Lex.toLex_lt_toLex']
  refine ⟨planned, fun same => ?_⟩
  rw [Prod.Lex.toLex_lt_toLex']
  refine ⟨reading same, fun alike => ?_⟩
  rw [Prod.Lex.toLex_lt_toLex']
  have final := last same alike
  dsimp only
  omega

/-- Changing one summand of a list without duplicates changes the sum by that summand. -/
theorem sum_update {active : List Table} (nodup : active.Nodup) {table : Table} (member : table ∈ active)
    (tasks : Table → TaskState Key Data) (result : TaskState Key Data) (measure : TaskState Key Data → Nat) :
    (active.map fun other => measure (Function.update tasks table result other)).sum + measure (tasks table) =
      (active.map fun other => measure (tasks other)).sum + measure result := by
  induction active with
  | nil => simp at member
  | cons first rest ih =>
      obtain ⟨fresh, distinct⟩ := List.nodup_cons.mp nodup
      simp only [List.map_cons, List.sum_cons]
      rcases List.mem_cons.mp member with rfl | inside
      · have unchanged : (rest.map fun other => measure (Function.update tasks table result other)) =
            rest.map fun other => measure (tasks other) := by
          apply List.map_congr_left
          intro other later
          rw [Function.update_of_ne (ne_of_mem_of_not_mem later fresh)]
        rw [unchanged, Function.update_self]
        omega
      · have differ : first ≠ table := fun same => fresh (same ▸ inside)
        have less := ih distinct inside
        rw [Function.update_of_ne differ]
        omega

theorem sum_erase {active : List Table} {table : Table} (member : table ∈ active) (measure : Table → Nat) :
    ((active.erase table).map measure).sum + measure table = (active.map measure).sum := by
  have perm := ((List.perm_cons_erase member).map measure).sum_eq
  rw [List.map_cons, List.sum_cons] at perm
  omega

section Moves

variable {config : EtlConfig Key Data} {shared next : Shared Table Key Data}
  {run after : RunTask Table Key Data} {action : RunAction Table Key Data}

/-- A step of one task lowers the rank of its run. -/
theorem task_lowers {outerSteps batchId : Nat} {active : List Table} {tasks : Table → TaskState Key Data}
    {table : Table} {result : TaskState Key Data}
    (busy : run.phase = .processing outerSteps batchId active tasks) (nodup : active.Nodup)
    (member : table ∈ active)
    (moved : TaskMove config run.checkpointMaxBatchId table shared next (tasks table) result) :
    runRank config (next, { run with
        phase := .processing outerSteps batchId active (Function.update tasks table result) }) <
      runRank config (shared, run) := by
  have reserved := sum_update nodup member tasks result fun task => task.held.length - 1
  have reading := sum_update nodup member tasks result TaskState.reads
  have weight := sum_update nodup member tasks result fun task => 1 + task.weight config
  cases moved with
  | stay _ work _ _ same reads _ lowers =>
      rw [same] at reserved
      rw [reads] at reading
      apply runRank_lt <;> simp only [work, busy, Phase.reserved, Phase.reading, Phase.weight, true_and]
      · omega
      · omega
      · omega
  | reserve reservedId cursor taken last _ _ longer reads =>
      obtain ⟨pending, _, _, removed⟩ := WorkPlan.reserve_some taken
      have smaller := WorkPlan.size_remove pending
      have nonempty : 0 < (tasks table).held.length :=
        List.length_pos_of_mem (List.mem_of_getLast? last)
      rw [longer, List.length_append, List.length_singleton] at reserved
      rw [reads] at reading
      apply runRank_lt <;> simp only [removed, busy, Phase.reserved, Phase.reading, Phase.weight]
      · omega
      · omega
      · omega
  | leave handed restored _ steps _ _ _ _ later empty read left =>
      have larger := WorkPlan.size_restore shared.work.steps table restored
      have fewer := later.length_le
      rw [List.length_tail] at fewer
      rw [empty, List.length_nil] at reserved
      rw [read, left] at reading
      apply runRank_lt <;> simp only [steps, busy, Phase.reserved, Phase.reading, Phase.weight]
      · omega
      · omega
      · omega

/-- Every step of a run lowers its rank. -/
theorem RunMove.lowers (moved : RunMove config shared next run after action) (shape : run.Shape) :
    runRank config (next, after) < runRank config (shared, run) := by
  cases moved with
  | start fresh same begun =>
      subst same begun
      apply runRank_lt <;> simp [fresh, Phase.reserved, Phase.reading, Phase.weight]
  | giveUp _ _ _ _ head returned spent =>
      have steps : next.work.steps = shared.work.steps := by
        rcases spent with ⟨rfl, _⟩ | ⟨rfl, _⟩ <;> rfl
      subst returned
      apply runRank_lt <;> simp [head, steps, Phase.reserved, Phase.reading, Phase.weight]
  | pop outerSteps _ _ popId tables steps head popped same begun =>
      have smaller := WorkPlan.size_pop popped
      have nothing : after.phase.reserved = 0 := by
        rw [begun]
        dsimp only
        split_ifs
        · rfl
        · simp [Phase.reserved, TaskState.held, ReadLoop.start]
      subst same
      have less : (shared.withSteps steps).work.steps.size + after.phase.reserved <
          shared.work.steps.size + run.phase.reserved := by
        rw [nothing]
        simp only [Shared.withSteps]
        omega
      apply runRank_lt
      · exact less.le
      · exact fun same => absurd same less.ne
      · exact fun same => absurd same less.ne
  | task _ _ active tasks table taskAction result busy member stepped begun =>
      simp only [RunTask.Shape, busy] at shape
      subst begun
      exact task_lowers busy shape.1 member (taskStep_moves (shape.2 table member) stepped)
  | collect _ _ active tasks table report busy member done same begun =>
      have reserved := sum_erase member fun other => (tasks other).held.length - 1
      have reading := sum_erase member fun other => (tasks other).reads
      have weight := sum_erase member fun other => 1 + (tasks other).weight config
      subst same begun
      apply runRank_lt <;> simp only [busy, Phase.reserved, Phase.reading, Phase.weight, true_and]
      · omega
      · omega
      · omega
  | collectError _ _ active tasks table message busy member done same begun =>
      subst same begun
      apply runRank_lt <;> simp [busy, Phase.reserved, Phase.reading, Phase.weight]
  | stepDone _ _ tasks busy same begun =>
      subst same begun
      apply runRank_lt <;> simp [busy, Phase.reserved, Phase.reading, Phase.weight]
  | cancel _ _ active tasks busy same begun =>
      subst same begun
      apply runRank_lt <;> simp [busy, Phase.reserved, Phase.reading, Phase.weight]

end Moves

/-- Every schedule of a run is finite, in every environment. -/
theorem run_terminates (config : EtlConfig Key Data) (environment : Environment Table Key Data)
    (shared : Shared Table Key Data) (run : RunTask Table Key Data) (shape : run.Shape) :
    (runMachine config environment).Terminates (shared, run) := by
  apply Machine.terminates_of_rank wellFounded_lt (runRank config) fun state => state.2.Shape
  · intro state following holds stepped
    obtain ⟨action, _, stepped⟩ := stepped
    exact (runStep_moves stepped).shape holds
  · intro state following holds stepped
    obtain ⟨action, _, stepped⟩ := stepped
    exact (runStep_moves stepped).lowers holds
  · exact shape

end Spicebench.Etl
