import Spicebench.Proof.Etl.Preparing
import Spicebench.Proof.Etl.RunPipeline

namespace Spicebench.Etl
open Library

variable {Table Key Data : Type} [DecidableEq Table]

/-- One of the tasks has ended with an error and was not joined yet. -/
def FailingTask (active : List Table) (tasks : Table → TaskState Key Data) : Prop :=
  ∃ table ∈ active, ∃ message, tasks table = .done (.error message)

/-- A failed task waits to be joined, or the run has returned an error. -/
def RunTask.Failing (run : RunTask Table Key Data) : Prop :=
  match run.phase with
  | .processing _ _ active tasks => FailingTask active tasks
  | .returned outcome => ∃ message, outcome = .stopped (.error message)
  | _ => False

section Tasks

variable {config : EtlConfig Key Data} {maxBatchId : Option Nat} {table : Table}
  {shared next : Shared Table Key Data} {task result : TaskState Key Data} {action : TaskAction Key Data}

theorem leaveReads_failed {batchId : Nat} {returned : ReadReturn Key Data}
    (failed : .failed ∈ (leaveReads config table batchId shared returned).1.history) :
    .failed ∈ shared.history := by
  unfold leaveReads at failed
  dsimp only at failed
  split at failed
  · exact failed
  · simpa [Shared.hand, Shared.withSteps] using failed

/-- A task that records a failure ends with an error at once. -/
theorem joinRead_failed {reads : ReadLoop Key Data} {batchId : Nat} {outcome : ReadOutcome Key Data}
    (failed : .failed ∈ (joinRead config table shared reads batchId outcome).1.history) :
    .failed ∈ shared.history ∨
      ∃ message, (joinRead config table shared reads batchId outcome).2 = .done (.error message) := by
  unfold joinRead at failed ⊢
  cases outcome with
  | error message => exact .inr ⟨message, rfl⟩
  | ok result =>
      dsimp only at failed ⊢
      split at failed
      · exact .inl (leaveReads_failed failed)
      · split at failed
        · exact .inl (leaveReads_failed failed)
        · exact .inl failed

omit [DecidableEq Table] in
theorem firstRead_failed {batchId : Nat} {outcome : ReadOutcome Key Data}
    (failed : .failed ∈ (firstRead config table shared batchId outcome).1.history) :
    .failed ∈ shared.history ∨
      ∃ message, (firstRead config table shared batchId outcome).2 = .done (.error message) := by
  unfold firstRead at failed ⊢
  split at failed
  · exact .inr ⟨_, rfl⟩
  · exact .inr ⟨_, rfl⟩
  · exact .inl (by simpa [Shared.hand] using failed)

/-- A step of a task records a failure only by ending with an error. -/
theorem taskStep_failed
    (stepped : taskStep config maxBatchId table shared task action = some (next, result))
    (failed : .failed ∈ next.history) : .failed ∈ shared.history ∨ ∃ message, result = .done (.error message) := by
  unfold taskStep at stepped
  split at stepped
  · split at stepped
    · rename_i batchId _ outcome _
      have ended := @firstRead_failed _ _ _ config table shared batchId outcome
      rw [Option.some.inj stepped] at ended
      exact ended failed
    · simp at stepped
  · split at stepped
    · split at stepped
      · obtain ⟨rfl, rfl⟩ := Prod.mk.inj (Option.some.inj stepped)
        exact .inl failed
      · obtain ⟨rfl, rfl⟩ := Prod.mk.inj (Option.some.inj stepped)
        exact .inl failed
    · simp at stepped
  · split at stepped
    · simp at stepped
    · split at stepped
      · rename_i reads batchId outcome _ _
        have ended := @joinRead_failed _ _ _ _ config table shared reads batchId outcome
        rw [Option.some.inj stepped] at ended
        exact ended failed
      · simp at stepped
  · split at stepped
    · simp at stepped
    · split at stepped
      · rename_i reads _ _
        have ended := @leaveReads_failed _ _ _ _ config table shared reads.startBatchId (reads.toReturn false [])
        rw [Option.some.inj stepped] at ended
        exact .inl (ended failed)
      · simp at stepped
  · split at stepped
    · obtain ⟨rfl, rfl⟩ := Prod.mk.inj (Option.some.inj stepped)
      exact .inl failed
    · simp at stepped
  · split at stepped
    · obtain ⟨rfl, rfl⟩ := Prod.mk.inj (Option.some.inj stepped)
      exact .inl failed
    · simp at stepped
  · split at stepped
    · obtain ⟨rfl, rfl⟩ := Prod.mk.inj (Option.some.inj stepped)
      exact .inl failed
    · obtain ⟨rfl, rfl⟩ := Prod.mk.inj (Option.some.inj stepped)
      exact .inr ⟨_, rfl⟩
    · simp at stepped
  · split at stepped
    · obtain ⟨rfl, rfl⟩ := Prod.mk.inj (Option.some.inj stepped)
      exact .inl failed
    · simp at stepped
  · simp at stepped

/-- A failed task takes no step, so it stays among the others. -/
theorem FailingTask.update {active : List Table} {tasks : Table → TaskState Key Data}
    (failing : FailingTask active tasks)
    (stepped : taskStep config maxBatchId table shared (tasks table) action = some (next, result)) :
    FailingTask active (Function.update tasks table result) := by
  obtain ⟨other, inside, message, done⟩ := failing
  have differ : other ≠ table := by
    rintro rfl
    simp [done, taskStep] at stepped
  exact ⟨other, inside, message, by rw [Function.update_of_ne differ, done]⟩

/-- A group of tasks keeps a failed task until it is joined, and a failure makes one. -/
theorem FailingTask.step {active : List Table} {tasks : Table → TaskState Key Data}
    (failing : .failed ∈ shared.history → FailingTask active tasks) (member : table ∈ active)
    (stepped : taskStep config maxBatchId table shared (tasks table) action = some (next, result))
    (failed : .failed ∈ next.history) : FailingTask active (Function.update tasks table result) := by
  rcases taskStep_failed stepped failed with before | ⟨message, ended⟩
  · exact (failing before).update stepped
  · exact ⟨table, member, message, by rw [Function.update_self, ended]⟩

/-- A failed task is not the one that is joined after it has succeeded. -/
theorem FailingTask.erase {active : List Table} {tasks : Table → TaskState Key Data} {report : TaskReport}
    (failing : FailingTask active tasks) (done : tasks table = .done (.ok report)) :
    FailingTask (active.erase table) tasks := by
  obtain ⟨other, inside, message, failed⟩ := failing
  have differ : other ≠ table := by
    rintro rfl
    simp [done] at failed
  exact ⟨other, (List.mem_erase_of_ne differ).mpr inside, message, failed⟩

/-- A step of a task only adds to the history. -/
theorem TaskMove.grown (moved : TaskMove config maxBatchId table shared next task result) :
    shared.history <+: next.history := by
  cases moved with
  | stay _ _ history =>
      rw [history]
      exact List.prefix_append _ _
  | reserve _ _ _ _ _ history =>
      exact history ▸ List.prefix_refl _
  | leave _ _ _ _ _ history =>
      rw [history, List.append_assoc]
      exact List.prefix_append _ _

end Tasks

section Runs

variable {config : EtlConfig Key Data} {environment : Environment Table Key Data}
  {shared next : Shared Table Key Data} {run after : RunTask Table Key Data} {action : RunAction Table Key Data}

/-- Unless it is cancelled, a run that has recorded a failure can only return an error. -/
theorem RunMove.failing (moved : RunMove config shared next run after action)
    (admitted : environment.AdmitsRun action) (calm : ¬ environment.cancels)
    (failing : .failed ∈ shared.history → run.Failing) (failed : .failed ∈ next.history) : after.Failing := by
  cases moved with
  | start fresh same _ =>
      subst same
      simpa [RunTask.Failing, fresh] using failing failed
  | giveUp _ _ _ _ head returned spent =>
      rcases spent with ⟨rfl, _⟩ | ⟨_, _, message, outcome⟩
      · simpa [RunTask.Failing, head] using failing failed
      · subst returned
        exact ⟨message, outcome⟩
  | pop _ _ _ _ _ _ head _ same =>
      subst same
      simpa [RunTask.Failing, head] using failing failed
  | task _ _ active tasks table taskAction result busy member stepped begun =>
      subst begun
      simp only [RunTask.Failing, busy] at failing ⊢
      exact FailingTask.step failing member stepped failed
  | collect _ _ active tasks table report busy member done same begun =>
      subst same begun
      have before := failing failed
      simp only [RunTask.Failing, busy] at before ⊢
      exact before.erase done
  | collectError _ _ _ _ _ message _ _ _ _ begun =>
      subst begun
      exact ⟨message, rfl⟩
  | stepDone _ _ tasks busy same _ =>
      subst same
      have before := failing failed
      simp [RunTask.Failing, busy, FailingTask] at before
  | cancel => exact absurd admitted calm

/-- A step of a run only adds to the history. -/
theorem RunMove.grown (moved : RunMove config shared next run after action) (shape : run.Shape) :
    shared.history <+: next.history := by
  cases moved with
  | start _ same => exact same ▸ List.prefix_refl _
  | giveUp _ _ _ _ _ _ spent =>
      rcases spent with ⟨rfl, _⟩ | ⟨rfl, _⟩
      · exact List.prefix_refl _
      · exact List.prefix_append _ _
  | pop _ _ _ _ _ _ _ _ same => exact same ▸ List.prefix_refl _
  | task _ _ active tasks table _ _ busy member stepped =>
      simp only [RunTask.Shape, busy] at shape
      exact (taskStep_moves (shape.2 table member) stepped).grown
  | collect _ _ _ _ _ _ _ _ _ same => exact same ▸ List.prefix_refl _
  | collectError _ _ _ _ _ _ _ _ _ same => exact same ▸ List.prefix_refl _
  | stepDone _ _ _ _ same => exact same ▸ List.prefix_refl _
  | cancel _ _ _ _ _ same => exact same ▸ List.prefix_refl _

end Runs

end Spicebench.Etl
