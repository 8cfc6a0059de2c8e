import Spicebench.Proof.Etl.Pipeline
import Spicebench.Proof.Etl.Termination

namespace Spicebench.Etl
open Library

variable {Table Key Data : Type} [DecidableEq Table]

/-- The last task is the current one, the others have ended, and a property of runs holds of it. -/
structure Attended (Holds : Shared Table Key Data → RunTask Table Key Data → Prop)
    (metadata : Metadata Table) (pipeline : ETLPipeline Table Key Data) : Prop where
  idle : pipeline.initializing = none
  metadata : pipeline.metadata = metadata
  handle : ∀ index, pipeline.handle = some index → index + 1 = pipeline.tasks.length
  task : ∃ earlier run status, pipeline.tasks = earlier ++ [⟨run, status⟩] ∧
    (∀ task ∈ earlier, task.status ≠ .live) ∧ Holds pipeline.shared run ∧
    (status = .live ∧ pipeline.state = .running ∨
      status = .published ∧ run.phase = .returned pipeline.state)

namespace Attended

variable {Holds After : Shared Table Key Data → RunTask Table Key Data → Prop} {metadata : Metadata Table}
  {pipeline next : ETLPipeline Table Key Data} {config : EtlConfig Key Data}

omit [DecidableEq Table] in
/-- A run that is spawned where no task is live becomes the current one. -/
theorem spawn (planned : ETLPipeline Table Key Data) {stepLimit : Option Nat}
    (idle : planned.initializing = none) (same : planned.metadata = metadata)
    (settled : ∀ task ∈ planned.tasks, task.status ≠ .live)
    (holds : Holds planned.shared (.spawn stepLimit)) :
    Attended Holds metadata (planned.spawnRunTask stepLimit) where
  idle := idle
  metadata := same
  handle index stored := by
    have last : planned.tasks.length = index := by
      simpa [ETLPipeline.spawnRunTask] using stored
    simp [ETLPipeline.spawnRunTask, last]
  task := ⟨planned.tasks, .spawn stepLimit, .live, rfl, settled, holds, .inl ⟨rfl, rfl⟩⟩

/-- The first run of a new plan becomes the current one where no task is live. -/
theorem plan {order : List Table} {stepLimit : Option Nat} (idle : pipeline.initializing = none)
    (same : pipeline.metadata = metadata) (settled : ∀ task ∈ pipeline.tasks, task.status ≠ .live)
    (holds : Holds { pipeline.shared with
      work := ⟨buildWorkPlan metadata order (pipeline.state = .initialized), []⟩ } (.spawn stepLimit)) :
    Attended Holds metadata
      (({ pipeline with batchBudget := stepLimit }.planWork order).spawnRunTask stepLimit) := by
  subst same
  exact spawn ({ pipeline with batchBudget := stepLimit }.planWork order) idle rfl settled holds

omit [DecidableEq Table] in
/-- The current task is the last one and the only live one. -/
theorem live_last {earlier : List (Background Table Key Data)} {run other : RunTask Table Key Data}
    {status : TaskStatus} (tasks : pipeline.tasks = earlier ++ [⟨run, status⟩])
    (settled : ∀ task ∈ earlier, task.status ≠ .live) {index : Nat}
    (found : pipeline.tasks[index]? = some ⟨other, .live⟩) :
    index = earlier.length ∧ other = run ∧ status = .live := by
  rw [tasks] at found
  by_cases inside : index < earlier.length
  · rw [List.getElem?_append_left inside] at found
    exact absurd rfl (settled _ (List.mem_of_getElem? found))
  · rw [List.getElem?_append_right (by omega)] at found
    obtain ⟨within, same⟩ := List.getElem?_eq_some_iff.mp found
    simp only [List.length_singleton] at within
    have zero : index - earlier.length = 0 := by omega
    simp only [zero, List.getElem_cons_zero, Background.mk.injEq] at same
    exact ⟨by omega, same.1.symm, same.2⟩

/-- A step that is not a call keeps the current task, when the steps of its run keep its property. -/
theorem step_live (attended : Attended Holds metadata pipeline) {action : PipelineAction Table Key Data}
    (noCall : ∀ call, action ≠ .call call)
    (kept : ∀ index run runAction after, action = .background index runAction →
      pipeline.tasks[index]? = some ⟨run, .live⟩ → Holds pipeline.shared run →
      runStep config pipeline.shared run runAction = some (next.shared, after) → Holds next.shared after)
    (moved : PipelineMove config pipeline next action) : Attended Holds metadata next := by
  have busyless : ∀ job : InitJob Table Key Data, pipeline.initializing ≠ some job := by
    simp [attended.idle]
  obtain ⟨earlier, run, status, tasks, settled, holds, state⟩ := attended.task
  cases moved with
  | call call => exact absurd rfl (noCall call)
  | initTask job _ _ _ _ busy => exact absurd busy (busyless job)
  | initCollect job _ _ busy => exact absurd busy (busyless job)
  | initFail job _ _ busy => exact absurd busy (busyless job)
  | initDone job busy => exact absurd busy (busyless job)
  | initFlushFail job _ _ busy => exact absurd busy (busyless job)
  | wait _ same =>
      rcases same with rfl | rfl
      · exact attended
      · exact ⟨attended.idle, attended.metadata, by simp, attended.task⟩
  | setBatchBudget steps _ same =>
      subst same
      exact ⟨attended.idle, attended.metadata, attended.handle, attended.task⟩
  | background index other runAction shared result _ found stepped same =>
      obtain ⟨rfl, rfl, rfl⟩ := live_last tasks settled found
      have running : pipeline.state = .running := by
        rcases state with ⟨_, running⟩ | ⟨published, _⟩
        · exact running
        · simp at published
      subst same
      refine ⟨attended.idle, attended.metadata, ?_, earlier, result, .live, ?_, settled, ?_, .inl ⟨rfl, running⟩⟩
      · simpa using attended.handle
      · simp [tasks]
      · exact kept _ other runAction result rfl found holds stepped
  | publish index other outcome _ found ended same =>
      obtain ⟨rfl, rfl, rfl⟩ := live_last tasks settled found
      subst same
      refine ⟨attended.idle, attended.metadata, ?_, earlier, other, .published, ?_, settled, holds,
        .inr ⟨rfl, ended⟩⟩
      · simpa [ETLPipeline.send] using attended.handle
      · simp [tasks]

/-- A step that is not a call keeps the current task, when the steps of runs keep its property. -/
theorem step (attended : Attended Holds metadata pipeline) {action : PipelineAction Table Key Data}
    (noCall : ∀ call, action ≠ .call call)
    (kept : ∀ index run runAction after, action = .background index runAction → Holds pipeline.shared run →
      RunMove config pipeline.shared next.shared run after runAction → Holds next.shared after)
    (moved : PipelineMove config pipeline next action) : Attended Holds metadata next := by
  refine attended.step_live noCall ?_ moved
  intro index run runAction after isRun _ holds stepped
  exact kept index run runAction after isRun holds (runStep_moves stepped)

omit [DecidableEq Table] in
/-- Unless the pipeline is running, the current run has returned its state and no task is live. -/
theorem settled (attended : Attended Holds metadata pipeline) (still : pipeline.state ≠ .running) :
    (∃ run : RunTask Table Key Data, run.phase = .returned pipeline.state ∧ Holds pipeline.shared run) ∧
      ∀ task ∈ pipeline.tasks, task.status ≠ .live := by
  obtain ⟨earlier, run, status, tasks, ended, holds, ⟨_, running⟩ | ⟨published, returned⟩⟩ := attended.task
  · exact absurd running still
  · refine ⟨⟨run, returned, holds⟩, ?_⟩
    intro task member
    rw [tasks, List.mem_append, List.mem_singleton] at member
    rcases member with old | rfl
    · exact ended task old
    · simp [published]

omit [DecidableEq Table] in
/-- A weaker property holds of the current task too. -/
theorem mono (attended : Attended Holds metadata pipeline)
    (weaker : ∀ run, Holds pipeline.shared run → After pipeline.shared run) : Attended After metadata pipeline := by
  obtain ⟨earlier, run, status, tasks, ended, holds, state⟩ := attended.task
  exact ⟨attended.idle, attended.metadata, attended.handle, earlier, run, status, tasks, ended,
    weaker run holds, state⟩

omit [DecidableEq Table] in
/-- The current run holds the property in every state. -/
theorem holds (attended : Attended Holds metadata pipeline) :
    ∃ run, Holds pipeline.shared run := by
  obtain ⟨_, run, _, _, _, holds, _⟩ := attended.task
  exact ⟨run, holds⟩

/-- Unless the pipeline is running, `wait` returns. -/
theorem wait_returns (attended : Attended Holds metadata pipeline) (config : EtlConfig Key Data)
    (still : pipeline.state ≠ .running) : ∃ after, pipelineStep config pipeline .wait = some after := by
  cases handle : pipeline.handle with
  | none => exact ⟨pipeline, by simp [pipelineStep, attended.idle, handle]⟩
  | some index =>
      have last := attended.handle index handle
      have inside : index < pipeline.tasks.length := by omega
      have ended := (attended.settled still).2 _ (List.getElem_mem inside)
      exact ⟨{ pipeline with handle := none }, by simp [pipelineStep, attended.idle, handle, inside, ended]⟩

/-- A `wait` with a stored handle returns only after the current run has. -/
theorem waited (attended : Attended Holds metadata pipeline) (stored : pipeline.handle ≠ none)
    (waits : pipelineStep config pipeline .wait = some next) :
    ∃ run : RunTask Table Key Data, run.phase = .returned pipeline.state ∧ Holds pipeline.shared run := by
  obtain ⟨index, handle⟩ := Option.ne_none_iff_exists'.mp stored
  have last := attended.handle index handle
  obtain ⟨earlier, run, status, tasks, _, holds, ⟨live, _⟩ | ⟨_, returned⟩⟩ := attended.task
  · have place : index = earlier.length := by simpa [tasks] using last
    simp [pipelineStep, attended.idle, handle, tasks, place, live] at waits
  · exact ⟨run, returned, holds⟩

omit [DecidableEq Table] in
/-- The budget of the next run does not concern the current one. -/
theorem setBatchBudget (attended : Attended Holds metadata pipeline) (steps : Nat) :
    Attended Holds metadata (pipeline.setBatchBudget steps) :=
  ⟨attended.idle, attended.metadata, attended.handle, attended.task⟩

/-- A paused pipeline can be continued. -/
theorem perform_continue (paused : pipeline.state = .paused) :
    perform .continuePipeline pipeline = (.ok,
      ({ pipeline with checkpointIdx := pipeline.checkpointIdx + 1 }.abortHandle).spawnRunTask
        pipeline.batchBudget) :=
  if_neg (not_not.mpr paused)

/-- Continuing a paused pipeline spawns the next run on what the last one has left. -/
theorem resume (attended : Attended Holds metadata pipeline) (paused : pipeline.state = .paused)
    (holds : After pipeline.shared (.spawn pipeline.batchBudget)) :
    Attended After metadata (perform .continuePipeline pipeline).2 := by
  obtain ⟨_, quiet⟩ := attended.settled (by simp [paused])
  have kept : ({ pipeline with checkpointIdx := pipeline.checkpointIdx + 1 }.abortHandle).tasks =
      pipeline.tasks := ETLPipeline.abortHandle_tasks quiet
  rw [perform_continue paused]
  exact spawn ({ pipeline with checkpointIdx := pipeline.checkpointIdx + 1 }.abortHandle) attended.idle
    attended.metadata (by rw [kept]; exact quiet) holds

end Attended

end Spicebench.Etl
