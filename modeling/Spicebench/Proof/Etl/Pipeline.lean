import Spicebench.Construction.Etl.Pipeline

namespace Spicebench.Etl
open Library

variable {Table Key Data : Type} [DecidableEq Table]

/-- This is everything that one step of the pipeline object can do. -/
inductive PipelineMove (config : EtlConfig Key Data) (pipeline after : ETLPipeline Table Key Data) :
    PipelineAction Table Key Data → Prop where
  | call (call : Call Table) (idle : pipeline.initializing = none)
      (same : after = (perform call pipeline).2) : PipelineMove config pipeline after (.call call)
  | initTask (job : InitJob Table Key Data) (table : Table) (action : TaskAction Key Data)
      (shared : Shared Table Key Data) (result : TaskState Key Data)
      (busy : pipeline.initializing = some job) (member : table ∈ job.active)
      (stepped : taskStep config none table pipeline.shared (job.tasks table) action = some (shared, result))
      (same : after = { pipeline with
        shared := shared
        initializing := some { job with tasks := Function.update job.tasks table result } }) :
      PipelineMove config pipeline after (.initTask table action)
  | initCollect (job : InitJob Table Key Data) (table : Table) (report : TaskReport)
      (busy : pipeline.initializing = some job) (member : table ∈ job.active)
      (done : job.tasks table = .done (.ok report))
      (same : after = { pipeline with initializing := some { job with active := job.active.erase table } }) :
      PipelineMove config pipeline after (.initCollect table)
  | initFail (job : InitJob Table Key Data) (table : Table) (message : String)
      (busy : pipeline.initializing = some job) (member : table ∈ job.active)
      (done : job.tasks table = .done (.error message))
      (same : after = { pipeline.send (.stopped (.error message)) with initializing := none }) :
      PipelineMove config pipeline after (.initCollect table)
  | initDone (job : InitJob Table Key Data) (busy : pipeline.initializing = some job)
      (joined : job.active = [])
      (same : after = { pipeline.send .initialized with initializing := none }) :
      PipelineMove config pipeline after (.initDone (.ok ()))
  | initFlushFail (job : InitJob Table Key Data) (message text : String)
      (busy : pipeline.initializing = some job) (joined : job.active = [])
      (same : after = { pipeline.send (.stopped (.error text)) with
        shared := pipeline.shared.fail
        initializing := none }) : PipelineMove config pipeline after (.initDone (.error message))
  | wait (idle : pipeline.initializing = none)
      (same : after = pipeline ∨ after = { pipeline with handle := none }) :
      PipelineMove config pipeline after .wait
  | setBatchBudget (steps : Nat) (idle : pipeline.initializing = none)
      (same : after = pipeline.setBatchBudget steps) :
      PipelineMove config pipeline after (.setBatchBudget steps)
  | background (index : Nat) (run : RunTask Table Key Data) (action : RunAction Table Key Data)
      (shared : Shared Table Key Data) (result : RunTask Table Key Data)
      (idle : pipeline.initializing = none) (found : pipeline.tasks[index]? = some ⟨run, .live⟩)
      (stepped : runStep config pipeline.shared run action = some (shared, result))
      (same : after = { pipeline with
        shared := shared
        tasks := pipeline.tasks.set index ⟨result, .live⟩ }) :
      PipelineMove config pipeline after (.background index action)
  | publish (index : Nat) (run : RunTask Table Key Data) (outcome : PipelineState)
      (idle : pipeline.initializing = none) (found : pipeline.tasks[index]? = some ⟨run, .live⟩)
      (ended : run.phase = .returned outcome)
      (same : after = { pipeline.send outcome with
        tasks := pipeline.tasks.set index ⟨run, .published⟩ }) :
      PipelineMove config pipeline after (.publish index)

theorem initStep_moves {config : EtlConfig Key Data} {pipeline after : ETLPipeline Table Key Data}
    {job : InitJob Table Key Data} {action : PipelineAction Table Key Data}
    (busy : pipeline.initializing = some job)
    (stepped : initStep config pipeline job action = some after) :
    PipelineMove config pipeline after action := by
  unfold initStep at stepped
  split at stepped
  · split at stepped
    · rename_i member
      simp only [Option.map_eq_some_iff] at stepped
      obtain ⟨⟨shared, result⟩, taken, rfl⟩ := stepped
      exact .initTask job _ _ shared result busy member taken rfl
    · simp at stepped
  · split at stepped
    · rename_i done
      split at stepped
      · rename_i member
        obtain rfl := Option.some.inj stepped
        exact .initCollect job _ _ busy member done rfl
      · simp at stepped
    · rename_i done
      split at stepped
      · rename_i member
        obtain rfl := Option.some.inj stepped
        exact .initFail job _ _ busy member done rfl
      · simp at stepped
    · simp at stepped
  · split at stepped
    · rename_i joined
      split at stepped
      · obtain rfl := Option.some.inj stepped
        exact .initDone job busy (List.isEmpty_iff.mp joined) rfl
      · obtain rfl := Option.some.inj stepped
        exact .initFlushFail job _ _ busy (List.isEmpty_iff.mp joined) rfl
    · simp at stepped
  · simp at stepped

/-- Every step of the pipeline object is one of the listed moves. -/
theorem pipelineStep_moves {config : EtlConfig Key Data} {pipeline after : ETLPipeline Table Key Data}
    {action : PipelineAction Table Key Data}
    (stepped : pipelineStep config pipeline action = some after) :
    PipelineMove config pipeline after action := by
  unfold pipelineStep at stepped
  split at stepped
  · rename_i busy
    exact initStep_moves busy stepped
  · rename_i idle
    split at stepped
    · obtain rfl := Option.some.inj stepped
      exact .call _ idle rfl
    · split at stepped
      · obtain rfl := Option.some.inj stepped
        exact .wait idle (.inl rfl)
      · split at stepped
        · obtain rfl := Option.some.inj stepped
          exact .wait idle (.inr rfl)
        · simp at stepped
    · obtain rfl := Option.some.inj stepped
      exact .setBatchBudget _ idle rfl
    · split at stepped
      · rename_i found
        simp only [Option.map_eq_some_iff] at stepped
        obtain ⟨⟨shared, result⟩, taken, rfl⟩ := stepped
        exact .background _ _ _ shared result idle found taken rfl
      · simp at stepped
    · split at stepped
      · rename_i found
        obtain rfl := Option.some.inj stepped
        exact .publish _ _ _ idle found rfl rfl
      · simp at stepped
    · simp at stepped

omit [DecidableEq Table] in
/-- An abort changes nothing when no task is live. -/
theorem ETLPipeline.abortHandle_tasks {pipeline : ETLPipeline Table Key Data}
    (settled : ∀ task ∈ pipeline.tasks, task.status ≠ .live) :
    pipeline.abortHandle.tasks = pipeline.tasks := by
  unfold ETLPipeline.abortHandle
  dsimp only
  split
  · rfl
  · rename_i index _
    apply List.ext_getElem?
    intro position
    rw [List.getElem?_modify]
    cases found : pipeline.tasks[position]? with
    | none => simp
    | some task =>
        have quiet := settled task (List.mem_of_getElem? found)
        simp [quiet]

end Spicebench.Etl
