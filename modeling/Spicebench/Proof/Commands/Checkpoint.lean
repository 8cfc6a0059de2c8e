import Spicebench.Proof.Commands.Schedule

namespace Spicebench.Commands
open Library Etl

variable {Table Key Data : Type} [DecidableEq Table]

/-- This many keys are done at the checkpoint that the command writes next. -/
def CheckpointArgs.target (args : CheckpointArgs) (index : Nat) : Nat :=
  args.firstBudget + index * args.checkpointIntervalSteps

/-- This is where the checkpoint command stands, and what it has written. -/
inductive Checkpointing (config : EtlConfig Key Data) (metadata : Metadata Table) (args : CheckpointArgs)
    (command : CheckpointCommand Table Key Data) : Prop where
  | created (phase : command.phase = .created) (fresh : command.pipeline = .new metadata)
      (index : command.checkpointIdx = 0) (unwritten : command.written = [])
  | initializing (phase : command.phase = .initializing) (readying : Readying config metadata command.pipeline)
      (index : command.checkpointIdx = 0) (unwritten : command.written = [])
  | waiting (phase : command.phase = .waiting)
      (attended : Attended (Approaching metadata (args.target command.checkpointIdx)) metadata command.pipeline)
      (budget : args.version.bootstrap = false → command.pipeline.batchBudget = some args.checkpointIntervalSteps)
      (scheduled : Scheduled metadata args.firstBudget args.checkpointIntervalSteps command.written)
  | finished (result : Except String Unit) (phase : command.phase = .finished result)
      (scheduled : Scheduled metadata args.firstBudget args.checkpointIntervalSteps command.written)

namespace Checkpointing

variable {config : EtlConfig Key Data} {environment : Environment Table Key Data} {metadata : Metadata Table}
  {args : CheckpointArgs} {command next : CheckpointCommand Table Key Data}

/-- A checkpoint at the target of a run that has returned follows the schedule. -/
theorem write_scheduled
    (scheduled : Scheduled metadata args.firstBudget args.checkpointIntervalSteps command.written)
    (done : Done metadata (args.target command.checkpointIdx) command.pipeline.shared) :
    Scheduled metadata args.firstBudget args.checkpointIntervalSteps command.write.written := by
  intro checkpoint member
  rcases List.mem_append.mp member with old | new
  · exact scheduled checkpoint old
  · rw [List.mem_singleton.mp new]
    exact done.handed

/-- The command resumes its pipeline towards the next checkpoint. -/
theorem resume (positive : 1 ≤ args.checkpointIntervalSteps) (phase : command.phase = .waiting)
    (attended : Attended (Approaching metadata (args.target command.checkpointIdx)) metadata command.pipeline)
    (paused : command.pipeline.state = .paused)
    (budget : args.version.bootstrap = false → command.pipeline.batchBudget = some args.checkpointIntervalSteps)
    (done : Done metadata (args.target command.checkpointIdx) command.pipeline.shared)
    (scheduled : Scheduled metadata args.firstBudget args.checkpointIntervalSteps command.written) :
    Checkpointing config metadata args (command.resume args) := by
  have budgeted : (command.pipeline.setBatchBudget args.checkpointIntervalSteps).state = .paused := paused
  have spawned := Approaching.spawn done (show args.checkpointIntervalSteps ≠ 0 by omega)
  have sum : args.target command.checkpointIdx + args.checkpointIntervalSteps =
      args.target (command.checkpointIdx + 1) := by
    unfold CheckpointArgs.target
    rw [Nat.succ_mul]
    omega
  rw [sum] at spawned
  rw [command.resume_eq budget paused]
  refine .waiting phase ((attended.setBatchBudget _).resume budgeted spawned) ?_ scheduled
  intro _
  rw [Attended.perform_continue budgeted]
  rfl

/-- One turn of the loop writes the checkpoint that its index names. -/
theorem turn (positive : 1 ≤ args.checkpointIntervalSteps) (phase : command.phase = .waiting)
    (attended : Attended (Approaching metadata (args.target command.checkpointIdx)) metadata command.pipeline)
    (budget : args.version.bootstrap = false → command.pipeline.batchBudget = some args.checkpointIntervalSteps)
    (scheduled : Scheduled metadata args.firstBudget args.checkpointIntervalSteps command.written)
    (queries : Except String Unit) : Checkpointing config metadata args (command.turn args queries) := by
  have reached : command.pipeline.state ≠ .running →
      Done metadata (args.target command.checkpointIdx) command.pipeline.shared := by
    intro still
    obtain ⟨⟨run, ended, approaching⟩, _⟩ := attended.settled still
    exact (approaching.returned ended).1
  unfold CheckpointCommand.turn
  split
  · rename_i paused
    have done := reached (by simp [paused])
    exact resume positive phase attended paused budget done (write_scheduled scheduled done)
  · exact .finished _ rfl scheduled
  · rename_i completed
    exact .finished _ rfl (write_scheduled scheduled (reached (by simp [completed])))
  · exact .finished _ rfl scheduled
  · exact .finished _ rfl scheduled
  · exact .finished _ rfl scheduled
  · exact .finished _ rfl scheduled

/-- A step of the checkpoint command keeps its schedule. -/
theorem step (positive : 1 ≤ args.checkpointIntervalSteps) (healthy : environment.Healthy metadata.Planned)
    (checkpointing : Checkpointing config metadata args command) {action : CheckpointAction Table Key Data}
    (admitted : (checkpointMachine config environment metadata args).admits action)
    (stepped : checkpointStep config args command action = some next) :
    Checkpointing config metadata args next := by
  cases action with
  | etl action =>
      simp only [checkpointStep, Option.map_eq_some_iff] at stepped
      obtain ⟨pipeline, progressed, rfl⟩ := stepped
      obtain ⟨moved, spontaneous, _⟩ := progress_moves progressed admitted
      cases checkpointing with
      | created _ fresh =>
          rw [fresh] at moved
          obtain ⟨task, member, _⟩ := PipelineMove.restless moved spontaneous rfl
          simp [ETLPipeline.new] at member
      | initializing phase readying index unwritten =>
          exact .initializing phase (readying.step healthy admitted progressed) index unwritten
      | waiting phase attended budget scheduled =>
          refine .waiting phase (approaching_step attended healthy admitted progressed) ?_ scheduled
          intro plain
          exact (PipelineMove.frame moved spontaneous).1.trans (budget plain)
      | finished result phase scheduled => exact .finished result phase scheduled
  | proceed order queries =>
      cases checkpointing with
      | created phase fresh index unwritten =>
          simp only [checkpointStep, phase, Option.some.injEq] at stepped
          subst stepped
          rw [fresh]
          exact .initializing rfl (Readying.start admitted) index unwritten
      | initializing phase readying index unwritten =>
          simp only [checkpointStep, phase] at stepped
          split_ifs at stepped
          split at stepped
          · rename_i ready
            obtain rfl := Option.some.inj stepped
            have first := readying.run admitted ready (CheckpointArgs.firstBudget_positive positive)
            refine .waiting rfl ?_ ?_ (by simp [Scheduled, unwritten])
            · simpa [index, CheckpointArgs.target] using first
            · intro plain
              simp [perform, ETLPipeline.spawnRunTask, ETLPipeline.planWork, ETLPipeline.send,
                CheckpointArgs.firstBudget, plain]
          · obtain rfl := Option.some.inj stepped
            exact .finished _ rfl (by simp [Scheduled, CheckpointCommand.finish, unwritten])
      | waiting phase attended budget scheduled =>
          simp only [checkpointStep, phase, Option.map_eq_some_iff] at stepped
          obtain ⟨pipeline, waited, rfl⟩ := stepped
          obtain ⟨_, _, _, still⟩ := wait_frame waited
          have kept := attended.step (by simp) (by simp) (pipelineStep_moves waited)
          exact @turn _ _ _ _ _ _ _ { command with pipeline, phase := .waiting } positive rfl kept
            (fun plain => still.trans (budget plain)) scheduled queries
      | finished result phase => simp [checkpointStep, phase] at stepped

/-- Every checkpoint that the command writes follows the schedule of its first budget. -/
theorem reached (positive : 1 ≤ args.checkpointIntervalSteps) (healthy : environment.Healthy metadata.Planned)
    (path : (checkpointMachine config environment metadata args).Reaches (.new metadata) command) :
    Scheduled metadata args.firstBudget args.checkpointIntervalSteps command.written := by
  have checkpointing := Machine.Reaches.invariant (Checkpointing config metadata args) ?_ path
    (.created rfl rfl rfl rfl)
  · cases checkpointing with
    | created _ _ _ unwritten => simp [Scheduled, unwritten]
    | initializing _ _ _ unwritten => simp [Scheduled, unwritten]
    | waiting _ _ _ scheduled => exact scheduled
    | finished _ _ scheduled => exact scheduled
  · intro before after checkpointing stepped
    obtain ⟨action, admitted, stepped⟩ := stepped
    exact checkpointing.step positive healthy admitted stepped

end Checkpointing

section Existence

variable {config : EtlConfig Key Data} {environment : Environment Table Key Data} {metadata : Metadata Table}
  {args : CheckpointArgs}

/-- The tasks of the pipeline can run while the command waits. -/
theorem checkpoint_background (command : CheckpointCommand Table Key Data)
    {pipeline final : ETLPipeline Table Key Data}
    (path : (backgroundMachine config environment metadata false).Reaches pipeline final) :
    (checkpointMachine config environment metadata args).Reaches { command with pipeline }
      { command with pipeline := final } := by
  refine path.lift (fun pipeline => { command with pipeline }) ?_
  intro before after stepped
  obtain ⟨action, admitted, stepped⟩ := stepped
  have progressed : progress config false before action = some after := stepped
  exact ⟨.etl action, admitted, by simp [checkpointMachine, checkpointStep, progressed]⟩

theorem resume_written (command : CheckpointCommand Table Key Data) :
    (command.resume args).written = command.written := by
  unfold CheckpointCommand.resume
  dsimp only
  split <;> rfl

/-- The command can always go on until it has written its first checkpoint. -/
theorem exists_first_written (config : EtlConfig Key Data) (positive : 1 ≤ args.checkpointIntervalSteps)
    (healthy : environment.Healthy metadata.Planned) (responds : environment.Responds metadata.Planned) :
    ∃ command, (checkpointMachine config environment metadata args).Reaches (.new metadata) command ∧
      ∃ checkpoint ∈ command.written, checkpoint.index = 0 := by
  have perm := List.Perm.refl metadata.tables
  obtain ⟨ready, readied, readying, idle, state, _⟩ := exists_ready config healthy responds
  have first := readying.run perm state (CheckpointArgs.firstBudget_positive positive)
  obtain ⟨rested, ran, attended, outcome, _⟩ := exists_rested config healthy responds first
  have still : rested.state ≠ .running := by
    rcases outcome with paused | completed
    · simp [paused]
    · simp [completed]
  obtain ⟨waited, waits⟩ := attended.wait_returns config still
  obtain ⟨same, _⟩ := wait_frame waits
  let machine := checkpointMachine config environment metadata args
  have called : machine.Step (.new metadata)
      ⟨.initializing, (perform (.initializePipeline metadata.tables) (.new metadata)).2, 0, []⟩ :=
    ⟨.proceed metadata.tables (.ok ()), perm, rfl⟩
  have started : machine.Step ⟨.initializing, ready, 0, []⟩
      ⟨.waiting, (perform (.run args.firstBudget metadata.tables) ready).2, 0, []⟩ :=
    ⟨.proceed metadata.tables (.ok ()), perm, by simp [machine, checkpointMachine, checkpointStep, idle, state]⟩
  have turned : machine.Step ⟨.waiting, rested, 0, []⟩
      ((⟨.waiting, waited, 0, []⟩ : CheckpointCommand Table Key Data).turn args (.ok ())) :=
    ⟨.proceed metadata.tables (.ok ()), perm, by simp [machine, checkpointMachine, checkpointStep, waits]⟩
  have initialized : machine.Reaches _ _ := checkpoint_background ⟨.initializing, ready, 0, []⟩ readied
  have finished : machine.Reaches _ _ := checkpoint_background ⟨.waiting, rested, 0, []⟩ ran
  refine ⟨_, .tail (.trans (.tail (.head called initialized) started) finished) turned,
    ⟨0, waited.shared.history⟩, ?_, rfl⟩
  rw [← same] at outcome
  rcases outcome with paused | completed
  · simp [CheckpointCommand.turn, paused, resume_written, CheckpointCommand.write]
  · simp [CheckpointCommand.turn, completed, CheckpointCommand.write, CheckpointCommand.finish]

end Existence

end Spicebench.Commands
