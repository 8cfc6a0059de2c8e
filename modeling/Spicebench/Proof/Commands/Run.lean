import Spicebench.Construction.Commands.Run
import Spicebench.Proof.Commands.Schedule

namespace Spicebench.Commands
open Library Etl

variable {Table Key Data : Type} [DecidableEq Table]

/-- The base is seeded before the load phase. -/
def RunArgs.seeds (args : RunArgs) : Bool :=
  args.version.bootstrap && decide (0 < args.version.baseRemainder)

/-- The first checkpoint follows the seeded base or the first interval. -/
def RunArgs.firstTarget (args : RunArgs) (interval : Nat) : Nat :=
  if args.seeds then args.version.baseRemainder else interval

/-- The current run leads to the next checkpoint, or it replays a plan that the base seed has used up. -/
def OnTrack (metadata : Metadata Table) (first interval : Nat) (pipeline : ETLPipeline Table Key Data) : Prop :=
  Attended (Approaching metadata (first + pipeline.checkpointIdx * interval)) metadata pipeline ∨
    (planKeys metadata).length < first ∧ Attended (Replaying metadata) metadata pipeline

/-- This is where the benchmark stands, and what it has validated. -/
inductive Validating (config : EtlConfig Key Data) (metadata : Metadata Table) (args : RunArgs) (interval : Nat)
    (command : RunCommand Table Key Data) : Prop where
  | created (phase : command.phase = .created) (calm : command.cancelled = false)
      (fresh : command.pipeline = .new metadata) (unvalidated : command.validated = [])
  | initializing (phase : command.phase = .initializing) (calm : command.cancelled = false)
      (readying : Readying config metadata command.pipeline) (index : command.pipeline.checkpointIdx = 0)
      (unvalidated : command.validated = [])
  | seeding (phase : command.phase = .seeding) (calm : command.cancelled = false) (seeds : args.seeds = true)
      (attended : Attended (Approaching metadata args.version.baseRemainder) metadata command.pipeline)
      (handle : command.pipeline.handle ≠ none) (index : command.pipeline.checkpointIdx = 0)
      (unvalidated : command.validated = [])
  | prepared (phase : command.phase = .loading) (calm : command.cancelled = false) (seeds : args.seeds = false)
      (readying : Readying config metadata command.pipeline) (ready : command.pipeline.state = .initialized)
      (index : command.pipeline.checkpointIdx = 0) (unvalidated : command.validated = [])
  | seeded (phase : command.phase = .loading) (calm : command.cancelled = false) (seeds : args.seeds = true)
      (attended : Attended (Approaching metadata args.version.baseRemainder) metadata command.pipeline)
      (still : command.pipeline.state ≠ .running) (index : command.pipeline.checkpointIdx = 0)
      (unvalidated : command.validated = [])
  | monitoring (phase : command.phase = .monitoring) (calm : command.cancelled = false)
      (onTrack : OnTrack metadata (args.firstTarget interval) interval command.pipeline)
      (budget : command.pipeline.batchBudget = some interval)
      (scheduled : Scheduled metadata (args.firstTarget interval) interval command.validated)
  | finished (ending : Ending) (phase : command.phase = .finished ending)
      (scheduled : Scheduled metadata (args.firstTarget interval) interval command.validated)

section Track

variable {config : EtlConfig Key Data} {environment : Environment Table Key Data} {metadata : Metadata Table}
  {first interval : Nat} {pipeline next : ETLPipeline Table Key Data}

/-- A step of the tasks keeps the pipeline on track. -/
theorem OnTrack.step {action : PipelineAction Table Key Data} (onTrack : OnTrack metadata first interval pipeline)
    (healthy : environment.Healthy metadata.Planned) (admitted : environment.AdmitsPipeline metadata action)
    (stepped : progress config false pipeline action = some next) : OnTrack metadata first interval next := by
  obtain ⟨moved, spontaneous, _⟩ := progress_moves stepped admitted
  obtain ⟨_, index, _⟩ := PipelineMove.frame moved spontaneous
  rcases onTrack with attended | ⟨usedUp, attended⟩
  · left
    rw [index]
    exact approaching_step attended healthy admitted stepped
  · right
    refine ⟨usedUp, attended.step (noCall_of_spontaneous spontaneous) ?_ moved⟩
    intro _ run _ after _ replaying runMoved
    exact replaying.step runMoved

/-- What was handed over at a pause or at the end is what the schedule says for its index. -/
theorem OnTrack.handed (onTrack : OnTrack metadata first interval pipeline) (still : pipeline.state ≠ .running)
    (table : Table) (batchId : Nat) : .handed table batchId ∈ pipeline.shared.history ↔
      Covered metadata (first + pipeline.checkpointIdx * interval) table batchId := by
  rcases onTrack with attended | ⟨usedUp, attended⟩
  · obtain ⟨⟨run, ended, approaching⟩, _⟩ := attended.settled still
    exact (approaching.returned ended).1.handed table batchId
  · obtain ⟨run, replaying⟩ := attended.holds
    rw [replaying.handed, covered_all (by omega)]

/-- Continuing a paused pipeline leads to the next checkpoint. -/
theorem OnTrack.resume (onTrack : OnTrack metadata first interval pipeline) (positive : 1 ≤ interval)
    (paused : pipeline.state = .paused) (budget : pipeline.batchBudget = some interval) :
    OnTrack metadata first interval (perform .continuePipeline pipeline).2 ∧
      (perform .continuePipeline pipeline).2.batchBudget = some interval := by
  have index : (perform .continuePipeline pipeline).2.checkpointIdx = pipeline.checkpointIdx + 1 := by
    rw [Attended.perform_continue paused]
    rfl
  have kept : (perform .continuePipeline pipeline).2.batchBudget = some interval := by
    rw [Attended.perform_continue paused]
    exact budget
  refine ⟨?_, kept⟩
  rcases onTrack with attended | ⟨usedUp, attended⟩
  · left
    obtain ⟨⟨run, ended, approaching⟩, _⟩ := attended.settled (by simp [paused])
    have done := (approaching.returned ended).1
    have spawned := Approaching.spawn done (show interval ≠ 0 by omega)
    have sum : first + pipeline.checkpointIdx * interval + interval =
        first + (pipeline.checkpointIdx + 1) * interval := by
      rw [Nat.succ_mul]
      omega
    rw [sum] at spawned
    rw [index]
    apply attended.resume paused
    rw [budget]
    exact spawned
  · right
    obtain ⟨run, replaying⟩ := attended.holds
    exact ⟨usedUp, attended.resume paused (replaying.resume _)⟩

end Track

namespace Validating

variable {config : EtlConfig Key Data} {environment : Environment Table Key Data} {metadata : Metadata Table}
  {args : RunArgs} {interval : Nat} {command next : RunCommand Table Key Data}

/-- A validated checkpoint that follows the schedule keeps the list scheduled. -/
theorem validate_scheduled {first index : Nat}
    (scheduled : Scheduled metadata first interval command.validated)
    (handed : ∀ table batchId, .handed table batchId ∈ command.pipeline.shared.history ↔
      Covered metadata (first + index * interval) table batchId) (checked : Bool) :
    Scheduled metadata first interval (if checked = true then command.validate index else command).validated := by
  split_ifs
  · intro checkpoint member
    rcases List.mem_append.mp member with old | new
    · exact scheduled checkpoint old
    · rw [List.mem_singleton.mp new]
      exact handed
  · exact scheduled

/-- A paused pipeline on track is continued. -/
theorem resume (positive : 1 ≤ interval) (calm : command.cancelled = false)
    (onTrack : OnTrack metadata (args.firstTarget interval) interval command.pipeline)
    (paused : command.pipeline.state = .paused) (budget : command.pipeline.batchBudget = some interval)
    (scheduled : Scheduled metadata (args.firstTarget interval) interval command.validated) :
    ∃ after, perform .continuePipeline command.pipeline = (.ok, after) ∧
      Validating config metadata args interval { command with pipeline := after, phase := .monitoring } := by
  obtain ⟨following, kept⟩ := onTrack.resume positive paused budget
  rw [Attended.perform_continue paused] at following kept
  exact ⟨_, Attended.perform_continue paused, .monitoring rfl calm following kept scheduled⟩

/-- The seeded base is the first checkpoint, and the interval becomes the budget. -/
theorem resumeBase (positive : 1 ≤ interval) (steps : args.checkpointSteps = some interval)
    (calm : command.cancelled = false) (seeds : args.seeds = true)
    (attended : Attended (Approaching metadata args.version.baseRemainder) metadata command.pipeline)
    (paused : command.pipeline.state = .paused) (index : command.pipeline.checkpointIdx = 0)
    (unvalidated : command.validated = []) (validation : CheckpointValidationResult) :
    Validating config metadata args interval (command.resumeBase args validation) := by
  have target : args.firstTarget interval = args.version.baseRemainder := by
    simp [RunArgs.firstTarget, seeds]
  have onTrack : OnTrack metadata (args.firstTarget interval) interval command.pipeline := by
    left
    rw [index, target, Nat.zero_mul, Nat.add_zero]
    exact attended
  have handed := onTrack.handed (by simp [paused])
  rw [index] at handed
  have scheduled : Scheduled metadata (args.firstTarget interval) interval
      (if args.hasCheckpointValidation = true then command.validate 0 else command).validated :=
    validate_scheduled (by simp [Scheduled, unvalidated]) handed _
  unfold RunCommand.resumeBase
  dsimp only
  generalize noting : (if args.hasCheckpointValidation = true then command.validate 0 else command) = noted
  obtain ⟨samePipeline, sameCancelled, _⟩ := RunCommand.validate_keeps noting
  rw [noting] at scheduled
  rw [← samePipeline] at onTrack paused
  rw [← sameCancelled] at calm
  split
  · exact .finished _ rfl scheduled
  · exact .finished _ rfl scheduled
  · rw [steps]
    dsimp only
    have budgeted : OnTrack metadata (args.firstTarget interval) interval
        (noted.pipeline.setBatchBudget interval) :=
      onTrack.imp (fun attended => attended.setBatchBudget interval)
        fun replay => ⟨replay.1, replay.2.setBatchBudget interval⟩
    obtain ⟨after, performed, validating⟩ := @resume _ _ _ _ config _ _ _
      { noted with pipeline := noted.pipeline.setBatchBudget interval } positive calm budgeted paused rfl scheduled
    simp only [performed]
    exact validating

/-- The load phase continues a seeded base, runs the first interval, or replays a base that was used up. -/
theorem load {order : List Table} (perm : order.Perm metadata.tables) (positive : 1 ≤ interval)
    (steps : args.checkpointSteps = some interval) (validating : Validating config metadata args interval command)
    (loading : command.phase = .loading) (validation : CheckpointValidationResult) :
    Validating config metadata args interval (command.load args order validation) := by
  cases validating with
  | prepared phase calm seeds readying ready index unvalidated =>
      unfold RunCommand.load
      rw [if_neg (by simp [ready]), steps]
      refine .monitoring rfl calm (.inl ?_) rfl (by simp [Scheduled, unvalidated])
      have first := readying.run perm ready (show interval ≠ 0 by omega)
      have target : args.firstTarget interval = interval := by
        simp [RunArgs.firstTarget, seeds]
      have idx : (perform (.run interval order) command.pipeline).2.checkpointIdx = 0 := index
      dsimp only
      rw [idx, target, Nat.zero_mul, Nat.add_zero]
      exact first
  | seeded phase calm seeds attended still index unvalidated =>
      unfold RunCommand.load
      split_ifs with paused
      · exact resumeBase positive steps calm seeds attended paused index unvalidated validation
      · rw [steps]
        refine .monitoring rfl calm (.inr ?_) rfl (by simp [Scheduled, unvalidated])
        obtain ⟨⟨run, ended, approaching⟩, quiet⟩ := attended.settled still
        obtain ⟨done, outcome⟩ := approaching.returned ended
        obtain ⟨completed, usedUp⟩ := outcome.resolve_left paused
        have target : args.firstTarget interval = args.version.baseRemainder := by
          simp [RunArgs.firstTarget, seeds]
        refine ⟨by rw [target]; exact usedUp, Attended.plan attended.idle attended.metadata quiet ?_⟩
        apply Replaying.spawn
        · intro table batchId
          rw [done.handed, covered_all usedUp.le]
        · intro table batchId pending
          exact ((metadata.pending_plan perm _ table batchId).mp pending).1
  | created phase => simp [loading] at phase
  | initializing phase => simp [loading] at phase
  | seeding phase => simp [loading] at phase
  | monitoring phase => simp [loading] at phase
  | finished _ phase => simp [loading] at phase

/-- The load phase validates what its checkpoint index names. -/
theorem monitor (positive : 1 ≤ interval) (phase : command.phase = .monitoring) (calm : command.cancelled = false)
    (onTrack : OnTrack metadata (args.firstTarget interval) interval command.pipeline)
    (budget : command.pipeline.batchBudget = some interval)
    (scheduled : Scheduled metadata (args.firstTarget interval) interval command.validated)
    {validation : CheckpointValidationResult} {succeeded : Bool}
    (stepped : command.monitor args validation succeeded = some next) :
    Validating config metadata args interval next := by
  have checked : command.pipeline.state ≠ .running → Scheduled metadata (args.firstTarget interval) interval
      (if command.checked args = true then command.validate command.pipeline.checkpointIdx else command).validated :=
    fun still => validate_scheduled scheduled (onTrack.handed still) _
  unfold RunCommand.monitor at stepped
  split at stepped
  · rename_i paused
    obtain rfl := Option.some.inj stepped
    have noted := checked (by simp [paused])
    unfold RunCommand.pause
    dsimp only
    generalize noting : (if command.checked args = true then command.validate command.pipeline.checkpointIdx
      else command) = recorded at noted ⊢
    obtain ⟨samePipeline, sameCancelled, samePhase⟩ := RunCommand.validate_keeps noting
    rw [← samePipeline] at onTrack paused budget
    rw [← sameCancelled] at calm
    rw [← samePhase] at phase
    split
    · exact .finished _ rfl noted
    · exact .finished _ rfl noted
    · obtain ⟨after, performed, validating⟩ := resume positive calm onTrack paused budget noted
      simp only [performed]
      rw [← phase] at validating
      exact validating
  · rename_i completed
    obtain rfl := Option.some.inj stepped
    have noted := checked (by simp [completed])
    unfold RunCommand.complete
    dsimp only
    split
    · exact .finished _ rfl noted
    · exact .finished _ rfl noted
    · exact .finished _ rfl noted
  · obtain rfl := Option.some.inj stepped
    exact .finished _ rfl scheduled
  · obtain rfl := Option.some.inj stepped
    exact .finished _ rfl scheduled
  · simp at stepped

theorem scheduled (validating : Validating config metadata args interval command) :
    Scheduled metadata (args.firstTarget interval) interval command.validated := by
  cases validating with
  | created _ _ _ unvalidated => simp [Scheduled, unvalidated]
  | initializing _ _ _ _ unvalidated => simp [Scheduled, unvalidated]
  | seeding _ _ _ _ _ _ unvalidated => simp [Scheduled, unvalidated]
  | prepared _ _ _ _ _ _ unvalidated => simp [Scheduled, unvalidated]
  | seeded _ _ _ _ _ _ unvalidated => simp [Scheduled, unvalidated]
  | monitoring _ _ _ _ scheduled => exact scheduled
  | finished _ _ scheduled => exact scheduled

/-- A step of the tasks keeps the schedule of the benchmark. -/
theorem etl (validating : Validating config metadata args interval command)
    (healthy : environment.Healthy metadata.Planned) {action : PipelineAction Table Key Data}
    {pipeline : ETLPipeline Table Key Data} (admitted : environment.AdmitsPipeline metadata action)
    (stepped : progress config command.cancelled command.pipeline action = some pipeline) :
    Validating config metadata args interval { command with pipeline } := by
  obtain ⟨moved, spontaneous, _⟩ := progress_moves stepped admitted
  obtain ⟨budget', index', handle', _⟩ := PipelineMove.frame moved spontaneous
  cases validating with
  | created _ _ fresh =>
      rw [fresh] at moved
      obtain ⟨task, member, _⟩ := PipelineMove.restless moved spontaneous rfl
      simp [ETLPipeline.new] at member
  | initializing phase calm readying index unvalidated =>
      rw [calm] at stepped
      exact .initializing phase calm (readying.step healthy admitted stepped) (index'.trans index) unvalidated
  | seeding phase calm seeds attended handle index unvalidated =>
      rw [calm] at stepped
      exact .seeding phase calm seeds (approaching_step attended healthy admitted stepped)
        (by rw [handle']; exact handle) (index'.trans index) unvalidated
  | prepared _ _ _ readying ready =>
      have idle : command.pipeline.initializing = none := by
        cases readying with
        | busy _ _ _ _ state => simp [ready] at state
        | ready _ _ _ idle => exact idle
        | broken _ _ _ idle => exact idle
      obtain ⟨task, member, _⟩ := PipelineMove.restless moved spontaneous idle
      simp [readying.tasks_nil] at member
  | seeded _ _ _ attended still =>
      obtain ⟨task, member, live⟩ := PipelineMove.restless moved spontaneous attended.idle
      exact absurd live ((attended.settled still).2 task member)
  | monitoring phase calm onTrack budget scheduled =>
      rw [calm] at stepped
      exact .monitoring phase calm (onTrack.step healthy admitted stepped) (budget'.trans budget) scheduled
  | finished ending phase scheduled => exact .finished ending phase scheduled

/-- A step of the benchmark keeps its schedule. -/
theorem step (positive : 1 ≤ interval) (steps : args.checkpointSteps = some interval)
    (healthy : environment.Healthy metadata.Planned)
    (validating : Validating config metadata args interval command) {action : RunCommandAction Table Key Data}
    (admitted : (runCommandMachine config environment metadata args).admits action)
    (stepped : runCommandStep config args command action = some next) :
    Validating config metadata args interval next := by
  have scheduled := validating.scheduled
  cases action with
  | etl action =>
      simp only [runCommandStep, Option.map_eq_some_iff] at stepped
      obtain ⟨pipeline, progressed, rfl⟩ := stepped
      exact validating.etl healthy admitted progressed
  | interrupt =>
      simp only [runCommandStep, RunCommand.interrupt] at stepped
      split at stepped
      · obtain rfl := Option.some.inj stepped
        exact .finished _ rfl scheduled
      · obtain rfl := Option.some.inj stepped
        exact .finished _ rfl scheduled
      · obtain rfl := Option.some.inj stepped
        exact .finished _ rfl scheduled
      · simp at stepped
  | fail message =>
      obtain rfl : command.finish (.error message) = next := by
        cases phase : command.phase with
        | finished ending => simp [runCommandStep, phase] at stepped
        | _ => simpa [runCommandStep, phase] using stepped
      exact .finished _ rfl scheduled
  | proceed order validation succeeded =>
      cases validating with
      | created phase calm fresh unvalidated =>
          simp only [runCommandStep, phase, Option.some.injEq] at stepped
          subst stepped
          rw [fresh]
          exact .initializing rfl calm (Readying.start admitted) rfl unvalidated
      | initializing phase calm readying index unvalidated =>
          simp only [runCommandStep, phase] at stepped
          split_ifs at stepped
          split at stepped
          · rename_i ready
            obtain rfl := Option.some.inj stepped
            unfold RunCommand.seed
            split_ifs with seeds
            · have base : 0 < args.version.baseRemainder := by
                simpa using (Bool.and_eq_true_iff.mp seeds).2
              exact .seeding rfl calm seeds (readying.run admitted ready base.ne')
                (by simp [perform, ETLPipeline.spawnRunTask]) index unvalidated
            · exact .prepared rfl calm (by simpa [RunArgs.seeds] using seeds) readying ready index unvalidated
          · obtain rfl := Option.some.inj stepped
            exact .finished _ rfl scheduled
      | seeding phase calm seeds attended handle index unvalidated =>
          simp only [runCommandStep, phase, Option.map_eq_some_iff] at stepped
          obtain ⟨pipeline, waits, rfl⟩ := stepped
          obtain ⟨run, ended, approaching⟩ := attended.waited handle waits
          have moved := pipelineStep_moves waits
          have same : pipeline.state = command.pipeline.state ∧
              pipeline.checkpointIdx = command.pipeline.checkpointIdx := by
            cases moved with
            | wait _ same => rcases same with rfl | rfl <;> exact ⟨rfl, rfl⟩
          have still : pipeline.state ≠ .running := by
            rw [same.1]
            rcases (approaching.returned ended).2 with paused | ⟨completed, _⟩
            · simp [paused]
            · simp [completed]
          exact .seeded rfl calm seeds (attended.step (by simp) (by simp) moved) still
            (same.2.trans index) unvalidated
      | prepared phase calm seeds readying ready index unvalidated =>
          simp only [runCommandStep, phase, Option.some.injEq] at stepped
          exact stepped ▸ load admitted positive steps
            (.prepared phase calm seeds readying ready index unvalidated) phase validation
      | seeded phase calm seeds attended still index unvalidated =>
          simp only [runCommandStep, phase, Option.some.injEq] at stepped
          exact stepped ▸ load admitted positive steps
            (.seeded phase calm seeds attended still index unvalidated) phase validation
      | monitoring phase calm onTrack budget scheduled =>
          simp only [runCommandStep, phase] at stepped
          exact monitor positive phase calm onTrack budget scheduled stepped
      | finished _ phase => simp [runCommandStep, phase] at stepped

/-- Every checkpoint that the benchmark validates follows the schedule of its first target. -/
theorem reached (positive : 1 ≤ interval) (steps : args.checkpointSteps = some interval)
    (healthy : environment.Healthy metadata.Planned)
    (path : (runCommandMachine config environment metadata args).Reaches (.new metadata) command) :
    Scheduled metadata (args.firstTarget interval) interval command.validated := by
  have validating := Machine.Reaches.invariant (Validating config metadata args interval) ?_ path
    (.created rfl rfl rfl rfl)
  · exact validating.scheduled
  · intro before after validating stepped
    obtain ⟨action, admitted, stepped⟩ := stepped
    exact validating.step positive steps healthy admitted stepped

end Validating

section Existence

variable {config : EtlConfig Key Data} {environment : Environment Table Key Data} {metadata : Metadata Table}
  {args : RunArgs} {interval : Nat}

/-- The tasks of the pipeline can run while the benchmark waits. -/
theorem run_background (command : RunCommand Table Key Data) (calm : command.cancelled = false)
    {pipeline final : ETLPipeline Table Key Data}
    (path : (backgroundMachine config environment metadata false).Reaches pipeline final) :
    (runCommandMachine config environment metadata args).Reaches { command with pipeline }
      { command with pipeline := final } := by
  refine path.lift (fun pipeline => { command with pipeline }) ?_
  intro before after stepped
  obtain ⟨action, admitted, stepped⟩ := stepped
  have progressed : progress config false before action = some after := stepped
  exact ⟨.etl action, admitted, by simp [runCommandMachine, runCommandStep, calm, progressed]⟩

/-- The first checkpoint of a run without a seed is validated when its results could be loaded. -/
theorem first_validated (steps : args.checkpointSteps = some interval) (validates : args.validateResults = true)
    (loaded : args.loaded 0 = true) {command : RunCommand Table Key Data}
    (index : command.pipeline.checkpointIdx = 0)
    (outcome : command.pipeline.state = .paused ∨ command.pipeline.state = .stopped .completed) :
    ∃ next, command.monitor args .converged true = some next ∧
      ∃ checkpoint ∈ next.validated, checkpoint.index = 0 := by
  have checked : command.checked args = true := by
    simp [RunCommand.checked, RunArgs.hasCheckpointValidation, steps, validates, index, loaded]
  have noted : ⟨0, command.pipeline.shared.history⟩ ∈ (command.validate 0).validated := by
    simp [RunCommand.validate]
  rcases outcome with paused | completed
  · obtain ⟨after, performed⟩ : ∃ after, perform .continuePipeline (command.validate 0).pipeline = (.ok, after) :=
      ⟨_, Attended.perform_continue paused⟩
    refine ⟨{ command.validate 0 with pipeline := after }, ?_, _, noted, rfl⟩
    simp [RunCommand.monitor, paused, RunCommand.pause, checked, index, performed]
  · refine ⟨(command.validate 0).conclude true, ?_, _, noted, rfl⟩
    simp [RunCommand.monitor, completed, RunCommand.complete, checked, index]

/-- A benchmark without a base seed can always go on until it has validated its first checkpoint. -/
theorem exists_first_validated (config : EtlConfig Key Data) (positive : 1 ≤ interval)
    (steps : args.checkpointSteps = some interval) (validates : args.validateResults = true)
    (loaded : args.loaded 0 = true) (seedless : args.seeds = false)
    (healthy : environment.Healthy metadata.Planned) (responds : environment.Responds metadata.Planned) :
    ∃ command, (runCommandMachine config environment metadata args).Reaches (.new metadata) command ∧
      ∃ checkpoint ∈ command.validated, checkpoint.index = 0 := by
  have perm := List.Perm.refl metadata.tables
  obtain ⟨ready, readied, readying, idle, state, index⟩ := exists_ready config healthy responds
  have first := readying.run perm state (show interval ≠ 0 by omega)
  obtain ⟨rested, ran, attended, outcome, same⟩ := exists_rested config healthy responds first
  have none : rested.checkpointIdx = 0 := same.trans index
  obtain ⟨last, monitored, noted⟩ := @first_validated _ _ _ _ _ _ steps validates loaded
    (⟨.monitoring, rested, false, []⟩ : RunCommand Table Key Data) none outcome
  let machine := runCommandMachine config environment metadata args
  have called : machine.Step (.new metadata)
      ⟨.initializing, (perform (.initializePipeline metadata.tables) (.new metadata)).2, false, []⟩ :=
    ⟨.proceed metadata.tables .converged true, perm, rfl⟩
  have skipped : machine.Step ⟨.initializing, ready, false, []⟩ ⟨.loading, ready, false, []⟩ := by
    refine ⟨.proceed metadata.tables .converged true, perm, ?_⟩
    simp only [machine, runCommandMachine, runCommandStep, idle, state, Option.isSome_none, Bool.false_eq_true,
      if_false, RunCommand.seed]
    rw [if_neg (by simpa [RunArgs.seeds] using seedless)]
  have started : machine.Step ⟨.loading, ready, false, []⟩
      ⟨.monitoring, (perform (.run interval metadata.tables) ready).2, false, []⟩ := by
    refine ⟨.proceed metadata.tables .converged true, perm, ?_⟩
    simp [machine, runCommandMachine, runCommandStep, RunCommand.load, state, steps]
  have validated : machine.Step ⟨.monitoring, rested, false, []⟩ last :=
    ⟨.proceed metadata.tables .converged true, perm, monitored⟩
  have initialized : machine.Reaches _ _ := run_background ⟨.initializing, ready, false, []⟩ rfl readied
  have finished : machine.Reaches _ _ := run_background ⟨.monitoring, rested, false, []⟩ rfl ran
  have loading := Relation.ReflTransGen.tail (.tail (.head called initialized) skipped) started
  exact ⟨last, .tail (loading.trans finished) validated, noted⟩

end Existence

end Spicebench.Commands
