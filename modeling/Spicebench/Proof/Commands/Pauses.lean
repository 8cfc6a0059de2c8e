import Spicebench.Proof.Commands.Background
import Spicebench.Proof.Etl.Advance
import Spicebench.Proof.Etl.Boundary

namespace Spicebench.Commands
open Library Etl

variable {Table Key Data : Type} [DecidableEq Table]

/-- The segment was started with this plan and this budget. -/
structure Underway (start : WorkPlan Table) (stepLimit : Option Nat) (shared : Shared Table Key Data)
    (run : RunTask Table Key Data) : Prop where
  regular : Regular run
  limit : run.stepLimit = stepLimit
  advancing : stepLimit ≠ some 0 → Advancing start shared run
  idling : stepLimit = some 0 → Idling start shared run

namespace Underway

variable {config : EtlConfig Key Data} {start : WorkPlan Table} {stepLimit : Option Nat}
  {shared next : Shared Table Key Data} {run after : RunTask Table Key Data}

theorem spawn (stepLimit : Option Nat) (shared : Shared Table Key Data) :
    Underway shared.work.steps stepLimit shared (.spawn stepLimit) where
  regular := .spawn stepLimit
  limit := rfl
  advancing positive := .spawn positive shared
  idling zero := ⟨zero, rfl, .inl rfl⟩

/-- A step that observes no cancelled token keeps the segment under way. -/
theorem step {action : RunAction Table Key Data} (underway : Underway start stepLimit shared run)
    (calm : ∀ flush, action ≠ .loopHead true flush)
    (stepped : runStep config shared run action = some (next, after)) :
    Underway start stepLimit next after where
  regular := underway.regular.step (runStep_moves stepped)
  limit := (runStep_moves stepped).stepLimit.trans underway.limit
  advancing positive := (underway.advancing positive).step calm stepped
  idling zero := (underway.idling zero).step calm stepped

/-- A segment on a plan with steps has removed one of them exactly when it had a budget. -/
theorem returned (underway : Underway start stepLimit shared run) (nonempty : start.keys ≠ [])
    (ended : run.Returned) : RemovesStep start shared.work.steps ↔ stepLimit ≠ some 0 := by
  obtain ⟨outcome, ended⟩ := ended
  constructor
  · rintro ⟨_, batchId, member, absent⟩ zero
    rw [(underway.idling zero).kept] at absent
    exact absent member
  · intro positive
    rcases (underway.advancing positive).returned ended with removes | ⟨empty, _⟩
    · exact removes
    · exact absurd empty nonempty

/-- A segment with a budget pauses only after it has removed a step. -/
theorem paused (underway : Underway start stepLimit shared run) (positive : stepLimit ≠ some 0)
    (ended : run.phase = .returned .paused) : RemovesStep start shared.work.steps := by
  rcases (underway.advancing positive).returned ended with removes | ⟨_, reason, stopped⟩
  · exact removes
  · simp at stopped

end Underway

/-- The command waits for a segment that was started with this plan and this budget. -/
structure Waiting (metadata : Metadata Table) (args : CheckpointArgs) (start : WorkPlan Table)
    (stepLimit : Option Nat) (command : CheckpointCommand Table Key Data) : Prop where
  phase : command.phase = .waiting
  attended : Attended (Underway start stepLimit) metadata command.pipeline
  stored : command.pipeline.handle ≠ none
  budget : args.version.bootstrap = false → command.pipeline.batchBudget = some args.checkpointIntervalSteps

/-- Nothing of the pipeline moves any more, and it has stopped unless the queries of a pause have failed. -/
structure Ended (command : CheckpointCommand Table Key Data) : Prop where
  idle : command.pipeline.initializing = none
  quiet : ∀ task ∈ command.pipeline.tasks, task.status ≠ .live
  result : ∃ result, command.phase = .finished result ∧
    ((∃ reason, command.pipeline.state = .stopped reason) ∨
      command.pipeline.state = .paused ∧ ∃ message, result = .error message)

/-- The command is on its way to its first segment, waits for a segment, or has finished. -/
inductive Pausing (metadata : Metadata Table) (args : CheckpointArgs)
    (command : CheckpointCommand Table Key Data) : Prop where
  | created (phase : command.phase = .created) (fresh : command.pipeline = .new metadata)
  | initializing (phase : command.phase = .initializing)
      (launching : Launching metadata command.pipeline)
  | waiting (start : WorkPlan Table) (stepLimit : Nat) (waiting : Waiting metadata args start (some stepLimit) command)
      (limited : stepLimit = args.firstBudget ∨ stepLimit = args.checkpointIntervalSteps)
  | ended (ended : Ended command)

section Steps

variable {config : EtlConfig Key Data} {environment : Environment Table Key Data} {metadata : Metadata Table}
  {args : CheckpointArgs} {start : WorkPlan Table} {stepLimit : Option Nat}
  {command next : CheckpointCommand Table Key Data} {pipeline after : ETLPipeline Table Key Data}

/-- A step of the tasks observes no cancelled token, for the command cancels nothing. -/
theorem calm_of_progress {index : Nat} {action : RunAction Table Key Data}
    (progressed : progress config false pipeline (.background index action) = some after) :
    ∀ flush, action ≠ .loopHead true flush := by
  rintro flush rfl
  simp [progress, observesCancel] at progressed

/-- The tasks go on while the command waits for the segment. -/
theorem underway_progress {action : PipelineAction Table Key Data}
    (attended : Attended (Underway start stepLimit) metadata pipeline)
    (admitted : environment.AdmitsPipeline metadata action)
    (progressed : progress config false pipeline action = some after) :
    Attended (Underway start stepLimit) metadata after := by
  obtain ⟨moved, spontaneous, _⟩ := progress_moves progressed admitted
  refine attended.step_live (noCall_of_spontaneous spontaneous) ?_ moved
  rintro index run runAction result rfl _ underway stepped
  exact underway.step (calm_of_progress progressed) stepped

/-- The tasks leave a finished command alone. -/
theorem Ended.rests (ended : Ended command) {action : PipelineAction Table Key Data}
    (admitted : environment.AdmitsPipeline metadata action) :
    progress config false command.pipeline action = none := by
  by_contra possible
  obtain ⟨after, progressed⟩ := Option.ne_none_iff_exists'.mp possible
  obtain ⟨moved, spontaneous, _⟩ := progress_moves progressed admitted
  obtain ⟨task, member, live⟩ := PipelineMove.restless moved spontaneous ended.idle
  exact ended.quiet task member live

/-- A step of the tasks keeps the command waiting for the same segment. -/
theorem Waiting.etl (waiting : Waiting metadata args start stepLimit command)
    {action : PipelineAction Table Key Data} (admitted : environment.AdmitsPipeline metadata action)
    (progressed : progress config false command.pipeline action = some after) :
    Waiting metadata args start stepLimit { command with pipeline := after } ∧
      after.tasks.length = command.pipeline.tasks.length ∧
      pipelineRank config after < pipelineRank config command.pipeline := by
  obtain ⟨moved, spontaneous, _⟩ := progress_moves progressed admitted
  obtain ⟨budget, _, handle, length⟩ := PipelineMove.frame moved spontaneous
  have tidy : Tidy metadata command.pipeline := .inr (waiting.attended.mono fun _ underway => underway.regular)
  refine ⟨⟨waiting.phase, underway_progress waiting.attended admitted progressed, ?_, ?_⟩, length,
    tidy.lowers moved spontaneous⟩
  · rw [handle]
    exact waiting.stored
  · intro plain
    exact budget.trans (waiting.budget plain)

/-- A paused pipeline is resumed with the interval as its budget, on the plan that the last segment has left. -/
theorem resume_waiting (phase : command.phase = .waiting)
    (attended : Attended (Underway start stepLimit) metadata command.pipeline)
    (budget : args.version.bootstrap = false → command.pipeline.batchBudget = some args.checkpointIntervalSteps)
    (paused : command.pipeline.state = .paused) :
    Waiting metadata args command.pipeline.shared.work.steps (some args.checkpointIntervalSteps) (command.resume args) ∧
      command.pipeline.tasks.length < (command.resume args).pipeline.tasks.length := by
  have budgeted : (command.pipeline.setBatchBudget args.checkpointIntervalSteps).state = .paused := paused
  have quiet := (attended.settled (by simp [paused])).2
  have kept : ({ command.pipeline.setBatchBudget args.checkpointIntervalSteps with
      checkpointIdx := command.pipeline.checkpointIdx + 1 }.abortHandle).tasks = command.pipeline.tasks :=
    ETLPipeline.abortHandle_tasks quiet
  rw [command.resume_eq budget paused]
  refine ⟨⟨phase, ?_, ?_, ?_⟩, ?_⟩
  · exact (attended.setBatchBudget _).resume budgeted (.spawn _ _)
  · simp [Attended.perform_continue budgeted, ETLPipeline.spawnRunTask]
  · intro _
    rw [Attended.perform_continue budgeted]
    rfl
  · rw [Attended.perform_continue budgeted]
    simp only [ETLPipeline.spawnRunTask, List.length_append, List.length_singleton]
    exact Nat.lt_succ_of_le (le_of_eq (congrArg List.length kept).symm)

/-- One turn of the loop resumes a pipeline that has paused, or is the last one. -/
theorem Waiting.turn (waiting : Waiting metadata args start stepLimit command) (queries : Except String Unit)
    (waited : pipelineStep config command.pipeline .wait = some after)
    (turned : { command with pipeline := after }.turn args queries = next) :
    (Ended next ∧ next.pipeline.tasks = command.pipeline.tasks ∧ next.pipeline.shared = command.pipeline.shared) ∨
      (∃ run : RunTask Table Key Data, run.phase = .returned .paused ∧
        Underway start stepLimit command.pipeline.shared run) ∧
      Waiting metadata args command.pipeline.shared.work.steps (some args.checkpointIntervalSteps) next ∧
      command.pipeline.tasks.length < next.pipeline.tasks.length := by
  obtain ⟨run, returned, underway⟩ := waiting.attended.waited waiting.stored waited
  have kept := waiting.attended.step (by simp) (by simp) (pipelineStep_moves waited)
  obtain ⟨state, shared, tasks, budget⟩ := wait_frame waited
  have outcome := underway.regular.outcome _ returned
  have still : after.state ≠ .running := by
    rw [state]
    rcases outcome with paused | ⟨reason, stopped⟩
    · simp [paused]
    · simp [stopped]
  have quiet := (kept.settled still).2
  rw [← state] at returned outcome
  subst turned
  rcases outcome with paused | ⟨reason, stopped⟩
  · cases queries with
    | ok value =>
        right
        obtain ⟨resumed, longer⟩ := @resume_waiting _ _ _ _ metadata args start stepLimit
          { command with pipeline := after }.write waiting.phase kept
          (fun plain => budget.trans (waiting.budget plain)) paused
        simp only [CheckpointCommand.turn, paused]
        rw [← shared, ← tasks]
        rw [paused] at returned
        exact ⟨⟨run, returned, shared ▸ underway⟩, resumed, longer⟩
    | error message =>
        left
        simp only [CheckpointCommand.turn, paused]
        exact ⟨⟨kept.idle, quiet, _, rfl, .inr ⟨paused, message, rfl⟩⟩, tasks, shared⟩
  · left
    have finished : ∃ result written, { command with pipeline := after }.turn args queries =
        { command with phase := .finished result, pipeline := after, written } := by
      unfold CheckpointCommand.turn
      simp only [stopped]
      cases reason with
      | completed => cases queries <;> exact ⟨_, _, rfl⟩
      | cancelled => exact ⟨_, _, rfl⟩
      | error message => exact ⟨_, _, rfl⟩
    obtain ⟨result, written, same⟩ := finished
    rw [same]
    exact ⟨⟨kept.idle, quiet, result, rfl, .inl ⟨reason, stopped⟩⟩, tasks, shared⟩

/-- After `initialize` the command starts its first segment, or gives up. -/
theorem first_segment (phase : command.phase = .initializing)
    (launching : Launching metadata command.pipeline)
    {order : List Table} {queries : Except String Unit}
    (stepped : checkpointStep config args command (.proceed order queries) = some next) :
    Ended next ∨ ∃ start, Waiting metadata args start (some args.firstBudget) next := by
  simp only [checkpointStep, phase] at stepped
  cases launching with
  | busy job _ _ busy => simp [busy] at stepped
  | ready job same tasks idle state =>
      simp only [idle, state, Option.isSome_none, Bool.false_eq_true, if_false, Option.some.injEq] at stepped
      subst stepped
      refine .inr ⟨_, rfl, Attended.plan idle same (by simp [tasks]) (.spawn _ _), ?_, ?_⟩
      · simp [perform, ETLPipeline.spawnRunTask]
      · intro plain
        simp [perform, ETLPipeline.spawnRunTask, ETLPipeline.planWork, ETLPipeline.send,
          CheckpointArgs.firstBudget, plain]
  | broken message _ tasks idle state =>
      simp only [idle, state, Option.isSome_none, Bool.false_eq_true, if_false, Option.some.injEq] at stepped
      subst stepped
      exact .inl ⟨idle, by simp [CheckpointCommand.finish, tasks], _, rfl, .inl ⟨_, state⟩⟩

/-- A finished command takes no step. -/
theorem Ended.stuck (ended : Ended command) :
    (checkpointMachine config environment metadata args).Stuck command := by
  rintro next ⟨action, admitted, stepped⟩
  cases action with
  | etl action => simp [checkpointMachine, checkpointStep, ended.rests admitted] at stepped
  | proceed order queries =>
      obtain ⟨result, phase, _⟩ := ended.result
      simp [checkpointMachine, checkpointStep, phase] at stepped

/-- While the command waits, the tasks take a step, or the command ends, or it starts the next segment. -/
theorem Waiting.step (waiting : Waiting metadata args start stepLimit command)
    (stepped : (checkpointMachine config environment metadata args).Step command next) :
    (Waiting metadata args start stepLimit next ∧
      next.pipeline.tasks.length = command.pipeline.tasks.length ∧
      pipelineRank config next.pipeline < pipelineRank config command.pipeline) ∨
    (Ended next ∧ next.pipeline.tasks = command.pipeline.tasks ∧ next.pipeline.shared = command.pipeline.shared) ∨
    (∃ run : RunTask Table Key Data, run.phase = .returned .paused ∧
      Underway start stepLimit command.pipeline.shared run) ∧
    Waiting metadata args command.pipeline.shared.work.steps (some args.checkpointIntervalSteps) next ∧
    command.pipeline.tasks.length < next.pipeline.tasks.length := by
  obtain ⟨action, admitted, stepped⟩ := stepped
  cases action with
  | etl action =>
      obtain ⟨after, progressed, rfl⟩ := Option.map_eq_some_iff.mp stepped
      exact .inl (waiting.etl admitted progressed)
  | proceed order queries =>
      simp only [checkpointMachine, checkpointStep, waiting.phase, Option.map_eq_some_iff] at stepped
      obtain ⟨after, waited, rfl⟩ := stepped
      refine .inr (waiting.turn queries waited ?_)
      rw [waiting.phase]

/-- `initialize` goes on, or the command starts its first segment or ends. -/
theorem initializing_step (phase : command.phase = .initializing)
    (launching : Launching metadata command.pipeline)
    (stepped : (checkpointMachine config environment metadata args).Step command next) :
    (next.phase = .initializing ∧ Launching metadata next.pipeline ∧
      pipelineRank config next.pipeline < pipelineRank config command.pipeline) ∨
    Ended next ∨ ∃ start, Waiting metadata args start (some args.firstBudget) next := by
  obtain ⟨action, admitted, stepped⟩ := stepped
  cases action with
  | etl action =>
      obtain ⟨after, progressed, rfl⟩ := Option.map_eq_some_iff.mp stepped
      obtain ⟨moved, spontaneous, _⟩ := progress_moves progressed admitted
      have tidy : Tidy metadata command.pipeline := .inl launching
      refine .inl ⟨phase, ?_, tidy.lowers moved spontaneous⟩
      exact launching.step moved spontaneous admitted
  | proceed order queries => exact .inr (first_segment phase launching stepped)

/-- The first step of the command starts `initialize`. -/
theorem created_step (phase : command.phase = .created) (fresh : command.pipeline = .new metadata)
    (stepped : (checkpointMachine config environment metadata args).Step command next) :
    next.phase = .initializing ∧ Launching metadata next.pipeline := by
  obtain ⟨action, admitted, stepped⟩ := stepped
  cases action with
  | etl action =>
      obtain ⟨after, progressed, rfl⟩ := Option.map_eq_some_iff.mp stepped
      obtain ⟨moved, spontaneous, _⟩ := progress_moves progressed admitted
      rw [fresh] at moved
      obtain ⟨task, member, _⟩ := PipelineMove.restless moved spontaneous rfl
      simp [ETLPipeline.new] at member
  | proceed order queries =>
      simp only [checkpointMachine, checkpointStep, phase, fresh, Option.some.injEq] at stepped
      subst stepped
      exact ⟨rfl, .busy (ETLPipeline.initJob metadata order) rfl rfl rfl rfl (Starting.start admitted)⟩

/-- Every step leads to the same or a later part of the command. -/
theorem Pausing.step (pausing : Pausing metadata args command)
    (stepped : (checkpointMachine config environment metadata args).Step command next) :
    Pausing metadata args next := by
  cases pausing with
  | created phase fresh =>
      obtain ⟨initializing, launching⟩ := created_step phase fresh stepped
      exact .initializing initializing launching
  | initializing phase launching =>
      rcases initializing_step phase launching stepped with ⟨phase, launching, _⟩ | ended | ⟨start, waiting⟩
      · exact .initializing phase launching
      · exact .ended ended
      · exact .waiting start _ waiting (.inl rfl)
  | waiting start stepLimit waiting limited =>
      rcases waiting.step stepped with ⟨still, _, _⟩ | ⟨ended, _⟩ | ⟨_, resumed, _⟩
      · exact .waiting start stepLimit still limited
      · exact .ended ended
      · exact .waiting _ _ resumed (.inr rfl)
  | ended ended => exact absurd stepped (ended.stuck next)

theorem Pausing.reached
    (path : (checkpointMachine config environment metadata args).Reaches (.new metadata) command) :
    Pausing metadata args command :=
  path.invariant (Pausing metadata args) (fun _ _ pausing stepped => pausing.step stepped) (.created rfl rfl)

/-- The command ends after finitely many steps from any segment with a budget. -/
theorem Waiting.terminates (positive : 1 ≤ args.checkpointIntervalSteps)
    (waiting : Waiting metadata args start stepLimit command) (budget : stepLimit ≠ some 0) :
    (checkpointMachine config environment metadata args).Terminates command := by
  -- Each segment leaves fewer steps to the next one, and lowers the rank of its pipeline meanwhile.
  induction count : start.keys.length using Nat.strong_induction_on generalizing start stepLimit command with
  | _ count fewer =>
      induction rank : pipelineRank config command.pipeline using WellFoundedLT.induction generalizing command with
      | _ rank lower =>
          refine ⟨_, fun next stepped => ?_⟩
          rcases waiting.step stepped with ⟨still, _, less⟩ | ⟨ended, _⟩ | ⟨⟨run, paused, underway⟩, resumed, _⟩
          · exact lower _ (rank ▸ less) still rfl
          · exact ⟨_, fun later impossible => absurd impossible (ended.stuck later)⟩
          · have removes := (underway.paused budget paused).length_lt
            exact fewer _ (count ▸ removes) resumed (by simp; omega) rfl

/-- With a positive interval the command ends after finitely many steps, whatever happens. -/
theorem checkpoint_terminates (config : EtlConfig Key Data) (environment : Environment Table Key Data)
    (metadata : Metadata Table) (positive : 1 ≤ args.checkpointIntervalSteps) :
    (checkpointMachine config environment metadata args).Terminates (.new metadata) := by
  have begins : ∀ command : CheckpointCommand Table Key Data, command.phase = .initializing →
      Launching metadata command.pipeline →
      (checkpointMachine config environment metadata args).Terminates command := by
    intro command phase launching
    induction rank : pipelineRank config command.pipeline using WellFoundedLT.induction generalizing command with
    | _ rank lower =>
        refine ⟨_, fun next stepped => ?_⟩
        rcases initializing_step phase launching stepped with ⟨phase, launching, less⟩ | ended | ⟨start, waiting⟩
        · exact lower _ (rank ▸ less) next phase launching rfl
        · exact ⟨_, fun later impossible => absurd impossible (ended.stuck later)⟩
        · exact waiting.terminates positive (by simpa using CheckpointArgs.firstBudget_positive positive)
  refine ⟨_, fun next stepped => ?_⟩
  obtain ⟨phase, launching⟩ := created_step rfl rfl stepped
  exact begins next phase launching

/-- When every read completes, a command that can take no step has finished. -/
theorem Pausing.ended_of_stuck (pausing : Pausing metadata args command)
    (answers : ∀ table batchId, ∃ outcome, environment.reads table batchId outcome)
    (stuck : (checkpointMachine config environment metadata args).Stuck command) : Ended command := by
  have perm := List.Perm.refl metadata.tables
  have blocked : checkpointStep config args command (.proceed metadata.tables (.ok ())) = none := by
    by_contra possible
    obtain ⟨next, stepped⟩ := Option.ne_none_iff_exists'.mp possible
    exact stuck next ⟨.proceed metadata.tables (.ok ()), perm, stepped⟩
  have still : (backgroundMachine config environment metadata false).Stuck command.pipeline := by
    rintro after ⟨action, admitted, stepped⟩
    have progressed : progress config false command.pipeline action = some after := stepped
    exact stuck { command with pipeline := after }
      ⟨.etl action, admitted, by simp [checkpointMachine, checkpointStep, progressed]⟩
  have answered : Answered environment command.pipeline :=
    ⟨fun _ _ table _ batchId _ => answers table batchId, fun _ _ table batchId _ => answers table batchId⟩
  cases pausing with
  | created phase fresh => simp [checkpointStep, phase] at blocked
  | initializing phase launching =>
      have tidy : Tidy metadata command.pipeline := .inl launching
      obtain ⟨idle, _⟩ := tidy.rest answered still
      exfalso
      cases launching with
      | busy job _ _ busy => simp [idle] at busy
      | ready _ _ _ _ state => simp [checkpointStep, phase, idle, state] at blocked
      | broken _ _ _ _ state => simp [checkpointStep, phase, idle, state] at blocked
  | waiting start stepLimit waiting limited =>
      have tidy : Tidy metadata command.pipeline :=
        .inr (waiting.attended.mono fun _ underway => underway.regular)
      obtain ⟨_, notRunning⟩ := tidy.rest answered still
      obtain ⟨after, waits⟩ := waiting.attended.wait_returns config notRunning
      simp [checkpointStep, waiting.phase, waits] at blocked
  | ended ended => exact ended

end Steps

/-- The last task of the pipeline is a segment with this budget that was just spawned. -/
def Starts (command : CheckpointCommand Table Key Data) (stepLimit : Option Nat) : Prop :=
  command.pipeline.tasks.getLast? = some ⟨.spawn stepLimit, .live⟩

/-- The last segment of the one command has returned in the other one, before another segment was started. -/
def Returns (before after : CheckpointCommand Table Key Data) : Prop :=
  after.pipeline.tasks.length = before.pipeline.tasks.length ∧
    ∃ run status, after.pipeline.tasks.getLast? = some ⟨run, status⟩ ∧ run.Returned

/-- The last task of the pipeline was started with this plan and this budget. -/
def Recent (start : WorkPlan Table) (stepLimit : Option Nat) (command : CheckpointCommand Table Key Data) : Prop :=
  ∃ run status, command.pipeline.tasks.getLast? = some ⟨run, status⟩ ∧
    Underway start stepLimit command.pipeline.shared run

section Segments

variable {config : EtlConfig Key Data} {environment : Environment Table Key Data} {metadata : Metadata Table}
  {args : CheckpointArgs} {start : WorkPlan Table} {stepLimit : Option Nat}
  {command next : CheckpointCommand Table Key Data}

theorem Waiting.recent (waiting : Waiting metadata args start stepLimit command) : Recent start stepLimit command := by
  obtain ⟨earlier, run, status, tasks, _, underway, _⟩ := waiting.attended.task
  exact ⟨run, status, by simp [tasks], underway⟩

/-- The command waits for a segment that it has just started, on the plan as it is. -/
theorem Pausing.starts (pausing : Pausing metadata args command) (starts : Starts command stepLimit) :
    Waiting metadata args command.pipeline.shared.work.steps stepLimit command ∧
      (stepLimit = some args.firstBudget ∨ stepLimit = some args.checkpointIntervalSteps) := by
  unfold Starts at starts
  cases pausing with
  | created _ fresh => simp [fresh, ETLPipeline.new] at starts
  | initializing _ launching => simp [launching.tasks_nil] at starts
  | ended ended => exact absurd rfl (ended.quiet _ (List.mem_of_getLast? starts))
  | waiting start limit waiting limited =>
      obtain ⟨earlier, run, status, tasks, settled, underway, state⟩ := waiting.attended.task
      obtain ⟨rfl, rfl⟩ : run = .spawn stepLimit ∧ status = .live := by simpa [tasks] using starts
      have same : stepLimit = some limit := underway.limit
      refine ⟨⟨waiting.phase, ?_, waiting.stored, waiting.budget⟩, ?_⟩
      · exact ⟨waiting.attended.idle, waiting.attended.metadata, waiting.attended.handle, earlier, _, _, tasks,
          settled, .spawn _ _, state⟩
      · rw [same]
        exact limited.imp (congrArg some) (congrArg some)

/-- No step takes a task away. -/
theorem Pausing.length_le (pausing : Pausing metadata args command)
    (stepped : (checkpointMachine config environment metadata args).Step command next) :
    command.pipeline.tasks.length ≤ next.pipeline.tasks.length := by
  cases pausing with
  | created _ fresh => simp [fresh, ETLPipeline.new]
  | initializing _ launching => simp [launching.tasks_nil]
  | ended ended => exact absurd stepped (ended.stuck next)
  | waiting start limit waiting limited =>
      rcases waiting.step stepped with ⟨_, same, _⟩ | ⟨_, same, _⟩ | ⟨_, _, longer⟩
      · exact le_of_eq same.symm
      · rw [same]
      · exact le_of_lt longer

/-- Until another segment is started, the last task stays the one that the command has started. -/
theorem recent_of_reaches {before after : CheckpointCommand Table Key Data} (pausing : Pausing metadata args before)
    (starts : Starts before stepLimit)
    (path : (checkpointMachine config environment metadata args).Reaches before after)
    (same : after.pipeline.tasks.length = before.pipeline.tasks.length) :
    Recent before.pipeline.shared.work.steps stepLimit after := by
  have kept := path.invariant (fun command => Pausing metadata args command ∧
    (before.pipeline.tasks.length < command.pipeline.tasks.length ∨
      command.pipeline.tasks.length = before.pipeline.tasks.length ∧
      (Waiting metadata args before.pipeline.shared.work.steps stepLimit command ∨
        Ended command ∧ Recent before.pipeline.shared.work.steps stepLimit command))) ?_
    ⟨pausing, .inr ⟨rfl, .inl (pausing.starts starts).1⟩⟩
  · rcases kept with ⟨_, longer | ⟨_, waiting | ⟨_, recent⟩⟩⟩
    · omega
    · exact waiting.recent
    · exact recent
  · rintro command next ⟨pausing, stage⟩ stepped
    refine ⟨pausing.step stepped, ?_⟩
    rcases stage with longer | ⟨length, waiting | ⟨ended, _⟩⟩
    · exact .inl (longer.trans_le (pausing.length_le stepped))
    · rcases waiting.step stepped with ⟨still, same, _⟩ | ⟨ended, tasks, shared⟩ | ⟨_, _, longer⟩
      · exact .inr ⟨same.trans length, .inl still⟩
      · refine .inr ⟨by rw [tasks, length], .inr ⟨ended, ?_⟩⟩
        obtain ⟨run, status, last, underway⟩ := waiting.recent
        exact ⟨run, status, by rw [tasks, last], by rw [shared]; exact underway⟩
      · exact .inl (length ▸ longer)
    · exact absurd stepped (ended.stuck next)

end Segments

/-- Every segment that the checkpoint command starts on a plan with steps removes one of them exactly when its budget
is positive. With a positive interval every segment has such a budget and the command ends after finitely many steps:
its pipeline has stopped, unless the queries of a pause have failed. -/
theorem checkpointed_segments_progress (config : EtlConfig Key Data) (environment : Environment Table Key Data)
    (metadata : Metadata Table) (args : CheckpointArgs) :
    (∀ before after stepLimit,
      (checkpointMachine config environment metadata args).Reaches (.new metadata) before →
      Starts before stepLimit → before.pipeline.shared.work.steps.keys ≠ [] →
      (checkpointMachine config environment metadata args).Reaches before after → Returns before after →
      (RemovesStep before.pipeline.shared.work.steps after.pipeline.shared.work.steps ↔ stepLimit ≠ some 0)) ∧
    (1 ≤ args.checkpointIntervalSteps →
      (∀ command stepLimit, (checkpointMachine config environment metadata args).Reaches (.new metadata) command →
        Starts command stepLimit → stepLimit ≠ some 0) ∧
      (checkpointMachine config environment metadata args).Terminates (.new metadata) ∧
      ((∀ table batchId, ∃ outcome, environment.reads table batchId outcome) →
        ∀ command, (checkpointMachine config environment metadata args).Reaches (.new metadata) command →
          (checkpointMachine config environment metadata args).Stuck command →
          ∃ result, command.phase = .finished result ∧
            ((∃ reason, command.pipeline.state = .stopped reason) ∨
              command.pipeline.state = .paused ∧ ∃ message, result = .error message))) := by
  constructor
  · rintro before after stepLimit path starts nonempty later ⟨same, run, status, last, ended⟩
    obtain ⟨other, _, found, underway⟩ := recent_of_reaches (.reached path) starts later same
    obtain ⟨rfl, _⟩ : other = run ∧ _ := by simpa [last, eq_comm] using found
    exact underway.returned nonempty ended
  · intro positive
    refine ⟨?_, checkpoint_terminates config environment metadata positive, ?_⟩
    · intro command stepLimit path starts
      have first := CheckpointArgs.firstBudget_positive positive
      rcases (Pausing.starts (.reached path) starts).2 with rfl | rfl
      · simpa using first
      · simp
        omega
    · intro answers command path stuck
      exact (Pausing.ended_of_stuck (.reached path) answers stuck).result

/-- This budget belongs to the segment that the command has just started. -/
def startedBudget (command : CheckpointCommand Table Key Data) : Option (Option Nat) :=
  match command.pipeline.tasks.getLast? with
  | some ⟨⟨stepLimit, none, .starting⟩, .live⟩ => some stepLimit
  | _ => none

/-- The last segment has returned this state. -/
def returnedState (command : CheckpointCommand Table Key Data) : Option PipelineState :=
  match command.pipeline.tasks.getLast? with
  | some ⟨⟨_, _, .returned outcome⟩, _⟩ => some outcome
  | _ => none

omit [DecidableEq Table] in
theorem starts_of_startedBudget {command : CheckpointCommand Table Key Data} {stepLimit : Option Nat}
    (started : startedBudget command = some stepLimit) : Starts command stepLimit := by
  unfold startedBudget at started
  split at started
  · rename_i limit last
    rw [← Option.some.inj started]
    exact last
  · simp at started

omit [DecidableEq Table] in
theorem returns_of_returnedState {before after : CheckpointCommand Table Key Data} {outcome : PipelineState}
    (same : after.pipeline.tasks.length = before.pipeline.tasks.length) (ended : returnedState after = some outcome) :
    Returns before after := by
  unfold returnedState at ended
  split at ended
  · rename_i last
    exact ⟨same, _, _, last, _, rfl⟩
  · simp at ended

/-- The command has initialized its pipeline and starts its first segment. -/
def startActions : List (CheckpointAction Unit Nat Unit) :=
  [.proceed [()] (.ok ()), .etl (.initTask () (.firstRead 0 (sampleRead 0))), .etl (.initTask () .nextBatch),
    .etl (.initTask () .nextSegment), .etl (.initTask () (.writeChunk 0 (.ok ()))), .etl (.initTask () .finish),
    .etl (.initCollect ()), .etl (.initDone (.ok ())), .proceed [()] (.ok ())]

/-- The segment delivers one batch and pauses. -/
def segmentActions : List (CheckpointAction Unit Nat Unit) :=
  [.etl (.background 0 .start), .etl (.background 0 (.loopHead false (.ok ()))),
    .etl (.background 0 (.task () .reserve)), .etl (.background 0 (.task () (.join 1 (sampleRead 1)))),
    .etl (.background 0 (.task () .nextBatch)), .etl (.background 0 (.task () .nextSegment)),
    .etl (.background 0 (.task () (.writeChunk 0 (.ok ())))), .etl (.background 0 (.task () .finish)),
    .etl (.background 0 (.collect ())), .etl (.background 0 .stepDone),
    .etl (.background 0 (.loopHead false (.ok ()))), .etl (.publish 0)]

/-- The segment finds that it has no budget and pauses. -/
def idleActions : List (CheckpointAction Unit Nat Unit) :=
  [.etl (.background 0 .start), .etl (.background 0 (.loopHead false (.ok ()))), .etl (.publish 0)]

/-- One step remains when the command starts its first segment. -/
theorem exists_started (args : CheckpointArgs) (budget : Nat)
    (started : ((checkpointMachine sampleConfig sampleEnvironment sampleMetadata args).run (.new sampleMetadata)
      startActions).map (fun command => (startedBudget command, command.pipeline.shared.work.steps.keys,
        command.pipeline.tasks.length)) = some (some (some budget), [1], 1)) :
    ∃ before : CheckpointCommand Unit Nat Unit,
      (checkpointMachine sampleConfig sampleEnvironment sampleMetadata args).run (.new sampleMetadata) startActions =
        some before ∧
      (checkpointMachine sampleConfig sampleEnvironment sampleMetadata args).Reaches (.new sampleMetadata) before ∧
      Starts before (some budget) ∧ before.pipeline.shared.work.steps.keys = [1] ∧
      before.pipeline.tasks.length = 1 := by
  obtain ⟨before, ran, same⟩ := Option.map_eq_some_iff.mp started
  obtain ⟨starts, keys, one⟩ : _ ∧ _ ∧ _ := by simpa using same
  refine ⟨before, ran, Machine.reaches_of_run _ ?_ ran, starts_of_startedBudget starts, keys, one⟩
  simp [startActions, checkpointMachine, Environment.AdmitsPipeline, Environment.AdmitsTask, Environment.AdmitsFlush,
    sampleMetadata, sampleEnvironment, sampleRead]

/-- With an interval of one step the first segment removes the step that remains, and the command ends. -/
theorem checkpointed_segments_progress_sample :
    (∃ before after : CheckpointCommand Unit Nat Unit,
      (checkpointMachine sampleConfig sampleEnvironment sampleMetadata ⟨⟨1, false⟩, 1⟩).Reaches (.new sampleMetadata)
        before ∧
      Starts before (some 1) ∧
      (checkpointMachine sampleConfig sampleEnvironment sampleMetadata ⟨⟨1, false⟩, 1⟩).Reaches before after ∧
      Returns before after ∧ RemovesStep before.pipeline.shared.work.steps after.pipeline.shared.work.steps) ∧
    (checkpointMachine sampleConfig sampleEnvironment sampleMetadata ⟨⟨1, false⟩, 1⟩).Terminates
      (.new sampleMetadata) := by
  obtain ⟨segments, ends⟩ :=
    checkpointed_segments_progress sampleConfig sampleEnvironment sampleMetadata ⟨⟨1, false⟩, 1⟩
  refine ⟨?_, (ends (by decide)).2.1⟩
  obtain ⟨before, ran, path, starts, keys, one⟩ := exists_started ⟨⟨1, false⟩, 1⟩ 1 (by decide)
  have whole : ((checkpointMachine sampleConfig sampleEnvironment sampleMetadata ⟨⟨1, false⟩, 1⟩).run
      (.new sampleMetadata) (startActions ++ segmentActions)).map (fun command =>
        (returnedState command, command.pipeline.tasks.length)) = some (some .paused, 1) := by
    decide
  rw [Machine.run_append, ran, Option.bind_some] at whole
  obtain ⟨after, later, same⟩ := Option.map_eq_some_iff.mp whole
  obtain ⟨ended, length⟩ := Prod.mk.inj same
  have returns : Returns before after := returns_of_returnedState (length.trans one.symm) ended
  have reached := Machine.reaches_of_run _ (by
    simp [segmentActions, checkpointMachine, Environment.AdmitsPipeline, Environment.AdmitsRun,
      Environment.AdmitsTask, Environment.AdmitsFlush, sampleEnvironment, sampleRead]) later
  exact ⟨before, after, path, starts, reached, returns,
    (segments before after _ path starts (by simp [keys]) reached returns).mpr (by simp)⟩

/-- The current segment has not failed to pause. -/
def Spinning (pipeline : ETLPipeline Table Key Data) : Prop :=
  ∃ run status, pipeline.tasks.getLast? = some ⟨run, status⟩ ∧
    (run.phase = .starting ∨ run.phase = .loopHead 0 ∨ run.phase = .returned .paused)

section Spinning

variable {config : EtlConfig Key Data} {environment : Environment Table Key Data} {metadata : Metadata Table}
  {args : CheckpointArgs} {start : WorkPlan Table} {command : CheckpointCommand Table Key Data}

/-- A step of the current segment, when it is possible, is a step of the command. -/
theorem Waiting.background (waiting : Waiting metadata args start (some 0) command)
    {earlier : List (Background Table Key Data)} {run after : RunTask Table Key Data} {action : RunAction Table Key Data}
    (tasks : command.pipeline.tasks = earlier ++ [⟨run, .live⟩]) (admitted : environment.AdmitsRun action)
    (calm : observesCancel (.background earlier.length action : PipelineAction Table Key Data) = false)
    (stepped : runStep config command.pipeline.shared run action = some (command.pipeline.shared, after))
    (spinning : after.phase = .loopHead 0 ∨ after.phase = .returned .paused) :
    ∃ next, (checkpointMachine config environment metadata args).Step command next ∧
      Waiting metadata args start (some 0) next ∧ Spinning next.pipeline := by
  have found : command.pipeline.tasks[earlier.length]? = some ⟨run, .live⟩ := by simp [tasks]
  have admits : environment.AdmitsPipeline metadata (.background earlier.length action) := admitted
  have progressed : progress config false command.pipeline (.background earlier.length action) =
      some { command.pipeline with tasks := command.pipeline.tasks.set earlier.length ⟨after, .live⟩ } := by
    simp [progress, isSpontaneous, calm, pipelineStep, waiting.attended.idle, found, stepped]
  refine ⟨_, ⟨.etl (.background earlier.length action), admits, ?_⟩, (waiting.etl admits progressed).1, after, .live,
    ?_, .inr spinning⟩
  · simp [checkpointMachine, checkpointStep, progressed]
  · simp [tasks]

/-- Without a budget the command can always go on to another pause. -/
theorem Waiting.spins (zero : args.checkpointIntervalSteps = 0)
    (waiting : Waiting metadata args start (some 0) command) (spinning : Spinning command.pipeline) :
    ∃ next, (checkpointMachine config environment metadata args).Step command next ∧
      (∃ later, Waiting metadata args later (some 0) next) ∧ Spinning next.pipeline := by
  obtain ⟨run, status, last, stage⟩ := spinning
  obtain ⟨earlier, other, _, tasks, _, underway, state⟩ := waiting.attended.task
  obtain ⟨rfl, rfl⟩ : other = run ∧ _ = status := by simpa [tasks] using last
  rcases state with ⟨rfl, running⟩ | ⟨published, returned⟩
  · rcases stage with starting | head | ended
    · obtain ⟨next, stepped, still, spinning⟩ := @Waiting.background _ _ _ _ config environment _ _ _ _ waiting
        earlier other _ .start tasks trivial rfl (by simp [runStep, starting]; rfl) (.inl rfl)
      exact ⟨next, stepped, ⟨start, still⟩, spinning⟩
    · have budget := underway.limit
      obtain ⟨next, stepped, still, spinning⟩ := @Waiting.background _ _ _ _ config environment _ _ _ _ waiting
        earlier other _ (.loopHead false (.ok ())) tasks ⟨by simp, trivial⟩ rfl
        (by simp [runStep, head, loopHeadStep, budget]; rfl) (.inr rfl)
      exact ⟨next, stepped, ⟨start, still⟩, spinning⟩
    · have found : command.pipeline.tasks[earlier.length]? = some ⟨other, .live⟩ := by simp [tasks]
      have progressed : progress config false command.pipeline (.publish earlier.length) =
          some { command.pipeline.send .paused with
            tasks := command.pipeline.tasks.set earlier.length ⟨other, .published⟩ } := by
        obtain ⟨limit, boundary, phase⟩ := other
        obtain rfl : phase = .returned .paused := ended
        simp [progress, isSpontaneous, observesCancel, pipelineStep, waiting.attended.idle, found]
      have admits : environment.AdmitsPipeline metadata (.publish earlier.length) := trivial
      refine ⟨_, ⟨.etl (.publish earlier.length), admits, ?_⟩, ⟨start, (waiting.etl admits progressed).1⟩, other,
        .published, ?_, .inr (.inr ended)⟩
      · simp [checkpointMachine, checkpointStep, progressed]
      · simp [tasks]
  · have paused : command.pipeline.state = .paused := by
      rcases stage with starting | head | ended
      · simp [starting] at returned
      · simp [head] at returned
      · rw [ended] at returned
        exact (Phase.returned.inj returned).symm
    obtain ⟨after, waits⟩ := waiting.attended.wait_returns config (by simp [paused])
    obtain ⟨state, _, _, budget⟩ := wait_frame waits
    have kept := waiting.attended.step (by simp) (by simp) (pipelineStep_moves waits)
    have pausedAfter : after.state = .paused := state.trans paused
    have limit : args.version.bootstrap = false → after.batchBudget = some args.checkpointIntervalSteps :=
      fun plain => budget.trans (waiting.budget plain)
    obtain ⟨resumed, _⟩ := @resume_waiting _ _ _ _ metadata args start (some 0)
      { command with pipeline := after }.write waiting.phase kept limit pausedAfter
    have budgeted : (after.setBatchBudget args.checkpointIntervalSteps).state = .paused := pausedAfter
    refine ⟨_, ⟨.proceed metadata.tables (.ok ()), List.Perm.refl _, ?_⟩, ⟨_, zero ▸ resumed⟩, ?_⟩
    · simp [checkpointMachine, checkpointStep, waiting.phase, waits, CheckpointCommand.turn, pausedAfter]
    · refine ⟨.spawn (some args.checkpointIntervalSteps), .live, ?_, .inl rfl⟩
      rw [CheckpointCommand.resume_eq _ limit pausedAfter]
      simp only [CheckpointCommand.write, Attended.perform_continue budgeted, ETLPipeline.spawnRunTask,
        List.getLast?_append, List.getLast?_singleton, Option.some_or]
      rfl

/-- A command that waits for a segment without a budget can pause forever. -/
theorem Waiting.not_terminates (zero : args.checkpointIntervalSteps = 0)
    (waiting : Waiting metadata args start (some 0) command) (spinning : Spinning command.pipeline) :
    ¬ (checkpointMachine config environment metadata args).Terminates command := by
  intro terminates
  induction terminates generalizing start with
  | intro command _ ih =>
      obtain ⟨next, stepped, ⟨later, still⟩, spins⟩ := waiting.spins zero spinning
      exact ih next stepped still spins

end Spinning

/-- With an interval of zero the first segment pauses without removing the step that remains, and the command can go on
to pause forever. -/
theorem zero_interval_pauses_forever :
    (∃ before after : CheckpointCommand Unit Nat Unit,
      (checkpointMachine sampleConfig sampleEnvironment sampleMetadata ⟨⟨1, false⟩, 0⟩).Reaches (.new sampleMetadata)
        before ∧
      Starts before (some 0) ∧ before.pipeline.shared.work.steps.keys = [1] ∧
      (checkpointMachine sampleConfig sampleEnvironment sampleMetadata ⟨⟨1, false⟩, 0⟩).Reaches before after ∧
      Returns before after ∧ after.pipeline.shared.work.steps.keys = [1]) ∧
    ¬ (checkpointMachine sampleConfig sampleEnvironment sampleMetadata ⟨⟨1, false⟩, 0⟩).Terminates
      (.new sampleMetadata) := by
  obtain ⟨before, ran, path, starts, keys, one⟩ := exists_started ⟨⟨1, false⟩, 0⟩ 0 (by decide)
  constructor
  · have whole : ((checkpointMachine sampleConfig sampleEnvironment sampleMetadata ⟨⟨1, false⟩, 0⟩).run
        (.new sampleMetadata) (startActions ++ idleActions)).map (fun command =>
          (returnedState command, command.pipeline.tasks.length, command.pipeline.shared.work.steps.keys)) =
        some (some .paused, 1, [1]) := by
      decide
    rw [Machine.run_append, ran, Option.bind_some] at whole
    obtain ⟨after, later, same⟩ := Option.map_eq_some_iff.mp whole
    obtain ⟨ended, length, left⟩ : _ ∧ _ ∧ _ := by simpa using same
    have reached := Machine.reaches_of_run _ (by
      simp [idleActions, checkpointMachine, Environment.AdmitsPipeline, Environment.AdmitsRun,
        Environment.AdmitsFlush]) later
    exact ⟨before, after, path, starts, keys, reached,
      returns_of_returnedState (length.trans one.symm) ended, left⟩
  · intro terminates
    have waiting := (Pausing.starts (.reached path) starts).1
    exact waiting.not_terminates rfl ⟨_, _, starts, .inl rfl⟩ (terminates.reached path)

end Spicebench.Commands
