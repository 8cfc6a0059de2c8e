import Spicebench.Construction.Commands.Checkpoint
import Spicebench.Proof.Etl.Attended
import Spicebench.Proof.Etl.Failing
import Spicebench.Proof.Etl.Lifecycle
import Spicebench.Proof.Etl.Preparing
import Spicebench.Proof.Etl.Progress

namespace Spicebench.Commands
open Library Etl

variable {Table Key Data : Type} [DecidableEq Table]

/-- The token is cancelled only by the command. -/
def cancelling (environment : Environment Table Key Data) (cancelled : Bool) : Environment Table Key Data :=
  { environment with cancels := cancelled = true }

/-- The tasks of a pipeline as a machine of their own. -/
def backgroundMachine (config : EtlConfig Key Data) (environment : Environment Table Key Data)
    (metadata : Metadata Table) (cancelled : Bool) :
    Machine (ETLPipeline Table Key Data) (PipelineAction Table Key Data) where
  step := progress config cancelled
  admits := environment.AdmitsPipeline metadata

section Steps

variable {config : EtlConfig Key Data} {environment : Environment Table Key Data} {metadata : Metadata Table}
  {cancelled : Bool} {pipeline next : ETLPipeline Table Key Data} {action : PipelineAction Table Key Data}

/-- A step of the tasks is a move of the pipeline and no call, and cancels only after the command did. -/
theorem progress_moves (stepped : progress config cancelled pipeline action = some next)
    (admitted : environment.AdmitsPipeline metadata action) :
    PipelineMove config pipeline next action ∧ isSpontaneous action = true ∧
      (cancelling environment cancelled).AdmitsPipeline metadata action := by
  unfold progress at stepped
  split_ifs at stepped with allowed
  simp only [Bool.and_eq_true, Bool.or_eq_true, Bool.not_eq_true'] at allowed
  obtain ⟨spontaneous, calm⟩ := allowed
  refine ⟨pipelineStep_moves stepped, spontaneous, ?_⟩
  cases action with
  | background index runAction =>
      cases runAction with
      | loopHead observed flush =>
          refine ⟨?_, admitted.2⟩
          intro seen
          rcases calm with cancelled | unobserved
          · exact cancelled
          · simp [observesCancel, seen] at unobserved
      | cancel =>
          rcases calm with cancelled | unobserved
          · exact cancelled
          · simp [observesCancel] at unobserved
      | start => trivial
      | task table taskAction => exact admitted
      | collect table => trivial
      | stepDone => trivial
  | call call => simp [isSpontaneous] at spontaneous
  | initTask table taskAction => exact admitted
  | initCollect table => trivial
  | initDone flush => exact admitted
  | wait => trivial
  | setBatchBudget steps => trivial
  | publish index => trivial

omit [DecidableEq Table] in
theorem noCall_of_spontaneous (spontaneous : isSpontaneous action = true) :
    ∀ call, action ≠ .call call := by
  rintro call rfl
  simp [isSpontaneous] at spontaneous

/-- The tasks leave alone what belongs to the command. -/
theorem PipelineMove.frame (moved : PipelineMove config pipeline next action)
    (spontaneous : isSpontaneous action = true) :
    next.batchBudget = pipeline.batchBudget ∧ next.checkpointIdx = pipeline.checkpointIdx ∧
      next.handle = pipeline.handle ∧ next.tasks.length = pipeline.tasks.length := by
  cases moved with
  | call => simp [isSpontaneous] at spontaneous
  | wait => simp [isSpontaneous] at spontaneous
  | setBatchBudget => simp [isSpontaneous] at spontaneous
  | initTask _ _ _ _ _ _ _ _ same => simp [same]
  | initCollect _ _ _ _ _ _ same => simp [same]
  | initFail _ _ _ _ _ _ same => simp [same, ETLPipeline.send]
  | initDone _ _ _ same => simp [same, ETLPipeline.send]
  | initFlushFail _ _ _ _ _ same => simp [same, ETLPipeline.send]
  | background _ _ _ _ _ _ _ _ same => simp [same]
  | publish _ _ _ _ _ _ same => simp [same, ETLPipeline.send]

/-- `wait` takes nothing but the stored handle. -/
theorem wait_frame (waited : pipelineStep config pipeline .wait = some next) :
    next.state = pipeline.state ∧ next.shared = pipeline.shared ∧ next.tasks = pipeline.tasks ∧
      next.batchBudget = pipeline.batchBudget := by
  cases pipelineStep_moves waited with
  | wait _ same =>
      rcases same with rfl | rfl
      · simp
      · simp

/-- Nothing moves on its own once `initialize` is over and no task is live. -/
theorem PipelineMove.restless (moved : PipelineMove config pipeline next action)
    (spontaneous : isSpontaneous action = true) (idle : pipeline.initializing = none) :
    ∃ task ∈ pipeline.tasks, task.status = .live := by
  cases moved with
  | call => simp [isSpontaneous] at spontaneous
  | wait => simp [isSpontaneous] at spontaneous
  | setBatchBudget => simp [isSpontaneous] at spontaneous
  | initTask _ _ _ _ _ busy => simp [idle] at busy
  | initCollect _ _ _ busy => simp [idle] at busy
  | initFail _ _ _ busy => simp [idle] at busy
  | initDone _ busy => simp [idle] at busy
  | initFlushFail _ _ _ busy => simp [idle] at busy
  | background _ _ _ _ _ _ found => exact ⟨_, List.mem_of_getElem? found, rfl⟩
  | publish _ _ _ _ found => exact ⟨_, List.mem_of_getElem? found, rfl⟩

end Steps

/-- The first run has a budget whenever the interval has one. -/
theorem CheckpointArgs.firstBudget_positive {args : CheckpointArgs} (positive : 1 ≤ args.checkpointIntervalSteps) :
    args.firstBudget ≠ 0 := by
  unfold CheckpointArgs.firstBudget
  split_ifs <;> omega

/-- In both modes the command resumes a paused pipeline with the interval as its budget. -/
theorem CheckpointCommand.resume_eq {args : CheckpointArgs} (command : CheckpointCommand Table Key Data)
    (budget : args.version.bootstrap = false → command.pipeline.batchBudget = some args.checkpointIntervalSteps)
    (paused : command.pipeline.state = .paused) :
    command.resume args = { command with
      checkpointIdx := command.checkpointIdx + 1
      pipeline := (perform .continuePipeline (command.pipeline.setBatchBudget args.checkpointIntervalSteps)).2 } := by
  have same : (if args.version.bootstrap then command.pipeline.setBatchBudget args.checkpointIntervalSteps
      else command.pipeline) = command.pipeline.setBatchBudget args.checkpointIntervalSteps := by
    by_cases bootstrap : args.version.bootstrap = true
    · rw [if_pos bootstrap]
    · rw [if_neg bootstrap, ETLPipeline.setBatchBudget, ← budget (by simpa using bootstrap)]
  have budgeted : (command.pipeline.setBatchBudget args.checkpointIntervalSteps).state = .paused := paused
  simp only [CheckpointCommand.resume, same, Attended.perform_continue budgeted]

/-- The run is well formed, and returns only with an outcome. -/
structure Regular (run : RunTask Table Key Data) : Prop where
  shape : run.Shape
  outcome : ∀ outcome, run.phase = .returned outcome → outcome = .paused ∨ ∃ reason, outcome = .stopped reason

omit [DecidableEq Table] in
/-- A run that was just spawned is regular. -/
theorem Regular.spawn (stepLimit : Option Nat) : Regular (.spawn stepLimit : RunTask Table Key Data) :=
  ⟨trivial, by simp [RunTask.spawn]⟩

theorem Regular.step {config : EtlConfig Key Data} {shared next : Shared Table Key Data}
    {run after : RunTask Table Key Data} {action : RunAction Table Key Data} (regular : Regular run)
    (moved : RunMove config shared next run after action) : Regular after :=
  ⟨moved.shape regular.shape, fun _ => moved.outcome⟩

/-- The steps of `initialize` keep each first id with its task, whatever happens. -/
theorem starting_kept (config : EtlConfig Key Data) (environment : Environment Table Key Data)
    (metadata : Metadata Table) : InitKept config environment (Starting metadata) fun _ => True where
  task _ _ _ _ _ _ member _ starting stepped := starting.task member stepped
  collect _ _ _ _ done starting := starting.collect done
  fail _ _ _ _ _ _ _ := trivial
  flush _ _ _ _ _ := trivial

/-- `initialize` is under way, has ended, or has failed. -/
def Launching (metadata : Metadata Table) (pipeline : ETLPipeline Table Key Data) : Prop :=
  Preparing (Starting metadata) (fun _ => True) metadata pipeline

/-- This is what every pipeline of a command keeps, in every environment. -/
def Tidy (metadata : Metadata Table) (pipeline : ETLPipeline Table Key Data) : Prop :=
  Launching metadata pipeline ∨
    Attended (fun _ run => Regular run) metadata pipeline

/-- The tasks of `initialize` are ranked like those of one step of a run. -/
def InitJob.asRun (job : InitJob Table Key Data) : RunTask Table Key Data :=
  ⟨none, none, .processing 0 0 job.active job.tasks⟩

def pipelineRank (config : EtlConfig Key Data) (pipeline : ETLPipeline Table Key Data) :
    ℕ ×ₗ ℕ ×ₗ ℕ ×ₗ ℕ ×ₗ ℕ :=
  match pipeline.initializing, pipeline.tasks.getLast? with
  | some job, _ => toLex (2, runRank config (pipeline.shared, InitJob.asRun job))
  | none, some ⟨run, .live⟩ => toLex (1, runRank config (pipeline.shared, run))
  | none, _ => toLex (0, runRank config (pipeline.shared, .spawn none))

section Termination

variable {config : EtlConfig Key Data} {environment : Environment Table Key Data} {metadata : Metadata Table}
  {cancelled : Bool} {pipeline next : ETLPipeline Table Key Data} {action : PipelineAction Table Key Data}

theorem Launching.step (launching : Launching metadata pipeline)
    (moved : PipelineMove config pipeline next action) (spontaneous : isSpontaneous action = true)
    (admitted : environment.AdmitsPipeline metadata action) : Launching metadata next :=
  Preparing.step launching (starting_kept config environment metadata) (noCall_of_spontaneous spontaneous) admitted
    moved

/-- A step of the tasks keeps the pipeline tidy. -/
theorem Tidy.step (tidy : Tidy metadata pipeline) (moved : PipelineMove config pipeline next action)
    (spontaneous : isSpontaneous action = true) (admitted : environment.AdmitsPipeline metadata action) :
    Tidy metadata next := by
  rcases tidy with launching | attended
  · exact .inl (launching.step moved spontaneous admitted)
  · exact .inr (attended.step (noCall_of_spontaneous spontaneous)
      (fun _ _ _ _ _ regular runMoved => regular.step runMoved) moved)

/-- A step of the tasks lowers the rank of the pipeline. -/
theorem Tidy.lowers (tidy : Tidy metadata pipeline) (moved : PipelineMove config pipeline next action)
    (spontaneous : isSpontaneous action = true) : pipelineRank config next < pipelineRank config pipeline := by
  have starting : ∀ job, pipeline.initializing = some job →
      pipeline.tasks = [] ∧ Starting metadata pipeline.shared job := by
    intro job running
    rcases tidy with preparing | attended
    · cases preparing with
      | busy other _ tasks busy _ starting =>
          obtain rfl : other = job := by simpa [busy] using running
          exact ⟨tasks, starting⟩
      | ready _ _ _ idle => simp [idle] at running
      | broken _ _ _ idle => simp [idle] at running
    · simp [attended.idle] at running
  have live : ∀ index run, pipeline.tasks[index]? = some ⟨run, .live⟩ → ∃ earlier,
      pipeline.tasks = earlier ++ [⟨run, .live⟩] ∧ index = earlier.length ∧ run.Shape := by
    intro index run found
    rcases tidy with preparing | attended
    · simp [preparing.tasks_nil] at found
    · obtain ⟨earlier, other, status, tasks, settled, regular, _⟩ := attended.task
      obtain ⟨rfl, rfl, rfl⟩ := Attended.live_last tasks settled found
      exact ⟨earlier, tasks, rfl, regular.shape⟩
  cases moved with
  | call => simp [isSpontaneous] at spontaneous
  | wait => simp [isSpontaneous] at spontaneous
  | setBatchBudget => simp [isSpontaneous] at spontaneous
  | initTask job table taskAction shared result busy member stepped same =>
      obtain ⟨_, starting⟩ := starting job busy
      have asTask : RunMove config pipeline.shared shared (InitJob.asRun job)
          (InitJob.asRun { job with tasks := Function.update job.tasks table result }) (.task table taskAction) :=
        .task 0 0 job.active job.tasks table taskAction result rfl member stepped rfl
      have lower := asTask.lowers ⟨starting.nodup, starting.cursors⟩
      subst same
      simp only [pipelineRank, busy, Prod.Lex.toLex_lt_toLex]
      exact .inr ⟨trivial, lower⟩
  | initCollect job table report busy member done same =>
      obtain ⟨_, starting⟩ := starting job busy
      have asCollect : RunMove config pipeline.shared _ (InitJob.asRun job)
          (InitJob.asRun { job with active := job.active.erase table }) (.collect table) :=
        .collect 0 0 job.active job.tasks table report rfl member done rfl rfl
      have lower := asCollect.lowers ⟨starting.nodup, starting.cursors⟩
      subst same
      simp only [pipelineRank, busy, Prod.Lex.toLex_lt_toLex]
      exact .inr ⟨trivial, lower⟩
  | initFail job table message busy member done same =>
      obtain ⟨tasks, _⟩ := starting job busy
      subst same
      simp [pipelineRank, busy, tasks, ETLPipeline.send, Prod.Lex.toLex_lt_toLex]
  | initDone job busy joined same =>
      obtain ⟨tasks, _⟩ := starting job busy
      subst same
      simp [pipelineRank, busy, tasks, ETLPipeline.send, Prod.Lex.toLex_lt_toLex]
  | initFlushFail job message text busy joined same =>
      obtain ⟨tasks, _⟩ := starting job busy
      subst same
      simp [pipelineRank, busy, tasks, ETLPipeline.send, Prod.Lex.toLex_lt_toLex]
  | background index run runAction shared result idle found stepped same =>
      obtain ⟨earlier, tasks, rfl, shape⟩ := live index run found
      have lower := (runStep_moves stepped).lowers shape
      subst same
      simp only [pipelineRank, idle, tasks, List.set_append_right _ _ (le_refl _), Nat.sub_self, List.set_cons_zero,
        List.getLast?_append, List.getLast?_singleton, Option.some_or, Prod.Lex.toLex_lt_toLex]
      exact .inr ⟨trivial, lower⟩
  | publish index run outcome idle found ended same =>
      obtain ⟨earlier, tasks, rfl, _⟩ := live index run found
      subst same
      simp [pipelineRank, idle, tasks, ETLPipeline.send, Prod.Lex.toLex_lt_toLex]

/-- A step of the tasks only adds to the history. -/
theorem Tidy.grown (tidy : Tidy metadata pipeline) (moved : PipelineMove config pipeline next action)
    (spontaneous : isSpontaneous action = true) : pipeline.shared.history <+: next.shared.history := by
  cases moved with
  | call => simp [isSpontaneous] at spontaneous
  | wait => simp [isSpontaneous] at spontaneous
  | setBatchBudget => simp [isSpontaneous] at spontaneous
  | initTask job table taskAction shared result busy member stepped same =>
      rcases tidy with preparing | attended
      · cases preparing with
        | busy other _ _ running _ starting =>
            obtain rfl : other = job := by simpa [running] using busy
            rw [same]
            exact (taskStep_moves (starting.cursors table member) stepped).grown
        | ready _ _ _ idle => simp [idle] at busy
        | broken _ _ _ idle => simp [idle] at busy
      · simp [attended.idle] at busy
  | initCollect _ _ _ _ _ _ same => exact same ▸ List.prefix_refl _
  | initFail _ _ _ _ _ _ same => exact same ▸ List.prefix_refl _
  | initDone _ _ _ same => exact same ▸ List.prefix_refl _
  | initFlushFail _ _ _ _ _ same => exact same ▸ List.prefix_append _ _
  | background index run runAction shared result idle found stepped same =>
      rcases tidy with preparing | attended
      · simp [preparing.tasks_nil] at found
      · obtain ⟨earlier, other, status, tasks, settled, regular, _⟩ := attended.task
        obtain ⟨rfl, rfl, rfl⟩ := Attended.live_last tasks settled found
        rw [same]
        exact (runStep_moves stepped).grown regular.shape
  | publish _ _ _ _ _ _ same => exact same ▸ List.prefix_refl _

/-- The tasks of a tidy pipeline come to rest, whatever happens. -/
theorem background_terminates (config : EtlConfig Key Data) (environment : Environment Table Key Data)
    (cancelled : Bool) (tidy : Tidy metadata pipeline) :
    (backgroundMachine config environment metadata cancelled).Terminates pipeline := by
  apply Machine.terminates_of_rank wellFounded_lt (pipelineRank config) (Tidy metadata)
  · intro before after tidy stepped
    obtain ⟨action, admitted, stepped⟩ := stepped
    obtain ⟨moved, spontaneous, _⟩ := progress_moves stepped admitted
    exact tidy.step moved spontaneous admitted
  · intro before after tidy stepped
    obtain ⟨action, admitted, stepped⟩ := stepped
    obtain ⟨moved, spontaneous, _⟩ := progress_moves stepped admitted
    exact tidy.lowers moved spontaneous
  · exact tidy

end Termination

/-- Every read that a task of the pipeline waits for completes. -/
def Answered (environment : Environment Table Key Data) (pipeline : ETLPipeline Table Key Data) : Prop :=
  (∀ job, pipeline.initializing = some job → ∀ table ∈ job.active, ∀ batchId ∈ (job.tasks table).awaited,
    ∃ outcome, environment.reads table batchId outcome) ∧
  ∀ run, ⟨run, .live⟩ ∈ pipeline.tasks → ∀ table, ∀ batchId ∈ run.awaited table,
    ∃ outcome, environment.reads table batchId outcome

section Rest

variable {config : EtlConfig Key Data} {environment : Environment Table Key Data} {metadata : Metadata Table}
  {cancelled : Bool} {pipeline next : ETLPipeline Table Key Data}

omit [DecidableEq Table] in
/-- A step that is admitted without cancelling observes no cancelled token. -/
theorem calm_of_admits {action : RunAction Table Key Data}
    (admitted : (cancelling environment false).AdmitsRun action) (index : Nat) :
    environment.AdmitsRun action ∧
      observesCancel (.background index action : PipelineAction Table Key Data) = false := by
  cases action with
  | loopHead observed flush =>
      have unseen : observed = false := by
        cases observed with
        | false => rfl
        | true => exact absurd (admitted.1 rfl) (by simp [cancelling])
      exact ⟨⟨by simp [unseen], admitted.2⟩, unseen⟩
  | cancel => exact absurd admitted (by simp [cancelling, Environment.AdmitsRun])
  | start => exact ⟨trivial, rfl⟩
  | task table taskAction => exact ⟨admitted, rfl⟩
  | collect table => exact ⟨trivial, rfl⟩
  | stepDone => exact ⟨trivial, rfl⟩

/-- Once no task can take a step, `initialize` is over and nothing is running. -/
theorem Tidy.rest (tidy : Tidy metadata pipeline) (answered : Answered environment pipeline)
    (stuck : (backgroundMachine config environment metadata cancelled).Stuck pipeline) :
    pipeline.initializing = none ∧ pipeline.state ≠ .running := by
  have blocked : ∀ action, environment.AdmitsPipeline metadata action → isSpontaneous action = true →
      observesCancel action = false → pipelineStep config pipeline action = none := by
    intro action admitted spontaneous calm
    by_contra possible
    obtain ⟨next, stepped⟩ := Option.ne_none_iff_exists'.mp possible
    exact stuck next ⟨action, admitted, by simpa [backgroundMachine, progress, spontaneous, calm] using stepped⟩
  have idle : pipeline.initializing = none := by
    cases busy : pipeline.initializing with
    | none => rfl
    | some job =>
        exfalso
        cases active : job.active with
        | nil =>
            have none := blocked (.initDone (.ok ())) trivial rfl rfl
            simp [pipelineStep, busy, initStep, active] at none
        | cons table others =>
            by_cases finished : ∃ result, job.tasks table = .done result
            · obtain ⟨result, done⟩ := finished
              have none := blocked (.initCollect table) trivial rfl rfl
              cases result with
              | ok report => simp [pipelineStep, busy, initStep, active, done] at none
              | error message => simp [pipelineStep, busy, initStep, active, done] at none
            · have member : table ∈ job.active := by simp [active]
              obtain ⟨action, admitted, possible⟩ := task_progress config pipeline.shared none
                (answered.1 job busy table member) (fun result same => finished ⟨result, same⟩)
              obtain ⟨result, stepped⟩ := Option.isSome_iff_exists.mp possible
              have none := blocked (.initTask table action) admitted rfl rfl
              simp [pipelineStep, busy, initStep, active, stepped] at none
  refine ⟨idle, ?_⟩
  intro running
  rcases tidy with preparing | attended
  · cases preparing with
    | busy _ _ _ busy => simp [idle] at busy
    | ready _ _ _ _ state => simp [running] at state
    | broken _ _ _ _ state => simp [running] at state
  · obtain ⟨earlier, run, status, tasks, _, regular, ⟨rfl, _⟩ | ⟨_, ended⟩⟩ := attended.task
    · have found : pipeline.tasks[earlier.length]? = some ⟨run, .live⟩ := by simp [tasks]
      by_cases returned : run.Returned
      · obtain ⟨outcome, ended⟩ := returned
        have none := blocked (.publish earlier.length) trivial rfl rfl
        obtain ⟨limit, boundary, phase⟩ := run
        obtain rfl : phase = .returned outcome := ended
        simp [pipelineStep, idle, found] at none
      · -- The step is chosen without cancelling, so it is possible whether or not the token is cancelled.
        have answers : ∀ table, ∀ batchId ∈ run.awaited table,
            ∃ outcome, (cancelling environment false).reads table batchId outcome :=
          answered.2 run (List.mem_of_getElem? found)
        obtain ⟨action, admitted, possible⟩ := run_progress config pipeline.shared answers returned
        obtain ⟨result, stepped⟩ := Option.isSome_iff_exists.mp possible
        obtain ⟨admits, calm⟩ := calm_of_admits admitted earlier.length
        have none := blocked (.background earlier.length action) admits rfl calm
        simp [pipelineStep, idle, found, stepped] at none
    · rcases regular.outcome _ ended with paused | ⟨reason, stopped⟩
      · simp [running] at paused
      · simp [running] at stopped

end Rest

end Spicebench.Commands
