import Spicebench.Construction.Commands.Run
import Spicebench.Proof.Commands.Background

namespace Spicebench.Commands
open Library Etl

variable {Table Key Data : Type} [DecidableEq Table]

/-- The ids of the run are in line and, unless the command has cancelled it, a failure makes it fail. -/
structure SoundRun (metadata : Metadata Table) (cancelled : Bool) (shared : Shared Table Key Data)
    (run : RunTask Table Key Data) : Prop where
  regular : Regular run
  ledger : Ledger metadata.Planned [] shared run.held
  failing : cancelled = false → .failed ∈ shared.history → run.Failing

/-- The ids of `initialize` are in line, and a failure makes it fail. -/
structure SoundJob (metadata : Metadata Table) (shared : Shared Table Key Data)
    (job : InitJob Table Key Data) : Prop where
  starting : Starting metadata shared job
  failing : .failed ∈ shared.history → FailingTask job.active job.tasks

/-- An `initialize` that broke has handed over first ids only. -/
def Broken (metadata : Metadata Table) (shared : Shared Table Key Data) : Prop :=
  Ledger metadata.First [] shared fun _ => []

/-- This is what the pipeline of the benchmark keeps, in every environment. -/
inductive Sound (metadata : Metadata Table) (cancelled : Bool) (pipeline : ETLPipeline Table Key Data) :
    Prop where
  | fresh (same : pipeline = .new metadata)
  | preparing (preparing : Preparing (SoundJob metadata) (Broken metadata) metadata pipeline)
  | attended (attended : Attended (SoundRun metadata cancelled) metadata pipeline)

section Invariants

variable {config : EtlConfig Key Data} {environment : Environment Table Key Data} {metadata : Metadata Table}
  {cancelled : Bool} {shared next : Shared Table Key Data} {run after : RunTask Table Key Data}
  {job : InitJob Table Key Data}

theorem SoundRun.step {action : RunAction Table Key Data} (sound : SoundRun metadata cancelled shared run)
    (admitted : (cancelling environment cancelled).AdmitsRun action)
    (moved : RunMove config shared next run after action) : SoundRun metadata cancelled next after where
  regular := ⟨moved.shape sound.regular.shape, fun _ => moved.outcome⟩
  ledger := moved.ledger sound.regular.shape sound.ledger
  failing calm failed := moved.failing admitted (by simp [cancelling, calm]) (sound.failing calm) failed

/-- A new run is sound where no failure was recorded and nothing is held. -/
theorem SoundRun.spawn (ledger : Ledger metadata.Planned [] shared fun _ => [])
    (unfailed : .failed ∉ shared.history) (stepLimit : Option Nat) :
    SoundRun metadata cancelled shared (.spawn stepLimit) where
  regular := ⟨trivial, by simp [RunTask.spawn]⟩
  ledger := ledger
  failing _ failed := absurd failed unfailed

/-- A run that has returned anything but an error has recorded no failure. -/
theorem SoundRun.unfailed (sound : SoundRun metadata false shared run) {outcome : PipelineState}
    (ended : run.phase = .returned outcome) (fine : ∀ message, outcome ≠ .stopped (.error message)) :
    .failed ∉ shared.history := by
  intro failed
  have failing := sound.failing rfl failed
  simp only [RunTask.Failing, ended] at failing
  obtain ⟨message, same⟩ := failing
  exact fine message same

/-- A paused run can be followed by the next one. -/
theorem SoundRun.resume (sound : SoundRun metadata false shared run) (paused : run.phase = .returned .paused)
    (stepLimit : Option Nat) : SoundRun metadata false shared (.spawn stepLimit) := by
  have nothing : run.held = fun _ => [] := RunTask.held_of_phase (by simp [paused])
  exact .spawn (nothing ▸ sound.ledger) (sound.unfailed paused (by simp)) stepLimit

/-- The first run after `initialize` is sound. -/
theorem SoundJob.plan (sound : SoundJob metadata shared job) (joined : job.active = []) {order : List Table}
    (perm : order.Perm metadata.tables) (stepLimit : Option Nat) :
    SoundRun metadata cancelled { shared with work := ⟨buildWorkPlan metadata order true, []⟩ }
      (.spawn stepLimit) := by
  refine .spawn (sound.starting.ledger_plan perm) ?_ stepLimit
  intro failed
  have failing := sound.failing failed
  simp [FailingTask, joined] at failing

theorem SoundJob.kept : InitKept config environment (SoundJob metadata) (Broken metadata) where
  task _ _ _ _ _ _ member _ sound stepped :=
    ⟨sound.starting.task member stepped, FailingTask.step sound.failing member stepped⟩
  collect _ _ _ _ done sound := ⟨sound.starting.collect done, fun failed => (sound.failing failed).erase done⟩
  fail _ _ _ _ _ _ sound := sound.starting.release
  flush _ _ _ _ sound := sound.starting.release.release rfl rfl (by simp) fun _ => List.Sublist.refl _

end Invariants

section Pipelines

variable {config : EtlConfig Key Data} {environment : Environment Table Key Data} {metadata : Metadata Table}
  {cancelled : Bool} {pipeline next : ETLPipeline Table Key Data} {action : PipelineAction Table Key Data}

/-- The steps of the tasks keep the current run sound. -/
theorem attended_step (attended : Attended (SoundRun metadata cancelled) metadata pipeline)
    (moved : PipelineMove config pipeline next action) (noCall : ∀ call, action ≠ .call call)
    (admitted : (cancelling environment cancelled).AdmitsPipeline metadata action) :
    Attended (SoundRun metadata cancelled) metadata next := by
  apply attended.step noCall ?_ moved
  intro index run runAction after isRun sound runMoved
  subst isRun
  exact sound.step admitted runMoved

theorem Sound.step (sound : Sound metadata cancelled pipeline) (moved : PipelineMove config pipeline next action)
    (spontaneous : isSpontaneous action = true)
    (admitted : (cancelling environment cancelled).AdmitsPipeline metadata action) :
    Sound metadata cancelled next := by
  have noCall := noCall_of_spontaneous spontaneous
  cases sound with
  | fresh same =>
      subst same
      obtain ⟨task, member, _⟩ := PipelineMove.restless moved spontaneous rfl
      simp [ETLPipeline.new] at member
  | preparing preparing => exact .preparing (preparing.step SoundJob.kept noCall admitted moved)
  | attended attended => exact .attended (attended_step attended moved noCall admitted)

/-- Cancelling the pipeline asks less of it. -/
theorem Sound.cancel (sound : Sound metadata false pipeline) : Sound metadata true pipeline := by
  cases sound with
  | fresh same => exact .fresh same
  | preparing preparing => exact .preparing preparing
  | attended attended =>
      exact .attended (attended.mono fun run sound => ⟨sound.regular, sound.ledger, by simp⟩)

/-- No id was handed over twice, and those of a table in ascending order. -/
theorem Sound.ascending (sound : Sound metadata cancelled pipeline) (table : Table) :
    (handedIds table pipeline.shared.history).Pairwise (· < ·) := by
  have since : handedIds table pipeline.shared.history = handedSince [] pipeline.shared table := rfl
  rw [since]
  cases sound with
  | fresh same =>
      subst same
      exact List.Pairwise.nil
  | preparing preparing =>
      cases preparing with
      | busy _ _ _ _ _ sound => exact (List.pairwise_append.mp (sound.starting.ledger.ascending table)).1
      | ready _ _ _ _ _ _ sound => exact (List.pairwise_append.mp (sound.starting.ledger.ascending table)).1
      | broken _ _ _ _ _ ledger => exact (List.pairwise_append.mp (ledger.ascending table)).1
  | attended attended =>
      obtain ⟨run, sound⟩ := attended.holds
      exact (List.pairwise_append.mp (sound.ledger.ascending table)).1

/-- A sound pipeline that was called is tidy. -/
theorem Sound.tidy (sound : Sound metadata cancelled pipeline) :
    pipeline = .new metadata ∨ Tidy metadata pipeline := by
  cases sound with
  | fresh same => exact .inl same
  | preparing preparing => exact .inr (.inl (preparing.mono (fun _ sound => sound.starting) fun _ => trivial))
  | attended attended => exact .inr (.inr (attended.mono fun _ sound => sound.regular))

end Pipelines

/-- This is where the benchmark stands, and what its pipeline keeps there. -/
inductive Conduct (metadata : Metadata Table) (command : RunCommand Table Key Data) : Prop where
  | created (phase : command.phase = .created) (calm : command.cancelled = false)
      (fresh : command.pipeline = .new metadata)
  | initializing (phase : command.phase = .initializing) (calm : command.cancelled = false)
      (preparing : Preparing (SoundJob metadata) (Broken metadata) metadata command.pipeline)
  | seeding (phase : command.phase = .seeding) (calm : command.cancelled = false)
      (attended : Attended (SoundRun metadata false) metadata command.pipeline)
  | prepared (phase : command.phase = .loading) (calm : command.cancelled = false)
      (preparing : Preparing (SoundJob metadata) (Broken metadata) metadata command.pipeline)
      (ready : command.pipeline.state = .initialized)
  | seeded (phase : command.phase = .loading) (calm : command.cancelled = false)
      (attended : Attended (SoundRun metadata false) metadata command.pipeline)
  | monitoring (phase : command.phase = .monitoring) (calm : command.cancelled = false)
      (attended : Attended (SoundRun metadata false) metadata command.pipeline)
  | ended (ending : Ending) (phase : command.phase = .finished ending) (failure : ending.isErr = true)
      (sound : Sound metadata command.cancelled command.pipeline)
  | concluded (ending : Ending) (phase : command.phase = .finished ending) (calm : command.cancelled = false)
      (attended : Attended (SoundRun metadata false) metadata command.pipeline)
      (still : command.pipeline.state ≠ .running) (unfailed : .failed ∉ command.pipeline.shared.history)

/-- The load phase is entered with checkpoint steps only from an initialized or a paused pipeline. -/
def Resumes (args : RunArgs) (command : RunCommand Table Key Data) : RunCommandAction Table Key Data → Prop
  | .proceed _ _ _ => command.phase = .loading → args.checkpointSteps ≠ none →
      command.pipeline.state = .initialized ∨ command.pipeline.state = .paused
  | _ => True

instance (args : RunArgs) (command : RunCommand Table Key Data) (action : RunCommandAction Table Key Data) :
    Decidable (Resumes args command action) :=
  match action with
  | .proceed _ _ _ => inferInstanceAs (Decidable (_ → _ → _))
  | .interrupt => .isTrue trivial
  | .fail _ => .isTrue trivial
  | .etl _ => .isTrue trivial

/-- The benchmark without the load phases that restart a stopped pipeline. -/
def resumingMachine (config : EtlConfig Key Data) (environment : Environment Table Key Data)
    (metadata : Metadata Table) (args : RunArgs) :
    Machine (RunCommand Table Key Data) (RunCommandAction Table Key Data) :=
  { runCommandMachine config environment metadata args with
    step := fun command action =>
      if Resumes args command action then runCommandStep config args command action else none }

namespace Conduct

variable {config : EtlConfig Key Data} {environment : Environment Table Key Data} {metadata : Metadata Table}
  {args : RunArgs} {command next : RunCommand Table Key Data}

theorem sound (conduct : Conduct metadata command) : Sound metadata command.cancelled command.pipeline := by
  cases conduct with
  | created _ _ fresh => exact .fresh fresh
  | initializing _ _ preparing => exact .preparing preparing
  | seeding _ calm attended => exact .attended (calm ▸ attended)
  | prepared _ _ preparing => exact .preparing preparing
  | seeded _ calm attended => exact .attended (calm ▸ attended)
  | monitoring _ calm attended => exact .attended (calm ▸ attended)
  | ended _ _ _ sound => exact sound
  | concluded _ _ calm attended => exact .attended (calm ▸ attended)

/-- A step of the tasks keeps the conduct of the benchmark. -/
theorem etl (conduct : Conduct metadata command) {action : PipelineAction Table Key Data}
    {pipeline : ETLPipeline Table Key Data} (admitted : environment.AdmitsPipeline metadata action)
    (stepped : progress config command.cancelled command.pipeline action = some pipeline) :
    Conduct metadata { command with pipeline } := by
  obtain ⟨moved, spontaneous, admits⟩ := progress_moves stepped admitted
  have noCall := noCall_of_spontaneous spontaneous
  cases conduct with
  | created phase calm fresh =>
      rw [fresh] at moved
      obtain ⟨task, member, _⟩ := PipelineMove.restless moved spontaneous rfl
      simp [ETLPipeline.new] at member
  | initializing phase calm preparing =>
      exact .initializing phase calm (preparing.step SoundJob.kept noCall admits moved)
  | seeding phase calm attended =>
      rw [calm] at admits
      exact .seeding phase calm (attended_step attended moved noCall admits)
  | prepared phase calm preparing ready =>
      have idle : command.pipeline.initializing = none := by
        cases preparing with
        | busy _ _ _ _ state => simp [ready] at state
        | ready _ _ _ idle => exact idle
        | broken _ _ _ idle => exact idle
      obtain ⟨task, member, _⟩ := PipelineMove.restless moved spontaneous idle
      simp [preparing.tasks_nil] at member
  | seeded phase calm attended =>
      rw [calm] at admits
      exact .seeded phase calm (attended_step attended moved noCall admits)
  | monitoring phase calm attended =>
      rw [calm] at admits
      exact .monitoring phase calm (attended_step attended moved noCall admits)
  | ended ending phase failure sound => exact .ended ending phase failure (sound.step moved spontaneous admits)
  | concluded ending phase calm attended still =>
      obtain ⟨task, member, live⟩ := PipelineMove.restless moved spontaneous attended.idle
      exact absurd live ((attended.settled still).2 task member)

/-- A run that is broken off ends with an error. -/
theorem breakOff (sound : Sound metadata false command.pipeline) {ending : Ending} (failure : ending.isErr = true) :
    Conduct metadata (command.cancel.finish ending) :=
  .ended ending rfl failure sound.cancel

theorem finish (conduct : Conduct metadata command) {ending : Ending} (failure : ending.isErr = true) :
    Conduct metadata (command.finish ending) :=
  .ended ending rfl failure conduct.sound

/-- The first call of the command initializes its pipeline. -/
theorem start {order : List Table} (perm : order.Perm metadata.tables) (calm : command.cancelled = false)
    (fresh : command.pipeline = .new metadata) :
    Conduct metadata { command with
      phase := .initializing
      pipeline := (perform (.initializePipeline order) command.pipeline).2 } := by
  rw [fresh]
  refine .initializing rfl calm (.busy (ETLPipeline.initJob metadata order) rfl rfl rfl rfl ?_)
  exact ⟨Starting.start perm, by simp [ETLPipeline.new, perform]⟩

/-- The first run of an initialized pipeline is sound. -/
theorem plan {order : List Table} (perm : order.Perm metadata.tables)
    (preparing : Preparing (SoundJob metadata) (Broken metadata) metadata command.pipeline)
    (ready : command.pipeline.state = .initialized) (stepLimit : Option Nat) :
    Attended (SoundRun metadata false) metadata
      (({ command.pipeline with batchBudget := stepLimit }.planWork order).spawnRunTask stepLimit) := by
  cases preparing with
  | busy _ _ _ _ state => simp [ready] at state
  | broken _ _ _ _ state => simp [ready] at state
  | ready job same tasks idle _ joined sound =>
      apply Attended.plan idle same
      · simp [tasks]
      · simp only [ready, decide_true]
        exact sound.plan joined perm stepLimit

/-- After `initialize` the base is seeded, or the load phase follows at once. -/
theorem seed {order : List Table} (perm : order.Perm metadata.tables) (calm : command.cancelled = false)
    (preparing : Preparing (SoundJob metadata) (Broken metadata) metadata command.pipeline)
    (ready : command.pipeline.state = .initialized) : Conduct metadata (command.seed args order) := by
  unfold RunCommand.seed
  split
  · exact .seeding rfl calm (plan perm preparing ready (some args.version.baseRemainder))
  · exact .prepared rfl calm preparing ready

/-- A paused pipeline is continued in the load phase. -/
theorem resume (calm : command.cancelled = false)
    (attended : Attended (SoundRun metadata false) metadata command.pipeline)
    (paused : command.pipeline.state = .paused) :
    ∃ after, perform .continuePipeline command.pipeline = (.ok, after) ∧
      Conduct metadata { command with pipeline := after, phase := .monitoring } := by
  obtain ⟨⟨run, ended, sound⟩, _⟩ := attended.settled (by simp [paused])
  rw [paused] at ended
  have continued := attended.resume paused (sound.resume ended command.pipeline.batchBudget)
  rw [Attended.perform_continue paused] at continued
  exact ⟨_, Attended.perform_continue paused, .monitoring rfl calm continued⟩

/-- The base checkpoint is validated, and then the pipeline goes on. -/
theorem resumeBase (calm : command.cancelled = false)
    (attended : Attended (SoundRun metadata false) metadata command.pipeline)
    (paused : command.pipeline.state = .paused) (validation : CheckpointValidationResult) :
    Conduct metadata (command.resumeBase args validation) := by
  unfold RunCommand.resumeBase
  dsimp only
  generalize noting : (if args.hasCheckpointValidation = true then command.validate 0 else command) = noted
  obtain ⟨samePipeline, sameCancelled, _⟩ := RunCommand.validate_keeps noting
  rw [← samePipeline] at attended paused
  rw [← sameCancelled] at calm
  split
  · exact breakOff (.attended attended) rfl
  · exact breakOff (.attended attended) rfl
  · cases args.checkpointSteps with
    | none =>
        obtain ⟨after, performed, conduct⟩ := resume calm attended paused
        simp only [performed]
        exact conduct
    | some steps =>
        obtain ⟨after, performed, conduct⟩ := @resume _ _ _ _ _
          { noted with pipeline := noted.pipeline.setBatchBudget steps } calm
          (attended.setBatchBudget steps) paused
        simp only [performed]
        exact conduct

/-- The load phase starts soundly unless it restarts a stopped pipeline. -/
theorem load {order : List Table} (perm : order.Perm metadata.tables) (conduct : Conduct metadata command)
    (loading : command.phase = .loading) (validation : CheckpointValidationResult)
    (resumes : args.checkpointSteps ≠ none →
      command.pipeline.state = .initialized ∨ command.pipeline.state = .paused) :
    Conduct metadata (command.load args order validation) := by
  have stage : command.cancelled = false ∧
      (Attended (SoundRun metadata false) metadata command.pipeline ∨
        Preparing (SoundJob metadata) (Broken metadata) metadata command.pipeline ∧
          command.pipeline.state = .initialized) := by
    cases conduct with
    | prepared _ calm preparing ready => exact ⟨calm, .inr ⟨preparing, ready⟩⟩
    | seeded _ calm attended => exact ⟨calm, .inl attended⟩
    | created phase => simp [loading] at phase
    | initializing phase => simp [loading] at phase
    | seeding phase => simp [loading] at phase
    | monitoring phase => simp [loading] at phase
    | ended _ phase => simp [loading] at phase
    | concluded _ phase => simp [loading] at phase
  obtain ⟨calm, stage⟩ := stage
  have prepared : command.pipeline.state = .initialized →
      Preparing (SoundJob metadata) (Broken metadata) metadata command.pipeline := by
    intro ready
    rcases stage with attended | ⟨preparing, _⟩
    · obtain ⟨⟨run, ended, sound⟩, _⟩ := attended.settled (by simp [ready])
      rcases sound.regular.outcome _ ended with paused | ⟨reason, stopped⟩
      · simp [ready] at paused
      · simp [ready] at stopped
    · exact preparing
  unfold RunCommand.load
  split_ifs with paused
  · rcases stage with attended | ⟨_, ready⟩
    · exact resumeBase calm attended paused validation
    · simp [paused] at ready
  · cases steps : args.checkpointSteps with
    | some limit =>
        have ready := (resumes (by simp [steps])).resolve_right paused
        exact .monitoring rfl calm (plan perm (prepared ready) ready (some limit))
    | none =>
        by_cases ready : command.pipeline.state = .initialized
        · have started := plan perm (prepared ready) ready none
          have performed : perform (.start order) command.pipeline = (.ok,
              ({ command.pipeline with batchBudget := none }.planWork order).spawnRunTask none) :=
            if_neg (not_not.mpr ready)
          simp only [performed]
          exact .monitoring rfl calm started
        · obtain ⟨message, refused⟩ : ∃ message, perform (.start order) command.pipeline =
              (.err message, command.pipeline) := ⟨_, if_pos ready⟩
          simp only [refused]
          exact conduct.finish rfl

/-- A pause in the load phase is validated, and then the pipeline goes on. -/
theorem pause (monitoring : command.phase = .monitoring) (calm : command.cancelled = false)
    (attended : Attended (SoundRun metadata false) metadata command.pipeline)
    (paused : command.pipeline.state = .paused) (validation : CheckpointValidationResult) :
    Conduct metadata (command.pause args validation) := by
  unfold RunCommand.pause
  dsimp only
  generalize command.pipeline.checkpointIdx = index
  generalize noting : (if command.checked args = true then command.validate index else command) = noted
  obtain ⟨samePipeline, sameCancelled, samePhase⟩ := RunCommand.validate_keeps noting
  rw [← samePipeline] at attended paused
  rw [← sameCancelled] at calm
  rw [← samePhase] at monitoring
  split
  · exact breakOff (.attended attended) rfl
  · exact breakOff (.attended attended) rfl
  · obtain ⟨after, performed, conduct⟩ := resume calm attended paused
    simp only [performed]
    rw [← monitoring] at conduct
    exact conduct

/-- A stopped pipeline without an error ends the load phase, and no failure was recorded. -/
theorem conclude (calm : command.cancelled = false)
    (attended : Attended (SoundRun metadata false) metadata command.pipeline) {reason : StopReason}
    (stopped : command.pipeline.state = .stopped reason) (fine : ∀ message, reason ≠ .error message)
    (succeeded : Bool) : Conduct metadata (command.conclude succeeded) := by
  have still : command.pipeline.state ≠ .running := by simp [stopped]
  obtain ⟨⟨run, ended, sound⟩, _⟩ := attended.settled still
  rw [stopped] at ended
  refine .concluded _ rfl calm attended still (sound.unfailed ended ?_)
  intro message same
  exact fine message (PipelineState.stopped.inj same)

/-- The last checkpoint is validated, and then the load phase ends. -/
theorem complete (calm : command.cancelled = false)
    (attended : Attended (SoundRun metadata false) metadata command.pipeline)
    (completed : command.pipeline.state = .stopped .completed) (validation : CheckpointValidationResult)
    (succeeded : Bool) : Conduct metadata (command.complete args validation succeeded) := by
  unfold RunCommand.complete
  dsimp only
  generalize command.pipeline.checkpointIdx = index
  generalize noting : (if command.checked args = true then command.validate index else command) = noted
  obtain ⟨samePipeline, sameCancelled, _⟩ := RunCommand.validate_keeps noting
  rw [← samePipeline] at attended completed
  rw [← sameCancelled] at calm
  split
  · exact .ended _ rfl rfl (.attended (calm ▸ attended))
  · exact .ended _ rfl rfl (.attended (calm ▸ attended))
  · exact conclude calm attended completed (by simp) succeeded

/-- A step of the benchmark that restarts no stopped pipeline keeps its conduct. -/
theorem step (conduct : Conduct metadata command) {action : RunCommandAction Table Key Data}
    (admitted : (runCommandMachine config environment metadata args).admits action)
    (resumes : Resumes args command action)
    (stepped : runCommandStep config args command action = some next) : Conduct metadata next := by
  cases action with
  | etl action =>
      simp only [runCommandStep, Option.map_eq_some_iff] at stepped
      obtain ⟨pipeline, progressed, rfl⟩ := stepped
      exact conduct.etl admitted progressed
  | interrupt =>
      have sound := conduct.sound
      cases conduct with
      | initializing phase calm =>
          simp only [runCommandStep, RunCommand.interrupt, phase, Option.some.injEq] at stepped
          exact stepped ▸ breakOff (calm ▸ sound) rfl
      | seeding phase calm =>
          simp only [runCommandStep, RunCommand.interrupt, phase, Option.some.injEq] at stepped
          exact stepped ▸ breakOff (calm ▸ sound) rfl
      | monitoring phase calm =>
          simp only [runCommandStep, RunCommand.interrupt, phase, Option.some.injEq] at stepped
          exact stepped ▸ breakOff (calm ▸ sound) rfl
      | created phase => simp [runCommandStep, RunCommand.interrupt, phase] at stepped
      | prepared phase => simp [runCommandStep, RunCommand.interrupt, phase] at stepped
      | seeded phase => simp [runCommandStep, RunCommand.interrupt, phase] at stepped
      | ended _ phase => simp [runCommandStep, RunCommand.interrupt, phase] at stepped
      | concluded _ phase => simp [runCommandStep, RunCommand.interrupt, phase] at stepped
  | fail message =>
      have broken : next = command.finish (.error message) := by
        cases phase : command.phase with
        | finished ending => simp [runCommandStep, phase] at stepped
        | _ => simpa [runCommandStep, phase] using stepped.symm
      rw [broken]
      exact conduct.finish rfl
  | proceed order validation succeeded =>
      cases conduct with
      | created phase calm fresh =>
          simp only [runCommandStep, phase, Option.some.injEq] at stepped
          exact stepped ▸ start admitted calm fresh
      | initializing phase calm preparing =>
          simp only [runCommandStep, phase] at stepped
          split_ifs at stepped
          split at stepped
          · rename_i ready
            obtain rfl := Option.some.inj stepped
            exact seed admitted calm preparing ready
          · obtain rfl := Option.some.inj stepped
            exact (Conduct.initializing phase calm preparing).finish rfl
      | seeding phase calm attended =>
          simp only [runCommandStep, phase, Option.map_eq_some_iff] at stepped
          obtain ⟨pipeline, waited, rfl⟩ := stepped
          have admits : (cancelling environment false).AdmitsPipeline metadata .wait := trivial
          exact .seeded rfl calm (attended_step attended (pipelineStep_moves waited) (by simp) admits)
      | prepared phase calm preparing ready =>
          simp only [runCommandStep, phase, Option.some.injEq] at stepped
          exact stepped ▸ load admitted (.prepared phase calm preparing ready) phase validation (resumes phase)
      | seeded phase calm attended =>
          simp only [runCommandStep, phase, Option.some.injEq] at stepped
          exact stepped ▸ load admitted (.seeded phase calm attended) phase validation (resumes phase)
      | monitoring phase calm attended =>
          simp only [runCommandStep, phase, RunCommand.monitor] at stepped
          split at stepped
          · rename_i paused
            exact Option.some.inj stepped ▸ pause phase calm attended paused validation
          · rename_i completed
            exact Option.some.inj stepped ▸ complete calm attended completed validation succeeded
          · exact Option.some.inj stepped ▸ (Conduct.monitoring phase calm attended).finish rfl
          · rename_i stopped
            exact Option.some.inj stepped ▸ conclude calm attended stopped (by simp) succeeded
          · simp at stepped
      | ended _ phase => simp [runCommandStep, phase] at stepped
      | concluded _ phase => simp [runCommandStep, phase] at stepped

/-- Every run that restarts no stopped pipeline keeps the conduct. -/
theorem reached (path : (resumingMachine config environment metadata args).Reaches (.new metadata) command) :
    Conduct metadata command := by
  apply Machine.Reaches.invariant (Conduct metadata) ?_ path (.created rfl rfl rfl)
  intro before after conduct stepped
  obtain ⟨action, admitted, stepped⟩ := stepped
  simp only [resumingMachine] at stepped
  split_ifs at stepped with resumes
  exact conduct.step admitted resumes stepped

end Conduct

section Ending

variable {config : EtlConfig Key Data} {environment : Environment Table Key Data} {metadata : Metadata Table}
  {args : RunArgs} {command next : RunCommand Table Key Data}

/-- A step of the tasks lowers the rank of a sound pipeline, and only adds to its history. -/
theorem Sound.lowers {cancelled : Bool} {pipeline after : ETLPipeline Table Key Data}
    {action : PipelineAction Table Key Data} (sound : Sound metadata cancelled pipeline)
    (moved : PipelineMove config pipeline after action) (spontaneous : isSpontaneous action = true) :
    pipelineRank config after < pipelineRank config pipeline ∧
      pipeline.shared.history <+: after.shared.history := by
  rcases sound.tidy with same | tidy
  · subst same
    obtain ⟨task, member, _⟩ := PipelineMove.restless moved spontaneous rfl
    simp [ETLPipeline.new] at member
  · exact ⟨tidy.lowers moved spontaneous, tidy.grown moved spontaneous⟩

def RunPhase.rank : RunPhase → Nat
  | .created => 5
  | .initializing => 4
  | .seeding => 3
  | .loading => 2
  | .monitoring => 1
  | .finished _ => 0

/-- After a failure the command goes through its phases without returning to any of them. -/
def commandRank (config : EtlConfig Key Data) (command : RunCommand Table Key Data) :
    ℕ ×ₗ ℕ ×ₗ ℕ ×ₗ ℕ ×ₗ ℕ ×ₗ ℕ :=
  toLex (command.phase.rank, pipelineRank config command.pipeline)

/-- A failure was recorded, or the run has ended. -/
def Doomed (metadata : Metadata Table) (command : RunCommand Table Key Data) : Prop :=
  Conduct metadata command ∧
    (.failed ∈ command.pipeline.shared.history ∨ ∃ ending, command.phase = .finished ending)

/-- After a failure each phase of the command leads to its end, or to the load phase after the seed. -/
theorem Conduct.proceed (conduct : Conduct metadata command)
    (failed : .failed ∈ command.pipeline.shared.history) {order : List Table}
    {validation : CheckpointValidationResult} {succeeded : Bool}
    (resumes : Resumes args command (.proceed order validation succeeded))
    (stepped : runCommandStep config args command (.proceed order validation succeeded) = some next) :
    (∃ ending, next.phase = .finished ending ∧ command.phase.rank ≠ 0) ∨
      command.phase = .seeding ∧ next.phase = .loading ∧ next.pipeline.shared = command.pipeline.shared := by
  have unprepared : Preparing (SoundJob metadata) (Broken metadata) metadata command.pipeline →
      command.pipeline.state ≠ .initialized := by
    intro preparing ready
    cases preparing with
    | busy _ _ _ _ state => simp [ready] at state
    | broken _ _ _ _ state => simp [ready] at state
    | ready job _ _ _ _ joined sound =>
        have failing := sound.failing failed
        simp [FailingTask, joined] at failing
  have erroneous : ∀ attended : Attended (SoundRun metadata false) metadata command.pipeline,
      command.pipeline.state ≠ .running → ∃ message, command.pipeline.state = .stopped (.error message) := by
    intro attended still
    obtain ⟨⟨run, ended, sound⟩, _⟩ := attended.settled still
    have failing := sound.failing rfl failed
    simpa [RunTask.Failing, ended] using failing
  cases conduct with
  | created _ _ fresh => simp [fresh, ETLPipeline.new] at failed
  | initializing phase _ preparing =>
      simp only [runCommandStep, phase] at stepped
      split_ifs at stepped
      split at stepped
      · rename_i ready
        exact absurd ready (unprepared preparing)
      · obtain rfl := Option.some.inj stepped
        exact .inl ⟨_, rfl, by simp [phase, RunPhase.rank]⟩
  | seeding phase =>
      simp only [runCommandStep, phase, Option.map_eq_some_iff] at stepped
      obtain ⟨pipeline, waited, rfl⟩ := stepped
      refine .inr ⟨phase, rfl, ?_⟩
      cases pipelineStep_moves waited with
      | wait _ same => rcases same with rfl | rfl <;> rfl
  | prepared _ _ preparing ready => exact absurd ready (unprepared preparing)
  | seeded phase _ attended =>
      simp only [runCommandStep, phase, Option.some.injEq] at stepped
      have steps : args.checkpointSteps = none := by
        by_contra some
        rcases resumes phase some with ready | paused
        · obtain ⟨message, stopped⟩ := erroneous attended (by simp [ready])
          simp [ready] at stopped
        · obtain ⟨message, stopped⟩ := erroneous attended (by simp [paused])
          simp [paused] at stopped
      subst stepped
      unfold RunCommand.load
      have unpaused : command.pipeline.state ≠ .paused := by
        intro paused
        obtain ⟨message, stopped⟩ := erroneous attended (by simp [paused])
        simp [paused] at stopped
      have unready : command.pipeline.state ≠ .initialized := by
        intro ready
        obtain ⟨message, stopped⟩ := erroneous attended (by simp [ready])
        simp [ready] at stopped
      rw [if_neg unpaused, steps]
      simp only [perform, ne_eq, unready, not_false_eq_true, if_true]
      exact .inl ⟨_, rfl, by simp [phase, RunPhase.rank]⟩
  | monitoring phase _ attended =>
      simp only [runCommandStep, phase, RunCommand.monitor] at stepped
      by_cases still : command.pipeline.state = .running
      · simp [still] at stepped
      · obtain ⟨message, stopped⟩ := erroneous attended still
        simp only [stopped, Option.some.injEq] at stepped
        subst stepped
        exact .inl ⟨_, rfl, by simp [phase, RunPhase.rank]⟩
  | ended _ phase => simp [runCommandStep, phase] at stepped
  | concluded _ phase => simp [runCommandStep, phase] at stepped

/-- A doomed run stays so, and each of its steps lowers its rank. -/
theorem Doomed.step (doomed : Doomed metadata command) {action : RunCommandAction Table Key Data}
    (admitted : (runCommandMachine config environment metadata args).admits action)
    (resumes : Resumes args command action)
    (stepped : runCommandStep config args command action = some next) :
    Doomed metadata next ∧ commandRank config next < commandRank config command := by
  obtain ⟨conduct, doom⟩ := doomed
  have kept := conduct.step admitted resumes stepped
  have ends : ∀ ending, next.phase = .finished ending → command.phase.rank ≠ 0 →
      Doomed metadata next ∧ commandRank config next < commandRank config command := by
    intro ending ended open_
    refine ⟨⟨kept, .inr ⟨ending, ended⟩⟩, Prod.Lex.toLex_lt_toLex.mpr (.inl ?_)⟩
    have smaller : next.phase.rank < command.phase.rank := by
      rw [ended]
      exact Nat.pos_of_ne_zero open_
    exact smaller
  cases action with
  | etl action =>
      simp only [runCommandStep, Option.map_eq_some_iff] at stepped
      obtain ⟨pipeline, progressed, rfl⟩ := stepped
      obtain ⟨moved, spontaneous, _⟩ := progress_moves progressed admitted
      obtain ⟨lower, grown⟩ := conduct.sound.lowers moved spontaneous
      refine ⟨⟨kept, doom.imp (fun failed => grown.subset failed) id⟩, ?_⟩
      exact Prod.Lex.toLex_lt_toLex.mpr (.inr ⟨rfl, lower⟩)
  | interrupt =>
      simp only [runCommandStep, RunCommand.interrupt] at stepped
      split at stepped
      · rename_i phase
        obtain rfl := Option.some.inj stepped
        exact ends _ rfl (by simp [phase, RunPhase.rank])
      · rename_i phase
        obtain rfl := Option.some.inj stepped
        exact ends _ rfl (by simp [phase, RunPhase.rank])
      · rename_i phase
        obtain rfl := Option.some.inj stepped
        exact ends _ rfl (by simp [phase, RunPhase.rank])
      · simp at stepped
  | fail message =>
      cases phase : command.phase with
      | finished ending => simp [runCommandStep, phase] at stepped
      | _ =>
          obtain rfl : command.finish (.error message) = next := by
            simpa [runCommandStep, phase] using stepped
          exact ends _ rfl (by simp [phase, RunPhase.rank])
  | proceed order validation succeeded =>
      rcases doom with failed | ⟨ending, ended⟩
      · rcases conduct.proceed failed resumes stepped with ⟨ending, ended, open_⟩ | ⟨seeding, loading, same⟩
        · exact ends ending ended open_
        · refine ⟨⟨kept, .inl (same ▸ failed)⟩, Prod.Lex.toLex_lt_toLex.mpr (.inl ?_)⟩
          simp [seeding, loading, RunPhase.rank]
      · simp [runCommandStep, ended] at stepped

/-- Every schedule after a failure is finite. -/
theorem Doomed.terminates (doomed : Doomed metadata command) :
    (resumingMachine config environment metadata args).Terminates command := by
  have steps : ∀ before after : RunCommand Table Key Data, Doomed metadata before →
      (resumingMachine config environment metadata args).Step before after →
      Doomed metadata after ∧ commandRank config after < commandRank config before := by
    intro before after doomed stepped
    obtain ⟨action, admitted, stepped⟩ := stepped
    simp only [resumingMachine] at stepped
    split_ifs at stepped with resumes
    exact doomed.step admitted resumes stepped
  exact Machine.terminates_of_rank wellFounded_lt (commandRank config) (Doomed metadata)
    (fun before after doomed stepped => (steps before after doomed stepped).1)
    (fun before after doomed stepped => (steps before after doomed stepped).2) command doomed

/-- The benchmark can only come to rest at its end. -/
theorem Conduct.rest (conduct : Conduct metadata command) (responds : environment.Responds fun _ _ => True)
    (stuck : (runCommandMachine config environment metadata args).Stuck command) :
    ∃ ending, command.phase = .finished ending := by
  have blocked : ∀ action, (runCommandMachine config environment metadata args).admits action →
      runCommandStep config args command action = none := by
    intro action admitted
    by_contra possible
    obtain ⟨next, stepped⟩ := Option.ne_none_iff_exists'.mp possible
    exact stuck next ⟨action, admitted, stepped⟩
  have resting : (backgroundMachine config environment metadata command.cancelled).Stuck command.pipeline := by
    intro after stepped
    obtain ⟨action, admitted, stepped⟩ := stepped
    have none := blocked (.etl action) admitted
    have progressed : progress config command.cancelled command.pipeline action = some after := stepped
    simp [runCommandStep, progressed] at none
  have answered : Answered environment command.pipeline :=
    ⟨fun _ _ table _ batchId _ => responds table batchId trivial,
      fun _ _ table batchId _ => responds table batchId trivial⟩
  have none := blocked (.proceed metadata.tables .converged true) (List.Perm.refl _)
  have still : ∀ attended : Attended (SoundRun metadata false) metadata command.pipeline,
      command.pipeline.state ≠ .running := by
    intro attended
    have tidy : Tidy metadata command.pipeline := .inr (attended.mono fun _ sound => sound.regular)
    exact (tidy.rest answered resting).2
  cases conduct with
  | created phase => simp [runCommandStep, phase] at none
  | initializing phase _ preparing =>
      have tidy : Tidy metadata command.pipeline :=
        .inl (preparing.mono (fun _ sound => sound.starting) fun _ => trivial)
      obtain ⟨idle, _⟩ := tidy.rest answered resting
      simp only [runCommandStep, phase, idle, Option.isSome_none, Bool.false_eq_true, if_false] at none
      split at none <;> simp at none
  | seeding phase _ attended =>
      obtain ⟨after, waited⟩ := attended.wait_returns config (still attended)
      simp [runCommandStep, phase, waited] at none
  | prepared phase => simp [runCommandStep, phase] at none
  | seeded phase => simp [runCommandStep, phase] at none
  | monitoring phase _ attended =>
      obtain ⟨⟨run, ended, sound⟩, _⟩ := attended.settled (still attended)
      simp only [runCommandStep, phase, RunCommand.monitor] at none
      rcases sound.regular.outcome _ ended with paused | ⟨reason, stopped⟩
      · simp [paused] at none
      · cases reason <;> simp [stopped] at none
  | ended ending phase => exact ⟨ending, phase⟩
  | concluded ending phase => exact ⟨ending, phase⟩

end Ending

/-- In every run that restarts no stopped pipeline, no batch is handed over twice, a run with a failed
read, write or flush ends with an error only and after finitely many steps, and a run comes to rest
only at its end. -/
theorem etl_failure_never_success (config : EtlConfig Key Data) (environment : Environment Table Key Data)
    (metadata : Metadata Table) (args : RunArgs) (command : RunCommand Table Key Data)
    (reached : (resumingMachine config environment metadata args).Reaches (.new metadata) command) :
    (∀ table batchId, command.pipeline.shared.history.count (.handed table batchId) ≤ 1) ∧
    (.failed ∈ command.pipeline.shared.history →
      (∀ ending, command.phase = .finished ending → ending.isErr = true) ∧
      (resumingMachine config environment metadata args).Terminates command) ∧
    (environment.Responds (fun _ _ => True) →
      (runCommandMachine config environment metadata args).Stuck command →
      ∃ ending, command.phase = .finished ending) := by
  have conduct := Conduct.reached reached
  refine ⟨?_, ?_, fun responds stuck => conduct.rest responds stuck⟩
  · intro table batchId
    rw [← count_handedIds]
    exact List.nodup_iff_count_le_one.mp ((conduct.sound.ascending table).imp Nat.ne_of_lt) batchId
  · intro failed
    refine ⟨?_, Doomed.terminates ⟨conduct, .inl failed⟩⟩
    intro ending finished
    cases conduct with
    | ended other phase failure =>
        obtain rfl : other = ending := by simpa [phase] using finished
        exact failure
    | concluded _ _ _ _ _ unfailed => exact absurd failed unfailed
    | created phase => simp [phase] at finished
    | initializing phase => simp [phase] at finished
    | seeding phase => simp [phase] at finished
    | prepared phase => simp [phase] at finished
    | seeded phase => simp [phase] at finished
    | monitoring phase => simp [phase] at finished

/-- Each read may fail or return its batch. -/
def flakyEnvironment : Environment Unit Nat Unit :=
  { sampleEnvironment with
    reads := fun _ batchId outcome => outcome = sampleRead batchId ∨ outcome = .error "connection reset" }

/-- The first batch is read and written, and `initialize` returns. -/
def initActions : List (PipelineAction Unit Nat Unit) :=
  [.initTask () (.firstRead 0 (sampleRead 0)), .initTask () .nextBatch, .initTask () .nextSegment,
    .initTask () (.writeChunk 0 (.ok ())), .initTask () .finish, .initCollect (), .initDone (.ok ())]

theorem initActions_admitted :
    ∀ action ∈ initActions, flakyEnvironment.AdmitsPipeline sampleMetadata action := by
  simp [initActions, Environment.AdmitsPipeline, Environment.AdmitsTask, Environment.AdmitsFlush, flakyEnvironment]

/-- The first run fails to read the second batch. -/
def failedActions : List (PipelineAction Unit Nat Unit) :=
  [.background 0 .start, .background 0 (.loopHead false (.ok ())), .background 0 (.task () .reserve),
    .background 0 (.task () (.join 1 (.error "connection reset"))), .background 0 (.collect ()), .publish 0]

theorem failedActions_admitted :
    ∀ action ∈ failedActions, flakyEnvironment.AdmitsPipeline sampleMetadata action := by
  simp [failedActions, Environment.AdmitsPipeline, Environment.AdmitsRun, Environment.AdmitsTask,
    Environment.AdmitsFlush, flakyEnvironment]

/-- The second run reads both batches and completes. -/
def replayActions : List (PipelineAction Unit Nat Unit) :=
  [.background 1 .start, .background 1 (.loopHead false (.ok ())), .background 1 (.task () .reserve),
    .background 1 (.task () (.join 0 (sampleRead 0))), .background 1 (.task () .reserve),
    .background 1 (.task () (.join 1 (sampleRead 1))), .background 1 (.task () .nextBatch),
    .background 1 (.task () .nextSegment), .background 1 (.task () (.writeChunk 0 (.ok ()))),
    .background 1 (.task () .finish), .background 1 (.collect ()), .background 1 .stepDone,
    .background 1 (.loopHead false (.ok ())), .publish 1]

theorem replayActions_admitted :
    ∀ action ∈ replayActions, flakyEnvironment.AdmitsPipeline sampleMetadata action := by
  simp [replayActions, Environment.AdmitsPipeline, Environment.AdmitsRun, Environment.AdmitsTask,
    Environment.AdmitsFlush, flakyEnvironment]

/-- Every validation converges and every query succeeds. -/
def proceedWell : RunCommandAction Unit Nat Unit := .proceed [()] .converged true

theorem proceedWell_admitted {config : EtlConfig Nat Unit} {environment : Environment Unit Nat Unit} {args : RunArgs} :
    (runCommandMachine config environment sampleMetadata args).admits proceedWell := List.Perm.refl _

/-- Without a base seed the read fails in the load phase. -/
def failedLoad : List (RunCommandAction Unit Nat Unit) :=
  [proceedWell] ++ initActions.map .etl ++ [proceedWell, proceedWell] ++ failedActions.map .etl ++ [proceedWell]

def loadArgs : RunArgs := ⟨⟨2, false⟩, some 5, true, fun _ => true⟩

theorem etl_failure_never_success_load :
    ∃ command, (resumingMachine sampleConfig flakyEnvironment sampleMetadata loadArgs).Reaches
        (.new sampleMetadata) command ∧ .failed ∈ command.pipeline.shared.history ∧
      command.pipeline.shared.history.count (.handed () 0) ≤ 1 ∧
      ∃ ending, command.phase = .finished ending ∧ ending.isErr = true := by
  have ended : ((resumingMachine sampleConfig flakyEnvironment sampleMetadata loadArgs).run
      (.new sampleMetadata) failedLoad).map (fun command => (command.phase, command.pipeline.shared.history)) =
      some (.finished (.outcome (.pipelineFailure "connection reset")), [.handed () 0, .failed]) := by
    decide
  obtain ⟨command, ran, same⟩ := Option.map_eq_some_iff.mp ended
  obtain ⟨phase, history⟩ := Prod.mk.inj same
  have admitted : ∀ action ∈ failedLoad,
      (runCommandMachine sampleConfig flakyEnvironment sampleMetadata loadArgs).admits action := by
    simp only [failedLoad, List.forall_mem_append, List.forall_mem_map]
    refine ⟨⟨⟨⟨?_, initActions_admitted⟩, ?_⟩, failedActions_admitted⟩, ?_⟩
    all_goals simpa using proceedWell_admitted
  have reached := (resumingMachine sampleConfig flakyEnvironment sampleMetadata loadArgs).reaches_of_run admitted ran
  have failed : .failed ∈ command.pipeline.shared.history := by simp [history]
  obtain ⟨once, failure, _⟩ := etl_failure_never_success sampleConfig flakyEnvironment sampleMetadata loadArgs
    command reached
  exact ⟨command, reached, failed, once () 0, _, phase, (failure failed).1 _ phase⟩

/-- With a base seed the read fails there, and the load phase starts over. -/
def failedSeed : List (RunCommandAction Unit Nat Unit) :=
  [proceedWell] ++ initActions.map .etl ++ [proceedWell] ++ failedActions.map .etl ++
    [proceedWell, proceedWell] ++ replayActions.map .etl ++ [proceedWell]

def seedArgs : RunArgs := ⟨⟨2, true⟩, some 5, true, fun _ => true⟩

/-- A failed base seed is replayed from the first batch, and the run is reported as a success. -/
theorem etl_failure_reported_success :
    ∃ command, (runCommandMachine sampleConfig flakyEnvironment sampleMetadata seedArgs).Reaches
        (.new sampleMetadata) command ∧ command.phase = .finished (.outcome .success) ∧
      command.pipeline.shared.history = [.handed () 0, .failed, .handed () 0, .handed () 1] := by
  have ended : ((runCommandMachine sampleConfig flakyEnvironment sampleMetadata seedArgs).run
      (.new sampleMetadata) failedSeed).map (fun command => (command.phase, command.pipeline.shared.history)) =
      some (.finished (.outcome .success), [.handed () 0, .failed, .handed () 0, .handed () 1]) := by
    decide
  obtain ⟨command, ran, same⟩ := Option.map_eq_some_iff.mp ended
  obtain ⟨phase, history⟩ := Prod.mk.inj same
  refine ⟨command, Machine.reaches_of_run _ ?_ ran, phase, history⟩
  simp only [failedSeed, List.forall_mem_append, List.forall_mem_map]
  refine ⟨⟨⟨⟨⟨⟨?_, initActions_admitted⟩, ?_⟩, failedActions_admitted⟩, ?_⟩, replayActions_admitted⟩, ?_⟩
  all_goals simpa using proceedWell_admitted

end Spicebench.Commands
