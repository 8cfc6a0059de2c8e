import Spicebench.Construction.Commands.Load
import Spicebench.Proof.Commands.Failure

namespace Spicebench.Commands
open Library Etl

variable {Table Key Data : Type} [DecidableEq Table]

/-- A background run that is regular is the current task of the pipeline. -/
def Staffed (metadata : Metadata Table) (pipeline : ETLPipeline Table Key Data) : Prop :=
  Attended (fun _ run => Regular run) metadata pipeline

/-- A step of the tasks leaves the channel alone, or sends one value that is never `running`. Before the
first run this value is no pause, and later only a running pipeline sends. -/
inductive Publishes (pipeline next : ETLPipeline Table Key Data) : Prop where
  | silent (state : next.state = pipeline.state) (observed : next.observed = pipeline.observed)
  | prepared (before : pipeline.state = .notStarted) (pauseless : next.state ≠ .paused)
      (still : next.state ≠ .running) (observed : next.observed = pipeline.observed ++ [next.state])
  | ended (before : pipeline.state = .running) (still : next.state ≠ .running)
      (observed : next.observed = pipeline.observed ++ [next.state])

namespace Publishes

variable {pipeline next : ETLPipeline Table Key Data}

omit [DecidableEq Table] in
theorem version_le (publishes : Publishes pipeline next) : pipeline.version ≤ next.version := by
  cases publishes with
  | silent _ observed => simp [ETLPipeline.version, observed]
  | prepared _ _ _ observed => simp [ETLPipeline.version, observed]
  | ended _ _ observed => simp [ETLPipeline.version, observed]

omit [DecidableEq Table] in
/-- A pause is counted when it is sent, and it is sent by a running pipeline only. -/
theorem pauses (publishes : Publishes pipeline next) :
    next.pauses = pipeline.pauses ∧ (next.state = .paused → pipeline.state = .paused) ∧
        (pipeline.state = .paused → next.state = .paused) ∨
      next.pauses = pipeline.pauses + 1 ∧ pipeline.state = .running ∧ next.state = .paused := by
  cases publishes with
  | silent state observed => simp [ETLPipeline.pauses, observed, state]
  | prepared before pauseless still observed =>
      simp [ETLPipeline.pauses, observed, before, pauseless, List.count_append]
  | ended before still observed =>
      by_cases paused : next.state = .paused
      · simp [ETLPipeline.pauses, observed, before, paused, List.count_append]
      · simp [ETLPipeline.pauses, observed, before, paused, List.count_append]

end Publishes

section Publishing

variable {config : EtlConfig Key Data} {environment : Environment Table Key Data} {metadata : Metadata Table}
  {pipeline next : ETLPipeline Table Key Data} {action : PipelineAction Table Key Data}

/-- The tasks of `initialize` send one value at the end. -/
theorem Launching.publishes (launching : Launching metadata pipeline)
    (moved : PipelineMove config pipeline next action) (spontaneous : isSpontaneous action = true) :
    Publishes pipeline next := by
  have early : ∀ job, pipeline.initializing = some job → pipeline.state = .notStarted := by
    intro job running
    cases launching with
    | busy _ _ _ _ state => exact state
    | ready _ _ _ idle => simp [idle] at running
    | broken _ _ _ idle => simp [idle] at running
  cases moved with
  | call => simp [isSpontaneous] at spontaneous
  | wait => simp [isSpontaneous] at spontaneous
  | setBatchBudget => simp [isSpontaneous] at spontaneous
  | initTask _ _ _ _ _ _ _ _ same => exact .silent (by simp [same]) (by simp [same])
  | initCollect _ _ _ _ _ _ same => exact .silent (by simp [same]) (by simp [same])
  | initFail job _ _ busy _ _ same =>
      subst same
      exact .prepared (early job busy) (by simp [ETLPipeline.send]) (by simp [ETLPipeline.send]) rfl
  | initDone job busy _ same =>
      subst same
      exact .prepared (early job busy) (by simp [ETLPipeline.send]) (by simp [ETLPipeline.send]) rfl
  | initFlushFail job _ _ busy _ same =>
      subst same
      exact .prepared (early job busy) (by simp [ETLPipeline.send]) (by simp [ETLPipeline.send]) rfl
  | background _ _ _ _ _ _ found => simp [launching.tasks_nil] at found
  | publish _ _ _ _ found => simp [launching.tasks_nil] at found

/-- The current run sends its outcome at the end. -/
theorem Staffed.publishes (staffed : Staffed metadata pipeline)
    (moved : PipelineMove config pipeline next action) (spontaneous : isSpontaneous action = true) :
    Publishes pipeline next := by
  have busyless : ∀ job : InitJob Table Key Data, pipeline.initializing ≠ some job := by
    simp [staffed.idle]
  obtain ⟨earlier, run, status, tasks, settled, regular, state⟩ := staffed.task
  cases moved with
  | call => simp [isSpontaneous] at spontaneous
  | wait => simp [isSpontaneous] at spontaneous
  | setBatchBudget => simp [isSpontaneous] at spontaneous
  | initTask job _ _ _ _ busy => exact absurd busy (busyless job)
  | initCollect job _ _ busy => exact absurd busy (busyless job)
  | initFail job _ _ busy => exact absurd busy (busyless job)
  | initDone job busy => exact absurd busy (busyless job)
  | initFlushFail job _ _ busy => exact absurd busy (busyless job)
  | background _ _ _ _ _ _ _ _ same => exact .silent (by simp [same]) (by simp [same])
  | publish index other outcome _ found returned same =>
      obtain ⟨rfl, rfl, rfl⟩ := Attended.live_last tasks settled found
      have running : pipeline.state = .running := by
        rcases state with ⟨_, running⟩ | ⟨published, _⟩
        · exact running
        · simp at published
      subst same
      refine .ended running ?_ rfl
      rcases regular.outcome outcome returned with rfl | ⟨reason, rfl⟩
      · simp [ETLPipeline.send]
      · simp [ETLPipeline.send]

theorem Staffed.step (staffed : Staffed metadata pipeline)
    (moved : PipelineMove config pipeline next action) (noCall : ∀ call, action ≠ .call call) :
    Staffed metadata next := by
  exact Attended.step staffed noCall (fun _ _ _ _ _ regular runMoved => regular.step runMoved) moved

omit [DecidableEq Table] in
/-- The state of a staffed pipeline is the one its last run was started with or has returned. -/
theorem Staffed.state (staffed : Staffed metadata pipeline) :
    pipeline.state = .running ∨ pipeline.state = .paused ∨ ∃ reason, pipeline.state = .stopped reason := by
  obtain ⟨_, run, _, _, _, regular, ⟨_, running⟩ | ⟨_, returned⟩⟩ := staffed.task
  · exact .inl running
  · exact .inr (regular.outcome _ returned)

omit [DecidableEq Table] in
/-- Nothing moves in a staffed pipeline that is not running. -/
theorem Staffed.quiet (staffed : Staffed metadata pipeline) (still : pipeline.state ≠ .running) :
    ∀ task ∈ pipeline.tasks, task.status ≠ .live :=
  (Attended.settled staffed still).2

end Publishing

/-- The ordinals are handled in order, each under its own index. -/
def diagonal (count : Nat) : List (Nat × Nat) := (List.range count).map fun ordinal => (ordinal, ordinal)

theorem diagonal_succ (count : Nat) : diagonal (count + 1) = diagonal count ++ [(count, count)] := by
  simp [diagonal, List.range_succ]

@[simp] theorem length_diagonal (count : Nat) : (diagonal count).length = count := by
  simp [diagonal]

/-- This relates the pauses that were sent, handled and continued, whether or not the run has ended. -/
structure Tally (pipeline : ETLPipeline Table Key Data) (handled : List (Nat × Nat))
    (completed : Option (Nat × Nat)) : Prop where
  inOrder : handled = diagonal handled.length
  sent : handled.length ≤ pipeline.pauses
  pending : pipeline.pauses ≤ handled.length + 1
  running : pipeline.state = .running → pipeline.pauses = handled.length
  continued : pipeline.checkpointIdx ≤ handled.length
  completion : ∀ pauses index, completed = some (pauses, index) →
    pipeline.state = .stopped .completed ∧ pauses = pipeline.pauses ∧ pauses = handled.length ∧ index = pauses

/-- While the run goes on, every handled pause was continued and only the current one is unhandled. -/
structure Going (pipeline : ETLPipeline Table Key Data) (handled : List (Nat × Nat))
    (completed : Option (Nat × Nat)) : Prop where
  inOrder : handled = diagonal handled.length
  index : pipeline.checkpointIdx = handled.length
  pauses : pipeline.pauses = handled.length + if pipeline.state = .paused then 1 else 0
  uncompleted : completed = none
  opened : 1 ≤ pipeline.version

/-- The receiver has missed nothing: what it has seen is no pause and no end, or it is being acted on. -/
def Caught (run : LoadRun Table Key Data) : Prop :=
  run.seen ≤ run.command.pipeline.version ∧
    match run.place with
    | .unwatched => False
    | .selecting => run.seen = run.command.pipeline.version → run.command.pipeline.state = .running
    | .woken => True
    | .reading state pauses =>
        run.seen = run.command.pipeline.version ∧ state = run.command.pipeline.state ∧
            pauses = run.command.pipeline.pauses ∨
          run.seen < run.command.pipeline.version ∧ state = .running

/-- The load phase has taken no receiver yet, or one that waits. -/
def Unstarted (run : LoadRun Table Key Data) : Prop :=
  run.handled = [] ∧ (run.place = .unwatched ∨
    run.command.phase = .loading ∧ run.place = .selecting ∧ run.seen ≤ run.command.pipeline.version)

/-- This is where the run stands. -/
inductive Stage (metadata : Metadata Table) (run : LoadRun Table Key Data) : Prop where
  | created (phase : run.command.phase = .created) (fresh : run.command.pipeline = .new metadata)
      (unstarted : Unstarted run)
  | initializing (phase : run.command.phase = .initializing) (launching : Launching metadata run.command.pipeline)
      (unstarted : Unstarted run)
  | seeding (phase : run.command.phase = .seeding) (staffed : Staffed metadata run.command.pipeline)
      (stored : run.command.pipeline.handle ≠ none) (unstarted : Unstarted run)
  | prepared (phase : run.command.phase = .loading) (launching : Launching metadata run.command.pipeline)
      (ready : run.command.pipeline.state = .initialized) (unstarted : Unstarted run)
  | seeded (phase : run.command.phase = .loading) (staffed : Staffed metadata run.command.pipeline)
      (still : run.command.pipeline.state ≠ .running) (unstarted : Unstarted run)
  | monitoring (phase : run.command.phase = .monitoring) (staffed : Staffed metadata run.command.pipeline)
      (caught : Caught run)

/-- The run goes on, or it has ended with a pipeline that may still be running. -/
inductive Watched (metadata : Metadata Table) (run : LoadRun Table Key Data) : Prop where
  | going (going : Going run.command.pipeline run.handled run.completed) (stage : Stage metadata run)
  | finished (ending : Ending) (phase : run.command.phase = .finished ending)
      (orderly : run.command.pipeline = .new metadata ∨ Launching metadata run.command.pipeline ∨
        Staffed metadata run.command.pipeline)
      (tally : Tally run.command.pipeline run.handled run.completed)

section Counts

variable {pipeline next : ETLPipeline Table Key Data} {handled : List (Nat × Nat)} {completed : Option (Nat × Nat)}

omit [DecidableEq Table] in
theorem Going.tally (going : Going pipeline handled completed) : Tally pipeline handled completed where
  inOrder := going.inOrder
  sent := by
    rw [going.pauses]
    omega
  pending := by
    rw [going.pauses]
    split_ifs <;> omega
  running running := by simp [going.pauses, running]
  continued := going.index.le
  completion pauses index completion := by simp [going.uncompleted] at completion

omit [DecidableEq Table] in
/-- A value that a task sends is counted once. -/
theorem Going.publish (going : Going pipeline handled completed) (publishes : Publishes pipeline next)
    (kept : next.checkpointIdx = pipeline.checkpointIdx) : Going next handled completed where
  inOrder := going.inOrder
  index := kept.trans going.index
  pauses := by
    have counted := going.pauses
    rcases publishes.pauses with ⟨same, after, before⟩ | ⟨one, running, paused⟩
    · by_cases paused : pipeline.state = .paused
      · simpa [same, before paused, paused] using counted
      · simpa [same, mt after paused, paused] using counted
    · simpa [one, running, paused] using counted
  uncompleted := going.uncompleted
  opened := going.opened.trans publishes.version_le

omit [DecidableEq Table] in
theorem Tally.publish (tally : Tally pipeline handled completed) (publishes : Publishes pipeline next)
    (kept : next.checkpointIdx = pipeline.checkpointIdx) : Tally next handled completed where
  inOrder := tally.inOrder
  sent := by
    have sent := tally.sent
    rcases publishes.pauses with ⟨same, _⟩ | ⟨one, _⟩
    · omega
    · omega
  pending := by
    have pending := tally.pending
    rcases publishes.pauses with ⟨same, _⟩ | ⟨one, running, _⟩
    · omega
    · have all := tally.running running
      omega
  running running := by
    cases publishes with
    | silent state observed =>
        rw [state] at running
        simpa [ETLPipeline.pauses, observed] using tally.running running
    | prepared _ _ still => exact absurd running still
    | ended _ still => exact absurd running still
  continued := kept ▸ tally.continued
  completion pauses index completion := by
    obtain ⟨ended, rest⟩ := tally.completion pauses index completion
    cases publishes with
    | silent state observed => exact ⟨state.trans ended, by simpa [ETLPipeline.pauses, observed] using rest⟩
    | prepared before => simp [ended] at before
    | ended before => simp [ended] at before

omit [DecidableEq Table] in
/-- A run that is started where every pause was handled keeps the counts. -/
theorem Going.spawn (going : Going pipeline handled completed) (still : pipeline.state ≠ .paused)
    (index : next.checkpointIdx = pipeline.checkpointIdx)
    (observed : next.observed = pipeline.observed ++ [.running]) (running : next.state = .running) :
    Going next handled completed where
  inOrder := going.inOrder
  index := index.trans going.index
  pauses := by
    have counted := going.pauses
    simpa [ETLPipeline.pauses, observed, running, still, List.count_append] using counted
  uncompleted := going.uncompleted
  opened := by simp [ETLPipeline.version, observed]

omit [DecidableEq Table] in
/-- The current pause is handled under its own ordinal. -/
theorem Going.handle (going : Going pipeline handled completed) (paused : pipeline.state = .paused) :
    Tally pipeline (handled ++ [(pipeline.pauses - 1, pipeline.checkpointIdx)]) completed := by
  have counted : pipeline.pauses = handled.length + 1 := by simp [going.pauses, paused]
  have same : handled ++ [(pipeline.pauses - 1, pipeline.checkpointIdx)] = diagonal (handled.length + 1) := by
    rw [diagonal_succ, ← going.inOrder, going.index, counted, Nat.add_sub_cancel]
  rw [same]
  refine ⟨by simp, by simp [counted], by simp [counted], by simp [paused], ?_, ?_⟩
  · rw [length_diagonal, going.index]
    omega
  · simp [going.uncompleted]

omit [DecidableEq Table] in
/-- A pause that was handled is continued once. -/
theorem Going.resume (going : Going pipeline handled completed) (paused : pipeline.state = .paused)
    (index : next.checkpointIdx = pipeline.checkpointIdx + 1)
    (observed : next.observed = pipeline.observed ++ [.running]) (running : next.state = .running) :
    Going next (handled ++ [(pipeline.pauses - 1, pipeline.checkpointIdx)]) completed := by
  have counted := going.pauses
  rw [if_pos paused] at counted
  refine ⟨(going.handle paused).inOrder, ?_, ?_, going.uncompleted, by simp [ETLPipeline.version, observed]⟩
  · simp [index, going.index]
  · have same : next.pauses = pipeline.pauses := by simp [ETLPipeline.pauses, observed, List.count_append]
    simp [same, running, counted]

end Counts

section Steps

variable {config : EtlConfig Key Data} {environment : Environment Table Key Data} {metadata : Metadata Table}
  {args : RunArgs} {run next : LoadRun Table Key Data} {pipeline : ETLPipeline Table Key Data}

omit [DecidableEq Table] in
/-- A value that is sent while the loop holds an older one is unseen. -/
theorem Caught.publish (caught : Caught run) (started : run.command.pipeline.state ≠ .notStarted)
    (publishes : Publishes run.command.pipeline pipeline) :
    Caught { run with command := { run.command with pipeline } } := by
  obtain ⟨command, place, seen, handled, completed⟩ := run
  obtain ⟨behind, held⟩ := caught
  have later := publishes.version_le
  refine ⟨behind.trans later, ?_⟩
  dsimp only at behind held publishes started ⊢
  cases place with
  | unwatched => exact held
  | woken => trivial
  | selecting =>
      intro caughtUp
      cases publishes with
      | silent state observed =>
          rw [state]
          exact held (by simpa [ETLPipeline.version, observed] using caughtUp)
      | prepared _ _ _ observed =>
          simp only [ETLPipeline.version, observed, List.length_append, List.length_singleton] at *
          omega
      | ended _ _ observed =>
          simp only [ETLPipeline.version, observed, List.length_append, List.length_singleton] at *
          omega
  | reading state pauses =>
      rcases held with ⟨caughtUp, same, count⟩ | ⟨missed, running⟩
      · cases publishes with
        | silent kept observed =>
            refine .inl ⟨?_, same.trans kept.symm, ?_⟩
            · simpa [ETLPipeline.version, observed] using caughtUp
            · simpa [ETLPipeline.pauses, observed] using count
        | prepared before => exact absurd before started
        | ended before _ observed =>
            refine .inr ⟨?_, same.trans before⟩
            simp only [ETLPipeline.version, observed, List.length_append, List.length_singleton] at *
            omega
      · exact .inr ⟨lt_of_lt_of_le missed later, running⟩

/-- A step of the tasks keeps the run watched. -/
theorem Watched.etl (watched : Watched metadata run) {action : PipelineAction Table Key Data}
    (admitted : environment.AdmitsPipeline metadata action)
    (stepped : progress config run.command.cancelled run.command.pipeline action = some pipeline) :
    Watched metadata { run with command := { run.command with pipeline } } := by
  obtain ⟨moved, spontaneous, _⟩ := progress_moves stepped admitted
  have noCall := noCall_of_spontaneous spontaneous
  obtain ⟨_, index, handle, _⟩ := PipelineMove.frame moved spontaneous
  -- Nothing moves before `initialize`, nor when it is over and no run was started.
  have restless : run.command.pipeline.initializing = none →
      ∃ task ∈ run.command.pipeline.tasks, task.status = .live := PipelineMove.restless moved spontaneous
  cases watched with
  | finished ending phase orderly tally =>
      rcases orderly with fresh | launching | staffed
      · obtain ⟨task, member, _⟩ := restless (by simp [fresh, ETLPipeline.new])
        simp [fresh, ETLPipeline.new] at member
      · exact .finished ending phase (.inr (.inl (launching.step moved spontaneous admitted)))
          (tally.publish (launching.publishes moved spontaneous) index)
      · exact .finished ending phase (.inr (.inr (staffed.step moved noCall)))
          (tally.publish (staffed.publishes moved spontaneous) index)
  | going going stage =>
      cases stage with
      | created phase fresh =>
          obtain ⟨task, member, _⟩ := restless (by simp [fresh, ETLPipeline.new])
          simp [fresh, ETLPipeline.new] at member
      | initializing phase launching unstarted =>
          have publishes := launching.publishes moved spontaneous
          refine .going (going.publish publishes index)
            (.initializing phase (launching.step moved spontaneous admitted) ⟨unstarted.1, .inl ?_⟩)
          simpa [phase] using unstarted.2
      | seeding phase staffed stored unstarted =>
          have publishes := staffed.publishes moved spontaneous
          refine .going (going.publish publishes index)
            (.seeding phase (staffed.step moved noCall) (handle ▸ stored) ⟨unstarted.1, .inl ?_⟩)
          simpa [phase] using unstarted.2
      | prepared phase launching ready unstarted =>
          have idle : run.command.pipeline.initializing = none := by
            cases launching with
            | busy _ _ _ _ state => simp [ready] at state
            | ready _ _ _ idle => exact idle
            | broken _ _ _ idle => exact idle
          obtain ⟨task, member, _⟩ := restless idle
          simp [launching.tasks_nil] at member
      | seeded phase staffed still unstarted =>
          obtain ⟨task, member, live⟩ := restless staffed.idle
          exact absurd live (staffed.quiet still task member)
      | monitoring phase staffed caught =>
          have publishes := staffed.publishes moved spontaneous
          have started : run.command.pipeline.state ≠ .notStarted := by
            rcases staffed.state with running | paused | ⟨reason, stopped⟩
            · simp [running]
            · simp [paused]
            · simp [stopped]
          exact .going (going.publish publishes index)
            (.monitoring phase (staffed.step moved noCall) (caught.publish started publishes))

theorem Watched.tally (watched : Watched metadata run) :
    Tally run.command.pipeline run.handled run.completed := by
  cases watched with
  | going going _ => exact going.tally
  | finished _ _ _ tally => exact tally

theorem Watched.orderly (watched : Watched metadata run) : run.command.pipeline = .new metadata ∨
    Launching metadata run.command.pipeline ∨ Staffed metadata run.command.pipeline := by
  cases watched with
  | finished _ _ orderly _ => exact orderly
  | going _ stage =>
      cases stage with
      | created _ fresh => exact .inl fresh
      | initializing _ launching => exact .inr (.inl launching)
      | seeding _ staffed => exact .inr (.inr staffed)
      | prepared _ launching => exact .inr (.inl launching)
      | seeded _ staffed => exact .inr (.inr staffed)
      | monitoring _ staffed => exact .inr (.inr staffed)

/-- The first run of an initialized pipeline is its only task. -/
theorem Launching.plan (launching : Launching metadata pipeline) (ready : pipeline.state = .initialized)
    (order : List Table) (stepLimit : Option Nat) : Staffed metadata
      (({ pipeline with batchBudget := stepLimit }.planWork order).spawnRunTask stepLimit) := by
  cases launching with
  | busy _ _ _ _ state => simp [ready] at state
  | broken _ _ _ _ state => simp [ready] at state
  | ready job same tasks idle _ joined starting => exact Attended.plan idle same (by simp [tasks]) (.spawn _)

/-- The first run of a new plan is the only live task of a pipeline that is not running. -/
theorem Staffed.plan (staffed : Staffed metadata pipeline) (still : pipeline.state ≠ .running)
    (order : List Table) (stepLimit : Option Nat) : Staffed metadata
      (({ pipeline with batchBudget := stepLimit }.planWork order).spawnRunTask stepLimit) :=
  Attended.plan staffed.idle staffed.metadata (staffed.quiet still) (.spawn _)

/-- The first call of the command initializes its pipeline. -/
theorem Going.start {order : List Table} (perm : order.Perm metadata.tables)
    (going : Going run.command.pipeline run.handled run.completed)
    (fresh : run.command.pipeline = .new metadata) (unstarted : Unstarted run)
    (created : run.command.phase = .created) :
    Watched metadata { run with command := { run.command with
      phase := .initializing
      pipeline := (perform (.initializePipeline order) run.command.pipeline).2 } } := by
  rw [fresh] at going ⊢
  refine .going ⟨going.inOrder, going.index, going.pauses, going.uncompleted, going.opened⟩ (.initializing rfl ?_ ?_)
  · exact .busy (ETLPipeline.initJob metadata order) rfl rfl rfl rfl (Starting.start perm)
  · exact ⟨unstarted.1, .inl (by simpa [created] using unstarted.2)⟩

/-- After `initialize` the base is seeded, or the load phase follows at once. -/
theorem Going.seed {order : List Table} (going : Going run.command.pipeline run.handled run.completed)
    (launching : Launching metadata run.command.pipeline) (ready : run.command.pipeline.state = .initialized)
    (unstarted : Unstarted run) (initializing : run.command.phase = .initializing) :
    Watched metadata { run with command := run.command.seed args order } := by
  have unwatched : run.place = .unwatched := by simpa [initializing] using unstarted.2
  unfold RunCommand.seed
  split
  · refine .going (going.spawn (by simp [ready]) rfl rfl rfl)
      (.seeding rfl (launching.plan ready order (some args.version.baseRemainder)) ?_ ⟨unstarted.1, .inl unwatched⟩)
    simp [perform, ETLPipeline.spawnRunTask]
  · exact .going going (.prepared rfl launching ready ⟨unstarted.1, .inl unwatched⟩)

/-- The load phase follows the run of the base, which is over by then. -/
theorem Going.seeded (going : Going run.command.pipeline run.handled run.completed)
    (staffed : Staffed metadata run.command.pipeline) (stored : run.command.pipeline.handle ≠ none)
    (unstarted : Unstarted run) (seeding : run.command.phase = .seeding)
    (waited : pipelineStep config run.command.pipeline .wait = some pipeline) :
    Watched metadata { run with command := { run.command with pipeline, phase := .loading } } := by
  have unwatched : run.place = .unwatched := by simpa [seeding] using unstarted.2
  obtain ⟨last, returned, regular⟩ := Attended.waited staffed stored waited
  have still : run.command.pipeline.state ≠ .running := by
    rcases regular.outcome _ returned with paused | ⟨reason, stopped⟩
    · simp [paused]
    · simp [stopped]
  have kept := staffed.step (pipelineStep_moves waited) (by simp)
  cases pipelineStep_moves waited with
  | wait _ same =>
      rcases same with rfl | rfl
      · exact .going going (.seeded rfl kept still ⟨unstarted.1, .inl unwatched⟩)
      · exact .going ⟨going.inOrder, going.index, going.pauses, going.uncompleted, going.opened⟩
          (.seeded rfl kept still ⟨unstarted.1, .inl unwatched⟩)

/-- A paused pipeline is continued on the same plan, and its run is the only live task. -/
theorem Staffed.resume (staffed : Staffed metadata pipeline) (paused : pipeline.state = .paused) :
    ∃ after, perform .continuePipeline pipeline = (.ok, after) ∧ Staffed metadata after ∧
      after.checkpointIdx = pipeline.checkpointIdx + 1 ∧ after.observed = pipeline.observed ++ [.running] ∧
      after.state = .running := by
  have continued : Staffed metadata (perform .continuePipeline pipeline).2 :=
    Attended.resume staffed paused (.spawn pipeline.batchBudget)
  rw [Attended.perform_continue paused] at continued
  exact ⟨_, Attended.perform_continue paused, continued, rfl, rfl, rfl⟩

/-- A run that ends keeps its counts. -/
theorem Watched.finish (watched : Watched metadata run) {command : RunCommand Table Key Data} {ending : Ending}
    (phase : command.phase = .finished ending) (kept : command.pipeline = run.command.pipeline) :
    Watched metadata { run with command } := by
  refine .finished ending phase ?_ ?_
  · rw [kept]
    exact watched.orderly
  · rw [kept]
    exact watched.tally

/-- The pause of the base is validated as the first one, and then the load phase resumes the pipeline. -/
theorem Going.resumeBase (going : Going run.command.pipeline [] run.completed)
    (staffed : Staffed metadata run.command.pipeline) (paused : run.command.pipeline.state = .paused)
    (selecting : run.place = .selecting) (behind : run.seen ≤ run.command.pipeline.version)
    (validation : CheckpointValidationResult) :
    Watched metadata { run with
      command := run.command.resumeBase args validation
      handled := [(run.command.pipeline.pauses - 1, 0)] } := by
  have zero : run.command.pipeline.checkpointIdx = 0 := going.index
  have handled := going.handle paused
  rw [zero, List.nil_append] at handled
  unfold RunCommand.resumeBase
  dsimp only
  generalize noting : (if args.hasCheckpointValidation = true then run.command.validate 0 else run.command) = noted
  obtain ⟨samePipeline, _, _⟩ := RunCommand.validate_keeps noting
  rw [← samePipeline] at staffed paused handled going behind zero ⊢
  split
  · exact .finished _ rfl (.inr (.inr staffed)) handled
  · exact .finished _ rfl (.inr (.inr staffed)) handled
  · -- The budget of the next run changes nothing that is counted.
    have goesOn : ∀ budgeted : ETLPipeline Table Key Data, Staffed metadata budgeted →
        budgeted.state = noted.pipeline.state → budgeted.checkpointIdx = noted.pipeline.checkpointIdx →
        budgeted.observed = noted.pipeline.observed →
        ∃ after, perform .continuePipeline budgeted = (.ok, after) ∧ Watched metadata { run with
          command := { noted with pipeline := after, phase := .monitoring }
          handled := [(noted.pipeline.pauses - 1, 0)] } := by
      intro budgeted budgetStaffed state index observed
      obtain ⟨after, performed, continued, next, sent, running⟩ := budgetStaffed.resume (state.trans paused)
      rw [index] at next
      rw [observed] at sent
      have resumed := going.resume paused next sent running
      rw [zero, List.nil_append] at resumed
      refine ⟨after, performed, .going resumed (.monitoring rfl continued ⟨?_, ?_⟩)⟩
      · simp only [ETLPipeline.version, sent, List.length_append] at behind ⊢
        omega
      · simp [selecting, running]
    cases args.checkpointSteps with
    | none =>
        obtain ⟨after, performed, watched⟩ := goesOn noted.pipeline staffed rfl rfl rfl
        simp only [performed]
        exact watched
    | some steps =>
        obtain ⟨after, performed, watched⟩ := goesOn (noted.pipeline.setBatchBudget steps)
          (staffed.setBatchBudget steps) rfl rfl rfl
        simp only [performed]
        exact watched

/-- A run that the load phase starts is watched from its first value on. -/
theorem Going.monitor (going : Going run.command.pipeline run.handled run.completed)
    (still : run.command.pipeline.state ≠ .paused) (selecting : run.place = .selecting)
    (behind : run.seen ≤ run.command.pipeline.version) (staffed : Staffed metadata pipeline)
    (index : pipeline.checkpointIdx = run.command.pipeline.checkpointIdx)
    (observed : pipeline.observed = run.command.pipeline.observed ++ [.running])
    (running : pipeline.state = .running) :
    Watched metadata { run with command := { run.command with pipeline, phase := .monitoring } } := by
  refine .going (going.spawn still index observed running) (.monitoring rfl staffed ⟨?_, ?_⟩)
  · simp only [ETLPipeline.version, observed, List.length_append] at behind ⊢
    omega
  · simp [selecting, running]

/-- The load phase resumes the pause that it finds, or starts a run with all pauses handled. -/
theorem Watched.load (watched : Watched metadata run) (loading : run.command.phase = .loading)
    (place : run.place ≠ .unwatched) (order : List Table) (validation : CheckpointValidationResult)
    (succeeded : Bool) :
    Watched metadata { run with
      command := run.command.load args order validation
      handled := run.handled ++ run.noteBase (.proceed order validation succeeded) } := by
  have stage : Going run.command.pipeline run.handled run.completed ∧ Unstarted run ∧
      (Staffed metadata run.command.pipeline ∧ run.command.pipeline.state ≠ .running ∨
        Launching metadata run.command.pipeline ∧ run.command.pipeline.state = .initialized) := by
    cases watched with
    | finished _ phase => simp [loading] at phase
    | going going stage =>
        cases stage with
        | prepared _ launching ready unstarted => exact ⟨going, unstarted, .inr ⟨launching, ready⟩⟩
        | seeded _ staffed still unstarted => exact ⟨going, unstarted, .inl ⟨staffed, still⟩⟩
        | created phase => simp [loading] at phase
        | initializing phase => simp [loading] at phase
        | seeding phase => simp [loading] at phase
        | monitoring phase => simp [loading] at phase
  obtain ⟨going, ⟨unhandled, waiting⟩, stage⟩ := stage
  obtain ⟨_, selecting, behind⟩ := waiting.resolve_left place
  unfold RunCommand.load
  split_ifs with paused
  · have staffed : Staffed metadata run.command.pipeline := by
      rcases stage with ⟨staffed, _⟩ | ⟨_, ready⟩
      · exact staffed
      · simp [paused] at ready
    have base : run.handled ++ run.noteBase (.proceed order validation succeeded) =
        [(run.command.pipeline.pauses - 1, 0)] := by
      simp [unhandled, LoadRun.noteBase, loading, paused]
    rw [base]
    rw [unhandled] at going
    exact going.resumeBase staffed paused selecting behind validation
  · have base : run.handled ++ run.noteBase (.proceed order validation succeeded) = run.handled := by
      simp [LoadRun.noteBase, paused]
    have plan : ∀ stepLimit : Option Nat, Staffed metadata
        (({ run.command.pipeline with batchBudget := stepLimit }.planWork order).spawnRunTask stepLimit) := by
      intro stepLimit
      rcases stage with ⟨staffed, still⟩ | ⟨launching, ready⟩
      · exact staffed.plan still order stepLimit
      · exact launching.plan ready order stepLimit
    rw [base]
    cases steps : args.checkpointSteps with
    | some limit => exact going.monitor paused selecting behind (plan (some limit)) rfl rfl rfl
    | none =>
        by_cases ready : run.command.pipeline.state = .initialized
        · have performed : perform (.start order) run.command.pipeline = (.ok,
              ({ run.command.pipeline with batchBudget := none }.planWork order).spawnRunTask none) :=
            if_neg (not_not.mpr ready)
          simp only [performed]
          exact going.monitor paused selecting behind (plan none) rfl rfl rfl
        · obtain ⟨message, refused⟩ : ∃ message, perform (.start order) run.command.pipeline =
              (.err message, run.command.pipeline) := ⟨_, if_pos ready⟩
          simp only [refused]
          exact watched.finish rfl rfl

/-- A pause is handled under its own ordinal and continued once, unless its validation breaks the run off. -/
theorem Going.pause (going : Going run.command.pipeline run.handled run.completed)
    (monitoring : run.command.phase = .monitoring) (staffed : Staffed metadata run.command.pipeline)
    (paused : run.command.pipeline.state = .paused) (behind : run.seen ≤ run.command.pipeline.version)
    (validation : CheckpointValidationResult) :
    Watched metadata { run with
      command := run.command.pause args validation
      place := .selecting
      handled := run.handled ++ [(run.command.pipeline.pauses - 1, run.command.pipeline.checkpointIdx)] } := by
  have handled := going.handle paused
  obtain ⟨after, performed, continued, index, observed, running⟩ := staffed.resume paused
  unfold RunCommand.pause
  dsimp only
  generalize noting : (if run.command.checked args = true then
    run.command.validate run.command.pipeline.checkpointIdx else run.command) = noted
  obtain ⟨samePipeline, _, samePhase⟩ := RunCommand.validate_keeps noting
  rw [← samePipeline] at staffed handled going behind performed index observed ⊢
  rw [← samePhase] at monitoring
  split
  · exact .finished _ rfl (.inr (.inr staffed)) handled
  · exact .finished _ rfl (.inr (.inr staffed)) handled
  · simp only [performed]
    rw [← samePipeline] at paused
    refine .going (going.resume paused index observed running) (.monitoring monitoring continued ⟨?_, ?_⟩)
    · simp only [ETLPipeline.version, observed, List.length_append] at behind ⊢
      omega
    · simp [running]

/-- The completion is validated under the number of pauses before it, and the run ends. -/
theorem Going.complete (going : Going run.command.pipeline run.handled run.completed)
    (staffed : Staffed metadata run.command.pipeline)
    (completed : run.command.pipeline.state = .stopped .completed)
    (validation : CheckpointValidationResult) (succeeded : Bool) :
    Watched metadata { run with
      command := run.command.complete args validation succeeded
      place := .selecting
      completed := some (run.command.pipeline.pauses, run.command.pipeline.checkpointIdx) } := by
  have counted : run.command.pipeline.pauses = run.handled.length := by simp [going.pauses, completed]
  have tally : Tally run.command.pipeline run.handled
      (some (run.command.pipeline.pauses, run.command.pipeline.checkpointIdx)) := by
    refine ⟨going.inOrder, counted.ge, by omega, fun _ => counted, going.index.le, ?_⟩
    rintro pauses index same
    obtain ⟨rfl, rfl⟩ := Prod.mk.inj (Option.some.inj same)
    exact ⟨completed, rfl, counted, going.index.trans counted.symm⟩
  unfold RunCommand.complete
  dsimp only
  generalize noting : (if run.command.checked args = true then
    run.command.validate run.command.pipeline.checkpointIdx else run.command) = noted
  obtain ⟨samePipeline, _, _⟩ := RunCommand.validate_keeps noting
  rw [← samePipeline] at staffed tally ⊢
  split
  · exact .finished _ rfl (.inr (.inr staffed)) tally
  · exact .finished _ rfl (.inr (.inr staffed)) tally
  · exact .finished _ rfl (.inr (.inr staffed)) tally

omit [DecidableEq Table] in
/-- Unless the loop acts on an older value, it acts on the current one. -/
theorem Caught.current {state : PipelineState} {pauses : Nat} (caught : Caught run)
    (reading : run.place = .reading state pauses) (still : state ≠ .running) :
    state = run.command.pipeline.state ∧ pauses = run.command.pipeline.pauses := by
  have held := caught.2
  rw [reading] at held
  rcases held with ⟨_, same, count⟩ | ⟨_, running⟩
  · exact ⟨same, count⟩
  · exact absurd running still

omit [DecidableEq Table] in
/-- The loop goes back to `select!` without an unhandled value that it has seen. -/
theorem Caught.select {state : PipelineState} {pauses : Nat} (caught : Caught run)
    (reading : run.place = .reading state pauses) (running : state = .running) :
    Caught { run with place := .selecting } := by
  have held := caught.2
  rw [reading] at held
  refine ⟨caught.1, fun caughtUp => ?_⟩
  rcases held with ⟨_, same, _⟩ | ⟨missed, _⟩
  · exact same.symm.trans running
  · dsimp only at caughtUp
    omega

/-- These facts hold in the loop. -/
theorem Watched.monitoring (watched : Watched metadata run) (monitoring : run.command.phase = .monitoring) :
    Going run.command.pipeline run.handled run.completed ∧ Staffed metadata run.command.pipeline ∧
      Caught run := by
  cases watched with
  | finished _ phase => simp [monitoring] at phase
  | going going stage =>
      cases stage with
      | monitoring _ staffed caught => exact ⟨going, staffed, caught⟩
      | created phase => simp [monitoring] at phase
      | initializing phase => simp [monitoring] at phase
      | seeding phase => simp [monitoring] at phase
      | prepared phase => simp [monitoring] at phase
      | seeded phase => simp [monitoring] at phase

/-- The loop acts on what it has read. -/
theorem Watched.act (watched : Watched metadata run) (monitoring : run.command.phase = .monitoring)
    {state : PipelineState} {pauses : Nat} (reading : run.place = .reading state pauses)
    (validation : CheckpointValidationResult) (succeeded : Bool) :
    Watched metadata (run.act args state pauses validation succeeded) := by
  obtain ⟨going, staffed, caught⟩ := watched.monitoring monitoring
  cases state with
  | paused =>
      obtain ⟨same, rfl⟩ := caught.current reading (by simp)
      exact going.pause monitoring staffed same.symm caught.1 validation
  | stopped reason =>
      obtain ⟨same, rfl⟩ := caught.current reading (by simp)
      cases reason with
      | completed => exact going.complete staffed same.symm validation succeeded
      | error message => exact .finished _ rfl (.inr (.inr staffed)) going.tally
      | cancelled => exact .finished _ rfl (.inr (.inr staffed)) going.tally
  | running => exact .going going (.monitoring monitoring staffed (caught.select reading rfl))
  | notStarted =>
      obtain ⟨same, _⟩ := caught.current reading (by simp)
      rcases staffed.state with running | paused | ⟨reason, stopped⟩
      · simp [running] at same
      · simp [paused] at same
      · simp [stopped] at same
  | initialized =>
      obtain ⟨same, _⟩ := caught.current reading (by simp)
      rcases staffed.state with running | paused | ⟨reason, stopped⟩
      · simp [running] at same
      · simp [paused] at same
      · simp [stopped] at same

/-- A step of the command outside of the loop keeps the run watched. -/
theorem Watched.command (watched : Watched metadata run) {action : RunCommandAction Table Key Data}
    {command : RunCommand Table Key Data}
    (admitted : (runCommandMachine config environment metadata args).admits action)
    (permitted : run.permits action = true)
    (stepped : runCommandStep config args run.command action = some command) :
    Watched metadata { run with command, handled := run.handled ++ run.noteBase action } := by
  have quiet : run.noteBase action = [] → Watched metadata { run with command } →
      Watched metadata { run with command, handled := run.handled ++ run.noteBase action } := by
    intro nothing kept
    rw [nothing, List.append_nil]
    exact kept
  cases action with
  | etl action =>
      simp only [runCommandStep, Option.map_eq_some_iff] at stepped
      obtain ⟨pipeline, progressed, rfl⟩ := stepped
      exact quiet rfl (watched.etl admitted progressed)
  | interrupt =>
      apply quiet rfl
      simp only [runCommandStep, RunCommand.interrupt] at stepped
      split at stepped
      · exact Option.some.inj stepped ▸ watched.finish rfl rfl
      · exact Option.some.inj stepped ▸ watched.finish rfl rfl
      · exact Option.some.inj stepped ▸ watched.finish rfl rfl
      · simp at stepped
  | fail message =>
      apply quiet rfl
      have broken : command = run.command.finish (.error message) := by
        cases phase : run.command.phase with
        | finished ending => simp [runCommandStep, phase] at stepped
        | _ => simpa [runCommandStep, phase] using stepped.symm
      rw [broken]
      exact watched.finish rfl rfl
  | proceed order validation succeeded =>
      have unnoted : run.command.phase ≠ .loading → run.noteBase (.proceed order validation succeeded) = [] := by
        intro other
        simp [LoadRun.noteBase, other]
      cases phase : run.command.phase with
      | finished ending => simp [runCommandStep, phase] at stepped
      | monitoring => simp [LoadRun.permits, phase] at permitted
      | loading =>
          simp only [runCommandStep, phase, Option.some.injEq] at stepped
          subst stepped
          exact watched.load phase (by simpa [LoadRun.permits, phase] using permitted) order validation succeeded
      | created =>
          apply quiet (unnoted (by simp [phase]))
          simp only [runCommandStep, phase, Option.some.injEq] at stepped
          subst stepped
          cases watched with
          | finished _ other => simp [phase] at other
          | going going stage =>
              cases stage with
              | created _ fresh unstarted => exact going.start admitted fresh unstarted phase
              | initializing other => simp [phase] at other
              | seeding other => simp [phase] at other
              | prepared other => simp [phase] at other
              | seeded other => simp [phase] at other
              | monitoring other => simp [phase] at other
      | initializing =>
          apply quiet (unnoted (by simp [phase]))
          simp only [runCommandStep, phase] at stepped
          split_ifs at stepped
          split at stepped
          · rename_i ready
            obtain rfl := Option.some.inj stepped
            cases watched with
            | finished _ other => simp [phase] at other
            | going going stage =>
                cases stage with
                | initializing _ launching unstarted => exact going.seed launching ready unstarted phase
                | created other => simp [phase] at other
                | seeding other => simp [phase] at other
                | prepared other => simp [phase] at other
                | seeded other => simp [phase] at other
                | monitoring other => simp [phase] at other
          · obtain rfl := Option.some.inj stepped
            exact watched.finish rfl rfl
      | seeding =>
          apply quiet (unnoted (by simp [phase]))
          simp only [runCommandStep, phase, Option.map_eq_some_iff] at stepped
          obtain ⟨pipeline, waited, rfl⟩ := stepped
          cases watched with
          | finished _ other => simp [phase] at other
          | going going stage =>
              cases stage with
              | seeding _ staffed stored unstarted => exact going.seeded staffed stored unstarted phase waited
              | created other => simp [phase] at other
              | initializing other => simp [phase] at other
              | prepared other => simp [phase] at other
              | seeded other => simp [phase] at other
              | monitoring other => simp [phase] at other

end Steps

namespace Watched

variable {config : EtlConfig Key Data} {environment : Environment Table Key Data} {metadata : Metadata Table}
  {args : RunArgs} {run next : LoadRun Table Key Data}

/-- The receiver is taken before the loop, and has seen no more than was sent. -/
theorem stateWatch (watched : Watched metadata run) (loading : run.command.phase = .loading) :
    Watched metadata { run with place := .selecting, seen := run.command.pipeline.stateWatch } := by
  cases watched with
  | finished _ phase => simp [loading] at phase
  | going going stage =>
      cases stage with
      | prepared _ launching ready unstarted =>
          exact .going going (.prepared loading launching ready ⟨unstarted.1, .inr ⟨loading, rfl, going.opened⟩⟩)
      | seeded _ staffed still unstarted =>
          exact .going going (.seeded loading staffed still ⟨unstarted.1, .inr ⟨loading, rfl, going.opened⟩⟩)
      | created phase => simp [loading] at phase
      | initializing phase => simp [loading] at phase
      | seeding phase => simp [loading] at phase
      | monitoring phase => simp [loading] at phase

/-- Every step keeps the run watched. -/
theorem step (watched : Watched metadata run) {action : LoadAction Table Key Data}
    (admitted : (loadMachine config environment metadata args).admits action)
    (stepped : loadStep config args run action = some next) : Watched metadata next := by
  cases action with
  | command action =>
      simp only [loadStep, Option.ite_none_right_eq_some, Option.map_eq_some_iff] at stepped
      obtain ⟨permitted, command, stepped, rfl⟩ := stepped
      exact watched.command admitted permitted stepped
  | stateWatch =>
      simp only [loadStep, Option.ite_none_right_eq_some, Option.some.injEq] at stepped
      obtain ⟨⟨loading, _⟩, rfl⟩ := stepped
      exact watched.stateWatch loading
  | changed =>
      simp only [loadStep, Option.ite_none_right_eq_some, Option.some.injEq] at stepped
      obtain ⟨⟨monitoring, _⟩, rfl⟩ := stepped
      obtain ⟨going, staffed, _⟩ := watched.monitoring monitoring
      exact .going going (.monitoring monitoring staffed ⟨le_rfl, trivial⟩)
  | borrowAndUpdate =>
      simp only [loadStep, Option.ite_none_right_eq_some, Option.some.injEq] at stepped
      obtain ⟨⟨monitoring, _⟩, rfl⟩ := stepped
      obtain ⟨going, staffed, _⟩ := watched.monitoring monitoring
      exact .going going (.monitoring monitoring staffed ⟨le_rfl, .inl ⟨rfl, rfl, rfl⟩⟩)
  | act validation succeeded =>
      simp only [loadStep] at stepped
      split at stepped
      · rename_i monitoring reading
        exact Option.some.inj stepped ▸ watched.act monitoring reading validation succeeded
      · simp at stepped

theorem reached (path : (loadMachine config environment metadata args).Reaches (.new metadata) run) :
    Watched metadata run := by
  apply Machine.Reaches.invariant (Watched metadata) ?_ path
  · exact .going ⟨rfl, rfl, rfl, rfl, le_rfl⟩ (.created rfl rfl ⟨rfl, .inl rfl⟩)
  · intro before after watched stepped
    obtain ⟨action, admitted, stepped⟩ := stepped
    exact watched.step admitted stepped

/-- The loop comes to act on a value that is not `running`, with its own steps only. -/
theorem attends (watched : Watched metadata run) (config : EtlConfig Key Data)
    (environment : Environment Table Key Data) (args : RunArgs) (monitoring : run.command.phase = .monitoring)
    (still : run.command.pipeline.state ≠ .running) :
    ∃ actions reader, (∀ action ∈ actions, action.isLoop = true) ∧
      (loadMachine config environment metadata args).run run actions = some reader ∧
      reader.command = run.command ∧ reader.handled = run.handled ∧
      reader.place = .reading run.command.pipeline.state run.command.pipeline.pauses := by
  obtain ⟨going, staffed, behind, held⟩ := watched.monitoring monitoring
  have fromSelect : ∀ waiting : LoadRun Table Key Data, waiting.command = run.command →
      waiting.place = .selecting → waiting.seen < run.command.pipeline.version →
      (loadMachine config environment metadata args).run waiting [.changed, .borrowAndUpdate] =
        some { waiting with
          place := .reading run.command.pipeline.state run.command.pipeline.pauses
          seen := run.command.pipeline.version } := by
    intro waiting same selecting unseen
    simp [Machine.run_cons, loadMachine, loadStep, same, monitoring, selecting, unseen.ne]
  cases place : run.place with
  | unwatched => simp [place] at held
  | selecting =>
      simp only [place] at held
      have unseen : run.seen < run.command.pipeline.version :=
        lt_of_le_of_ne behind fun caughtUp => still (held caughtUp)
      exact ⟨_, _, by simp [LoadAction.isLoop], fromSelect run rfl place unseen, rfl, rfl, rfl⟩
  | woken =>
      refine ⟨[.borrowAndUpdate], { run with
        place := .reading run.command.pipeline.state run.command.pipeline.pauses
        seen := run.command.pipeline.version }, by simp [LoadAction.isLoop], ?_, rfl, rfl, rfl⟩
      simp [Machine.run_cons, loadMachine, loadStep, monitoring, place]
  | reading state pauses =>
      simp only [place] at held
      rcases held with ⟨_, rfl, rfl⟩ | ⟨unseen, rfl⟩
      · exact ⟨[], run, by simp, rfl, rfl, rfl, place⟩
      · -- The value in hand is an older `running`, so the loop goes round once more.
        refine ⟨[.act .converged true, .changed, .borrowAndUpdate], _, by simp [LoadAction.isLoop],
          (?_ : _ = some { run with
            place := .reading run.command.pipeline.state run.command.pipeline.pauses
            seen := run.command.pipeline.version }), rfl, rfl, rfl⟩
        have again := fromSelect { run with place := .selecting } rfl rfl unseen
        rw [Machine.run_cons]
        simpa [loadMachine, loadStep, monitoring, place, LoadRun.act] using again

end Watched

section Result

variable {config : EtlConfig Key Data} {environment : Environment Table Key Data} {metadata : Metadata Table}
  {args : RunArgs} {run : LoadRun Table Key Data}

/-- With its receiver and its interleaved publications the load phase takes no step that the benchmark
of `runCommandMachine` does not take. -/
theorem LoadRun.refines (path : (loadMachine config environment metadata args).Reaches (.new metadata) run) :
    (runCommandMachine config environment metadata args).Reaches (.new metadata) run.command := by
  induction path with
  | refl => exact .refl
  | @tail before after path last ih =>
      obtain ⟨action, admitted, stepped⟩ := last
      have watched := Watched.reached path
      cases action with
      | command action =>
          simp only [loadMachine, loadStep, Option.ite_none_right_eq_some, Option.map_eq_some_iff] at stepped
          obtain ⟨_, command, stepped, rfl⟩ := stepped
          exact ih.tail ⟨action, admitted, stepped⟩
      | stateWatch =>
          simp only [loadMachine, loadStep, Option.ite_none_right_eq_some, Option.some.injEq] at stepped
          obtain ⟨_, rfl⟩ := stepped
          exact ih
      | changed =>
          simp only [loadMachine, loadStep, Option.ite_none_right_eq_some, Option.some.injEq] at stepped
          obtain ⟨_, rfl⟩ := stepped
          exact ih
      | borrowAndUpdate =>
          simp only [loadMachine, loadStep, Option.ite_none_right_eq_some, Option.some.injEq] at stepped
          obtain ⟨_, rfl⟩ := stepped
          exact ih
      | act validation succeeded =>
          simp only [loadMachine, loadStep] at stepped
          split at stepped
          · rename_i state pauses monitoring reading
            obtain rfl := Option.some.inj stepped
            obtain ⟨_, _, caught⟩ := watched.monitoring monitoring
            -- The value in hand is the current one, unless it is `running` and nothing is done about it.
            have acts : ∀ command, state ≠ .running →
                before.command.monitor args validation succeeded = some command →
                (runCommandMachine config environment metadata args).Reaches (.new metadata) command := by
              intro command _ monitored
              exact ih.tail ⟨.proceed metadata.tables validation succeeded, List.Perm.refl _,
                by simpa [runCommandMachine, runCommandStep, monitoring] using monitored⟩
            cases state with
            | paused =>
                have current := (caught.current reading (by simp)).1
                exact acts _ (by simp) (by simp [RunCommand.monitor, ← current, LoadRun.act])
            | stopped reason =>
                have current := (caught.current reading (by simp)).1
                cases reason with
                | completed => exact acts _ (by simp) (by simp [RunCommand.monitor, ← current, LoadRun.act])
                | error message => exact acts _ (by simp) (by simp [RunCommand.monitor, ← current, LoadRun.act])
                | cancelled => exact acts _ (by simp) (by simp [RunCommand.monitor, ← current, LoadRun.act])
            | running => exact ih
            | notStarted => exact ih
            | initialized => exact ih
          · simp at stepped

/-- The loop acts on a value that is not `running`, with its own steps only. -/
theorem Watched.acts (watched : Watched metadata run) (config : EtlConfig Key Data)
    (environment : Environment Table Key Data) (args : RunArgs) (monitoring : run.command.phase = .monitoring)
    (still : run.command.pipeline.state ≠ .running) (validation : CheckpointValidationResult) (succeeded : Bool) :
    ∃ (actions : List (LoadAction Table Key Data)) (reader : LoadRun Table Key Data),
      (∀ action ∈ actions, action.isLoop = true) ∧
      (loadMachine config environment metadata args).run run (actions ++ [.act validation succeeded]) =
        some (reader.act args run.command.pipeline.state run.command.pipeline.pauses validation succeeded) ∧
      reader.command = run.command ∧ reader.handled = run.handled := by
  obtain ⟨actions, reader, own, ran, same, handled, reading⟩ :=
    watched.attends config environment args monitoring still
  refine ⟨actions, reader, own, ?_, same, handled⟩
  rw [Machine.run_append, ran]
  simp [Machine.run_cons, loadMachine, loadStep, same, monitoring, reading]

end Result

end Spicebench.Commands
