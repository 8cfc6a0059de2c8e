import Mathlib.Data.List.Chain
import Spicebench.Proof.Etl.Boundary
import Spicebench.Proof.Etl.Pipeline

namespace Spicebench.Etl
open Library DataGeneration

variable {Table Key Data : Type} [DecidableEq Table]

/-- The call is made in a state from which it may succeed. -/
def Call.AllowedIn : Call Table → PipelineState → Prop
  | .initializePipeline _, state => state = .notStarted
  | .start _, state => state = .initialized
  | .run _ _, state => state = .notStarted ∨ state = .initialized
  | .continuePipeline, state => state = .paused

/-- Every `run` call of the trace is made in a state from which it may succeed. -/
def RunsAllowed (config : EtlConfig Key Data) :
    ETLPipeline Table Key Data → List (PipelineAction Table Key Data) → Prop
  | _, [] => True
  | pipeline, action :: rest =>
      (∀ stepCount order, action = .call (.run stepCount order) →
        (Call.run stepCount order).AllowedIn pipeline.state) ∧
      ∀ next, pipelineStep config pipeline action = some next → RunsAllowed config next rest

/-- One observed state may follow another while no `initialize` fails. -/
inductive Follows : PipelineState → PipelineState → Prop where
  | initialized : Follows .notStarted .initialized
  | firstRun : Follows .notStarted .running
  | firstStart : Follows .initialized .running
  | paused : Follows .running .paused
  | resumed : Follows .paused .running
  | stopped (reason : StopReason) : Follows .running (.stopped reason)

/-- An `initialize` that fails stops the pipeline at once. -/
inductive FollowsOrInitFailed : PipelineState → PipelineState → Prop where
  | follows {before after : PipelineState} (regular : Follows before after) : FollowsOrInitFailed before after
  | initFailed (message : String) : FollowsOrInitFailed .notStarted (.stopped (.error message))

/-- The observed values begin with `NotStarted`, follow each other, and end with the current state. -/
def ObservedInOrder (pipeline : ETLPipeline Table Key Data) : Prop :=
  pipeline.observed.head? = some .notStarted ∧ pipeline.observed.IsChain FollowsOrInitFailed ∧
    pipeline.observed.getLast? = some pipeline.state

/-- This is the invariant of the pipeline object, in every environment. -/
structure Lifecycle (pipeline : ETLPipeline Table Key Data) : Prop where
  observed : ObservedInOrder pipeline
  initializing : pipeline.initializing.isSome → pipeline.state = .notStarted
  unstarted : pipeline.state = .notStarted ∨ pipeline.state = .initialized → pipeline.tasks = []
  live : ∀ (index : Nat) task, pipeline.tasks[index]? = some task → task.status = .live →
    index + 1 = pipeline.tasks.length ∧ pipeline.state = .running
  unaborted : ∀ task ∈ pipeline.tasks, task.status ≠ .aborted
  outcomes : ∀ task ∈ pipeline.tasks, ∀ outcome, task.run.phase = .returned outcome →
    outcome = .paused ∨ ∃ reason, outcome = .stopped reason

/-- A run returns only `Paused` or `Stopped`. -/
theorem RunMove.outcome {config : EtlConfig Key Data} {shared next : Shared Table Key Data}
    {run after : RunTask Table Key Data} {action : RunAction Table Key Data}
    (moved : RunMove config shared next run after action) {outcome : PipelineState}
    (ended : after.phase = .returned outcome) : outcome = .paused ∨ ∃ reason, outcome = .stopped reason := by
  cases moved with
  | start _ _ begun => simp [begun] at ended
  | giveUp _ _ _ given _ returned spent =>
      have same : given = outcome := by simpa [returned] using ended
      subst same
      rcases spent with ⟨_, ⟨stopped, _⟩ | ⟨_, paused⟩ | ⟨_, either⟩⟩ | ⟨_, _, message, failed⟩
      · exact .inr ⟨_, stopped⟩
      · exact .inl paused
      · rw [either]
        split_ifs
        · exact .inl rfl
        · exact .inr ⟨_, rfl⟩
      · exact .inr ⟨_, failed⟩
  | pop _ _ _ _ _ _ _ _ _ begun =>
      rw [begun] at ended
      dsimp only at ended
      split_ifs at ended
  | task _ _ _ _ _ _ _ _ _ _ begun => simp [begun] at ended
  | collect _ _ _ _ _ _ _ _ _ _ begun => simp [begun] at ended
  | collectError _ _ _ _ _ _ _ _ _ _ begun =>
      rw [begun] at ended
      exact .inr ⟨_, (Phase.returned.inj ended).symm⟩
  | stepDone _ _ _ _ _ begun => simp [begun] at ended
  | cancel _ _ _ _ _ _ begun =>
      rw [begun] at ended
      exact .inr ⟨_, (Phase.returned.inj ended).symm⟩

namespace Lifecycle

variable {config : EtlConfig Key Data} {pipeline after : ETLPipeline Table Key Data}

omit [DecidableEq Table] in
/-- Sending a state that may follow keeps the observed order. -/
theorem observed_send (ordered : ObservedInOrder pipeline) {state : PipelineState}
    (follows : FollowsOrInitFailed pipeline.state state) : ObservedInOrder (pipeline.send state) := by
  obtain ⟨head, chain, last⟩ := ordered
  refine ⟨?_, ?_, ?_⟩
  · simp [ETLPipeline.send, List.head?_append, head]
  · apply List.isChain_append.mpr
    refine ⟨chain, List.isChain_singleton state, ?_⟩
    intro before isLast next isFirst
    rw [last] at isLast
    obtain rfl := Option.some.inj isLast
    obtain rfl : state = next := by simpa using isFirst
    exact follows
  · simp [ETLPipeline.send]

omit [DecidableEq Table] in
theorem no_live (lifecycle : Lifecycle pipeline) (still : pipeline.state ≠ .running) :
    ∀ task ∈ pipeline.tasks, task.status ≠ .live := by
  intro task member alive
  obtain ⟨index, inside, rfl⟩ := List.mem_iff_getElem.mp member
  exact still (lifecycle.live index _ (List.getElem?_eq_getElem inside) alive).2

omit [DecidableEq Table] in
/-- Spawning a run task keeps the invariant when no task is live. -/
theorem spawn (lifecycle : Lifecycle pipeline) (next : ETLPipeline Table Key Data)
    (still : pipeline.state ≠ .running) (follows : Follows pipeline.state .running)
    (idle : pipeline.initializing = none) (sameState : next.state = pipeline.state)
    (sameObserved : next.observed = pipeline.observed) (sameTasks : next.tasks = pipeline.tasks)
    (sameInitializing : next.initializing = pipeline.initializing) (stepLimit : Option Nat) :
    Lifecycle (next.spawnRunTask stepLimit) := by
  have quiet := lifecycle.no_live still
  have ordered : ObservedInOrder next := by
    unfold ObservedInOrder
    rw [sameObserved, sameState]
    exact lifecycle.observed
  constructor
  · exact observed_send ordered (sameState ▸ .follows follows)
  · simp [ETLPipeline.spawnRunTask, ETLPipeline.send, sameInitializing, idle]
  · simp [ETLPipeline.spawnRunTask, ETLPipeline.send]
  · intro index task found alive
    simp only [ETLPipeline.spawnRunTask, sameTasks] at found ⊢
    refine ⟨?_, rfl⟩
    by_cases inside : index < pipeline.tasks.length
    · rw [List.getElem?_append_left inside] at found
      exact absurd alive (quiet task (List.mem_of_getElem? found))
    · rw [List.getElem?_append_right (by omega)] at found
      obtain ⟨zero, _⟩ := List.getElem?_eq_some_iff.mp found
      simp only [List.length_singleton, List.length_append] at zero ⊢
      omega
  · intro task member
    simp only [ETLPipeline.spawnRunTask, sameTasks, List.mem_append, List.mem_singleton] at member
    rcases member with old | rfl
    · exact lifecycle.unaborted task old
    · simp
  · intro task member outcome ended
    simp only [ETLPipeline.spawnRunTask, sameTasks, List.mem_append, List.mem_singleton] at member
    rcases member with old | rfl
    · exact lifecycle.outcomes task old outcome ended
    · simp [RunTask.spawn] at ended

/-- A call keeps the invariant when a `run` call is made only where it may succeed. -/
theorem call (lifecycle : Lifecycle pipeline) (idle : pipeline.initializing = none) {call : Call Table}
    (allowed : ∀ stepCount order, call = .run stepCount order → call.AllowedIn pipeline.state) :
    Lifecycle (perform call pipeline).2 := by
  cases call with
  | initializePipeline order =>
      simp only [perform]
      split_ifs with started
      · exact lifecycle
      · exact ⟨lifecycle.observed, fun _ => not_not.mp started, lifecycle.unstarted, lifecycle.live,
          lifecycle.unaborted, lifecycle.outcomes⟩
  | start order =>
      simp only [perform]
      split_ifs with ready
      · exact lifecycle
      · have state := not_not.mp ready
        exact lifecycle.spawn ({ pipeline with batchBudget := none }.planWork order) (by simp [state])
          (state ▸ .firstStart) idle rfl rfl rfl rfl none
  | run stepCount order =>
      have follows : Follows pipeline.state .running ∧ pipeline.state ≠ .running := by
        rcases allowed stepCount order rfl with state | state
        · exact ⟨state ▸ .firstRun, by simp [state]⟩
        · exact ⟨state ▸ .firstStart, by simp [state]⟩
      exact lifecycle.spawn ({ pipeline with batchBudget := some stepCount }.planWork order) follows.2
        follows.1 idle rfl rfl rfl rfl (some stepCount)
  | continuePipeline =>
      simp only [perform]
      split_ifs with ready
      · exact lifecycle
      · have state := not_not.mp ready
        have still : pipeline.state ≠ .running := by simp [state]
        have kept := ETLPipeline.abortHandle_tasks (lifecycle.no_live still)
        exact lifecycle.spawn ({ pipeline with checkpointIdx := pipeline.checkpointIdx + 1 }.abortHandle) still
          (state ▸ .resumed) idle rfl rfl kept rfl pipeline.batchBudget

omit [DecidableEq Table] in
/-- Replacing the live task by its successor keeps the invariant of the tasks. -/
theorem set_task (lifecycle : Lifecycle pipeline) {index : Nat} {run result : RunTask Table Key Data}
    (found : pipeline.tasks[index]? = some ⟨run, .live⟩) {status : TaskStatus} (unaborted : status ≠ .aborted)
    (outcomes : ∀ outcome, result.phase = .returned outcome →
      outcome = .paused ∨ ∃ reason, outcome = .stopped reason) :
    (∀ (position : Nat) task, (pipeline.tasks.set index ⟨result, status⟩)[position]? = some task →
      task.status = .live → position = index ∧ status = .live) ∧
    (∀ task ∈ pipeline.tasks.set index ⟨result, status⟩, task.status ≠ .aborted) ∧
    ∀ task ∈ pipeline.tasks.set index ⟨result, status⟩, ∀ outcome, task.run.phase = .returned outcome →
      outcome = .paused ∨ ∃ reason, outcome = .stopped reason := by
  obtain ⟨last, _⟩ := lifecycle.live index _ found rfl
  refine ⟨?_, ?_, ?_⟩
  · intro position task placed alive
    rw [List.getElem?_set] at placed
    split_ifs at placed with here inside
    · obtain rfl := Option.some.inj placed
      exact ⟨here.symm, alive⟩
    · obtain ⟨there, _⟩ := lifecycle.live position task placed alive
      omega
  · intro task member
    rcases List.mem_or_eq_of_mem_set member with old | rfl
    · exact lifecycle.unaborted task old
    · exact unaborted
  · intro task member
    rcases List.mem_or_eq_of_mem_set member with old | rfl
    · exact lifecycle.outcomes task old
    · exact outcomes

/-- One step keeps the invariant when a `run` call is made only where it may succeed. -/
theorem step (lifecycle : Lifecycle pipeline) {action : PipelineAction Table Key Data}
    (allowed : ∀ stepCount order, action = .call (.run stepCount order) →
      (Call.run stepCount order).AllowedIn pipeline.state)
    (moved : PipelineMove config pipeline after action) : Lifecycle after := by
  cases moved with
  | call call idle same =>
      rw [same]
      apply lifecycle.call idle
      intro stepCount order isRun
      rw [isRun]
      exact allowed stepCount order (by rw [isRun])
  | initTask job table action shared result busy member stepped same =>
      subst same
      exact ⟨lifecycle.observed, fun _ => lifecycle.initializing (by simp [busy]), lifecycle.unstarted,
        lifecycle.live, lifecycle.unaborted, lifecycle.outcomes⟩
  | initCollect job table report busy member done same =>
      subst same
      exact ⟨lifecycle.observed, fun _ => lifecycle.initializing (by simp [busy]), lifecycle.unstarted,
        lifecycle.live, lifecycle.unaborted, lifecycle.outcomes⟩
  | initFail job table message busy member done same =>
      have state := lifecycle.initializing (by simp [busy])
      have none := lifecycle.unstarted (.inl state)
      subst same
      refine ⟨observed_send lifecycle.observed (state ▸ .initFailed message), by simp, ?_, ?_, ?_, ?_⟩ <;>
        simp [ETLPipeline.send, none]
  | initDone job busy joined same =>
      have state := lifecycle.initializing (by simp [busy])
      have none := lifecycle.unstarted (.inl state)
      subst same
      refine ⟨observed_send lifecycle.observed (state ▸ .follows .initialized), by simp, ?_, ?_, ?_, ?_⟩ <;>
        simp [ETLPipeline.send, none]
  | initFlushFail job message text busy joined same =>
      have state := lifecycle.initializing (by simp [busy])
      have none := lifecycle.unstarted (.inl state)
      subst same
      refine ⟨observed_send lifecycle.observed (state ▸ .initFailed text), by simp, ?_, ?_, ?_, ?_⟩ <;>
        simp [ETLPipeline.send, none]
  | wait idle same =>
      rcases same with rfl | rfl
      · exact lifecycle
      · exact ⟨lifecycle.observed, lifecycle.initializing, lifecycle.unstarted, lifecycle.live,
          lifecycle.unaborted, lifecycle.outcomes⟩
  | setBatchBudget steps idle same =>
      subst same
      exact ⟨lifecycle.observed, lifecycle.initializing, lifecycle.unstarted, lifecycle.live,
        lifecycle.unaborted, lifecycle.outcomes⟩
  | background index run runAction shared result idle found stepped same =>
      obtain ⟨last, running⟩ := lifecycle.live index _ found rfl
      obtain ⟨live, unaborted, outcomes⟩ := lifecycle.set_task found (show TaskStatus.live ≠ .aborted by decide)
        fun _ => (runStep_moves stepped).outcome
      subst same
      refine ⟨lifecycle.observed, lifecycle.initializing, ?_, ?_, unaborted, outcomes⟩
      · simp [running]
      · intro position task placed alive
        obtain ⟨rfl, _⟩ := live position task placed alive
        simpa [running] using last
  | publish index run outcome idle found ended same =>
      obtain ⟨last, running⟩ := lifecycle.live index _ found rfl
      have member := List.mem_of_getElem? found
      have known := lifecycle.outcomes _ member outcome ended
      obtain ⟨live, unaborted, outcomes⟩ := lifecycle.set_task found
        (show TaskStatus.published ≠ .aborted by decide) (lifecycle.outcomes _ member)
      have follows : Follows pipeline.state outcome := by
        rw [running]
        rcases known with rfl | ⟨reason, rfl⟩
        · exact .paused
        · exact .stopped reason
      subst same
      refine ⟨observed_send lifecycle.observed (.follows follows), ?_, ?_, ?_, unaborted, outcomes⟩
      · simp [ETLPipeline.send, idle]
      · rcases known with rfl | ⟨reason, rfl⟩ <;> simp [ETLPipeline.send]
      · intro position task placed alive
        exact absurd (live position task placed alive).2 (by decide)

omit [DecidableEq Table] in
theorem new (metadata : Metadata Table) : Lifecycle (ETLPipeline.new metadata : ETLPipeline Table Key Data) := by
  refine ⟨⟨rfl, List.isChain_singleton _, rfl⟩, ?_, ?_, ?_, ?_, ?_⟩ <;> simp [ETLPipeline.new]

/-- The invariant holds along every trace whose `run` calls are allowed. -/
theorem reached {environment : Environment Table Key Data} {metadata : Metadata Table}
    {actions : List (PipelineAction Table Key Data)} {final : ETLPipeline Table Key Data}
    (admitted : ∀ action ∈ actions, environment.AdmitsPipeline metadata action)
    (ran : (pipelineMachine config environment metadata).run (.new metadata) actions = some final)
    (allowed : RunsAllowed config (.new metadata) actions) : Lifecycle final := by
  have both := (pipelineMachine config environment metadata).run_invariant
    (fun pipeline rest => Lifecycle pipeline ∧ RunsAllowed config pipeline rest) ?_ admitted ran
    ⟨Lifecycle.new metadata, allowed⟩
  · exact both.1
  · intro pipeline action rest next _ holds stepped
    obtain ⟨lifecycle, first, later⟩ := holds
    exact ⟨lifecycle.step first (pipelineStep_moves stepped), later next stepped⟩

end Lifecycle

/-- A guarded call fails exactly in the states from which it may not succeed, and then changes nothing. -/
theorem perform_guarded (call : Call Table) (pipeline : ETLPipeline Table Key Data)
    (guarded : ∀ stepCount order, call ≠ .run stepCount order) :
    (call.AllowedIn pipeline.state → ∀ message, (perform call pipeline).1 ≠ .err message) ∧
      (¬ call.AllowedIn pipeline.state → ∃ message, perform call pipeline = (.err message, pipeline)) := by
  cases call with
  | initializePipeline order =>
      simp only [perform, Call.AllowedIn]
      split_ifs with state <;> simp [state]
  | start order =>
      simp only [perform, Call.AllowedIn]
      split_ifs with state <;> simp [state]
  | run stepCount order => exact absurd rfl (guarded stepCount order)
  | continuePipeline =>
      simp only [perform, Call.AllowedIn]
      split_ifs with state <;> simp [state]

/-- In every trace whose `run` calls are made only in `NotStarted` or `Initialized`, the other calls
succeed only where they may and change nothing where they fail, at most one task is live, no task is
aborted before it has published, and the observed states follow each other. -/
theorem pipeline_lifecycle (config : EtlConfig Key Data) (environment : Environment Table Key Data)
    (metadata : Metadata Table) (actions : List (PipelineAction Table Key Data))
    (final : ETLPipeline Table Key Data)
    (admitted : ∀ action ∈ actions, environment.AdmitsPipeline metadata action)
    (ran : (pipelineMachine config environment metadata).run (.new metadata) actions = some final)
    (allowed : RunsAllowed config (.new metadata) actions) :
    (∀ call : Call Table, (∀ stepCount order, call ≠ .run stepCount order) →
      (call.AllowedIn final.state → ∀ message, (perform call final).1 ≠ .err message) ∧
      (¬ call.AllowedIn final.state → ∃ message, perform call final = (.err message, final))) ∧
    (∀ (first second : Nat) firstTask secondTask, final.tasks[first]? = some firstTask →
      final.tasks[second]? = some secondTask → firstTask.status = .live → secondTask.status = .live →
      first = second) ∧
    (∀ task ∈ final.tasks, task.status ≠ .aborted) ∧
    final.observed.head? = some .notStarted ∧ final.observed.IsChain FollowsOrInitFailed ∧
    final.observed.getLast? = some final.state := by
  have lifecycle := Lifecycle.reached admitted ran allowed
  refine ⟨fun call guarded => perform_guarded call final guarded, ?_, lifecycle.unaborted, lifecycle.observed⟩
  intro first second firstTask secondTask foundFirst foundSecond firstLive secondLive
  have lastFirst := (lifecycle.live first firstTask foundFirst firstLive).1
  have lastSecond := (lifecycle.live second secondTask foundSecond secondLive).1
  omega

def sampleMetadata : Metadata Unit := ⟨[()], by simp, fun _ => [0, 1], fun _ => 2⟩

/-- The first `run` call spawns the only live task, and nothing can be continued before it pauses. -/
theorem pipeline_lifecycle_first_run :
    ∃ final, (pipelineMachine sampleConfig sampleEnvironment sampleMetadata).run (.new sampleMetadata)
        [.call (.run 1 [()])] = some final ∧
      (∃ message, perform .continuePipeline final = (.err message, final)) ∧
      final.observed.IsChain FollowsOrInitFailed := by
  refine ⟨_, rfl, ?_⟩
  obtain ⟨guards, _, _, _, chain, _⟩ := pipeline_lifecycle sampleConfig sampleEnvironment sampleMetadata
    [.call (.run 1 [()])] _ (by simp [Environment.AdmitsPipeline, sampleMetadata]) rfl
    ⟨fun _ _ _ => .inl rfl, fun _ _ => trivial⟩
  refine ⟨(guards .continuePipeline (by simp)).2 ?_, chain⟩
  simp [Call.AllowedIn, perform, ETLPipeline.spawnRunTask, ETLPipeline.send]

/-- The first batch of the table cannot be read. -/
def missingEnvironment : Environment Unit Nat Unit :=
  { sampleEnvironment with reads := fun _ _ outcome => outcome = .error "missing" }

def failedInitialization : List (PipelineAction Unit Nat Unit) :=
  [.call (.initializePipeline [()]), .initTask () (.firstRead 0 (.error "missing")), .initCollect ()]

def sampleRead (batchId : Nat) : ReadOutcome Nat Unit :=
  .ok (some ⟨[⟨changeSchema, [⟨batchId, (), some .create, 0⟩]⟩], ["key"]⟩)

/-- One run with a budget of one step delivers the first batch and pauses. -/
def pausedTrace : List (PipelineAction Unit Nat Unit) :=
  [.call (.run 1 [()]), .background 0 .start, .background 0 (.loopHead false (.ok ())),
    .background 0 (.task () .reserve), .background 0 (.task () (.join 0 (sampleRead 0))),
    .background 0 (.task () .nextBatch), .background 0 (.task () .nextSegment),
    .background 0 (.task () (.writeChunk 0 (.ok ()))), .background 0 (.task () .finish),
    .background 0 (.collect ()), .background 0 .stepDone, .background 0 (.loopHead false (.ok ())),
    .publish 0]

/-- A failed `initialize` is observed as `NotStarted` and then `Stopped`, and a `run` call succeeds on
a paused pipeline. -/
theorem pipeline_lifecycle_broken :
    (∃ actions final, (∀ action ∈ actions, missingEnvironment.AdmitsPipeline sampleMetadata action) ∧
      (pipelineMachine sampleConfig missingEnvironment sampleMetadata).run (.new sampleMetadata) actions =
        some final ∧ ¬ final.observed.IsChain Follows) ∧
    ∃ actions final, (∀ action ∈ actions, sampleEnvironment.AdmitsPipeline sampleMetadata action) ∧
      (pipelineMachine sampleConfig sampleEnvironment sampleMetadata).run (.new sampleMetadata) actions =
        some final ∧ final.state = .paused ∧ (perform (.run 1 [()]) final).1 = .ok := by
  constructor
  · have observed : ((pipelineMachine sampleConfig missingEnvironment sampleMetadata).run
        (.new sampleMetadata) failedInitialization).map ETLPipeline.observed =
        some [.notStarted, .stopped (.error "missing")] := by decide
    obtain ⟨final, ran, states⟩ := Option.map_eq_some_iff.mp observed
    refine ⟨failedInitialization, final, ?_, ran, ?_⟩
    · simp [failedInitialization, Environment.AdmitsPipeline, Environment.AdmitsTask, sampleMetadata,
        missingEnvironment]
    · rw [states]
      intro chain
      have step : Follows .notStarted (.stopped (.error "missing")) := by simpa using chain
      cases step
  · have ended : ((pipelineMachine sampleConfig sampleEnvironment sampleMetadata).run
        (.new sampleMetadata) pausedTrace).map (fun final => (final.state, (perform (.run 1 [()]) final).1)) =
        some (.paused, .ok) := by decide
    obtain ⟨final, ran, both⟩ := Option.map_eq_some_iff.mp ended
    refine ⟨pausedTrace, final, ?_, ran, (Prod.mk.inj both).1, (Prod.mk.inj both).2⟩
    simp [pausedTrace, Environment.AdmitsPipeline, Environment.AdmitsRun, Environment.AdmitsTask,
      Environment.AdmitsFlush, sampleMetadata, sampleEnvironment, sampleRead]

end Spicebench.Etl
