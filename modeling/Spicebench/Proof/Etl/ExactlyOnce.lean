import Spicebench.Proof.Etl.Attended
import Spicebench.Proof.Etl.Lifecycle
import Spicebench.Proof.Etl.Preparing

namespace Spicebench.Etl
open Library DataGeneration

variable {Table Key Data : Type} [DecidableEq Table]

/-- The setting of a pipeline: what it reads, and whether its reads are served by a source. -/
structure Setting (Table Key Data : Type) where
  config : EtlConfig Key Data
  metadata : Metadata Table
  source : Source Table Key Data
  served : Prop

/-- This is the invariant of the awaited `initialize` call. -/
structure Initializing (setting : Setting Table Key Data) (shared : Shared Table Key Data)
    (job : InitJob Table Key Data) : Prop where
  starting : Starting setting.metadata shared job
  complete : Complete setting.metadata.First [] shared (pool [] TaskState.held job.active job.tasks)
  healthy : ∀ table ∈ job.active, (job.tasks table).Healthy
  faithful : setting.served → ∀ table ∈ job.active, (job.tasks table).Faithful setting.source table
  delivered : setting.served → Delivered setting.config setting.source [] (fun _ => []) (fun _ => 0) shared
    (pool [] TaskState.unwritten job.active job.tasks) (pool 0 (TaskState.uncounted setting.config) job.active job.tasks)

namespace Initializing

variable {setting : Setting Table Key Data} {shared next : Shared Table Key Data}
  {job : InitJob Table Key Data} {table : Table}

/-- The tasks of `initialize` hold the first id of each table. -/
theorem start {order : List Table} (perm : order.Perm setting.metadata.tables) :
    Initializing setting (.initial : Shared Table Key Data) (ETLPipeline.initJob setting.metadata order) := by
  refine ⟨Starting.start perm, ?_, ?_, ?_, ?_⟩
  · intro table batchId planned
    exact .inr (.inl ((Starting.held_start perm table batchId).mpr planned))
  · intro table _
    trivial
  · intro _ table _
    trivial
  · intro _
    constructor
    · intro table
      simp [pool, ETLPipeline.initJob, TaskState.unwritten, sinkRows, handedSince, stripInternalColumns,
        Shared.initial]
    · intro _ table
      simp [pool, ETLPipeline.initJob, TaskState.uncounted, handedSince, rowsNet, Shared.initial]

/-- A healthy step of one task keeps the invariant. -/
theorem task (initializing : Initializing setting shared job) {environment : Environment Table Key Data}
    (healthy : environment.Healthy setting.metadata.Planned)
    (serves : setting.served → environment.Serves setting.source setting.metadata.Planned)
    {action : TaskAction Key Data} {result : TaskState Key Data} (member : table ∈ job.active)
    (admitted : environment.AdmitsTask table action)
    (stepped : taskStep setting.config none table shared (job.tasks table) action = some (next, result)) :
    Initializing setting next { job with tasks := Function.update job.tasks table result } := by
  have ledger := initializing.starting.ledger
  have fine := initializing.healthy table member
  have holds : pool [] TaskState.held job.active job.tasks table = (job.tasks table).held := if_pos member
  have planned : ∀ batchId ∈ (job.tasks table).held, setting.metadata.Planned table batchId := by
    intro batchId held
    rw [← holds] at held
    exact (ledger.line table batchId (List.mem_append_right _ held)).planned
  have ascending : (job.tasks table).held.Pairwise (· < ·) := by
    rw [← holds]
    exact (List.pairwise_append.mp (ledger.ascending table)).2.1
  have proper := healthy.taskAction fine planned admitted stepped
  have conserved := taskStep_conserves fine (ascending.imp Nat.ne_of_lt) proper stepped
  have moved := taskStep_moves (initializing.starting.cursors table member) stepped
  constructor
  · exact initializing.starting.task member stepped
  · exact initializing.complete.move ledger.grown holds conserved moved
      (pool_update [] TaskState.held job.tasks member result)
  · intro other inside
    by_cases same : other = table
    · subst same
      simp only [Function.update_self]
      exact conserved.1
    · simp only [Function.update_of_ne same]
      exact initializing.healthy other inside
  · intro served other inside
    have answered := (serves served).taskAction fine planned admitted stepped
    obtain ⟨_, _, _, tally⟩ := taskStep_tally (initializing.faithful served table member) proper answered stepped
    by_cases same : other = table
    · subst same
      simp only [Function.update_self]
      exact tally.faithful
    · simp only [Function.update_of_ne same]
      exact initializing.faithful served other inside
  · intro served
    have answered := (serves served).taskAction fine planned admitted stepped
    obtain ⟨_, _, _, tally⟩ := taskStep_tally (initializing.faithful served table member) proper answered stepped
    have kept := (initializing.delivered served).task ledger.grown (if_pos member) (if_pos member) tally
    rw [pool_update [] TaskState.unwritten job.tasks member result,
      pool_update 0 (TaskState.uncounted setting.config) job.tasks member result]
    exact kept

/-- Joining a finished task keeps the invariant. -/
theorem collect (initializing : Initializing setting shared job) {report : TaskReport}
    (done : job.tasks table = .done (.ok report)) :
    Initializing setting shared { job with active := job.active.erase table } := by
  have held := pool_erase [] TaskState.held job.active job.tasks (show (job.tasks table).held = [] by rw [done]; rfl)
  have unwritten := pool_erase [] TaskState.unwritten job.active job.tasks
    (show (job.tasks table).unwritten = [] by rw [done]; rfl)
  have uncounted := pool_erase 0 (TaskState.uncounted setting.config) job.active job.tasks
    (show (job.tasks table).uncounted setting.config = 0 by rw [done]; rfl)
  constructor
  · exact initializing.starting.collect done
  · rw [held]
    exact initializing.complete
  · exact fun other inside => initializing.healthy other (List.mem_of_mem_erase inside)
  · exact fun served other inside => initializing.faithful served other (List.mem_of_mem_erase inside)
  · intro served
    rw [unwritten, uncounted]
    exact initializing.delivered served

/-- In a healthy environment `initialize` keeps the invariant and never breaks. -/
theorem kept {environment : Environment Table Key Data} (healthy : environment.Healthy setting.metadata.Planned)
    (serves : setting.served → environment.Serves setting.source setting.metadata.Planned) :
    InitKept setting.config environment (Initializing setting) fun _ => False where
  task _ _ _ _ _ _ member admitted initializing stepped :=
    initializing.task healthy serves member admitted stepped
  collect _ _ _ _ done initializing := initializing.collect done
  fail _ _ table message member done initializing := by
    have fine := initializing.healthy table member
    rw [done] at fine
    obtain ⟨_, reported, _⟩ := fine
    simp at reported
  flush _ _ message fails _ := healthy.flushes message fails

end Initializing

/-- This is the invariant of the current run, over the whole history of the pipeline. -/
structure Current (setting : Setting Table Key Data) (shared : Shared Table Key Data)
    (run : RunTask Table Key Data) : Prop where
  segment : ∃ start past, Segment run.stepLimit start past shared run
  ledger : Ledger setting.metadata.Planned [] shared run.held
  complete : Complete setting.metadata.Planned [] shared run.held
  delivered : setting.served →
    RunDelivered setting.config setting.source [] (fun _ => []) (fun _ => 0) shared run

namespace Current

variable {setting : Setting Table Key Data} {shared next : Shared Table Key Data}
  {run after : RunTask Table Key Data}

/-- A healthy step of the run keeps the invariant. -/
theorem step (current : Current setting shared run) {environment : Environment Table Key Data}
    (healthy : environment.Healthy setting.metadata.Planned)
    (serves : setting.served → environment.Serves setting.source setting.metadata.Planned)
    {action : RunAction Table Key Data} (admitted : environment.AdmitsRun action)
    (moved : RunMove setting.config shared next run after action) : Current setting next after := by
  obtain ⟨start, past, segment⟩ := current.segment
  have line : ∀ table, ∀ batchId ∈ run.held table, setting.metadata.Planned table batchId := by
    intro table batchId member
    exact current.ledger.line table batchId (List.mem_append_right _ member)
  have proper := healthy.runAction segment.healthy line admitted moved
  constructor
  · rw [moved.stepLimit]
    exact ⟨start, past, segment.step moved proper⟩
  · exact moved.ledger segment.shape current.ledger
  · exact moved.complete segment.shape current.ledger segment.healthy proper current.complete
  · intro served
    have answered := (serves served).runAction segment.healthy line admitted moved
    exact moved.delivered current.ledger.grown segment.healthy proper answered (current.delivered served)

/-- A run that starts where nothing is held keeps the whole history. -/
theorem spawn {stepLimit : Option Nat} (positive : stepLimit ≠ some 0)
    (unfinished : shared.work.finishedTables = [])
    (ledger : Ledger setting.metadata.Planned [] shared fun _ => [])
    (complete : Complete setting.metadata.Planned [] shared fun _ => [])
    (delivered : setting.served → Delivered setting.config setting.source [] (fun _ => []) (fun _ => 0)
      shared (fun _ => []) fun _ => 0) : Current setting shared (.spawn stepLimit) where
  segment := ⟨shared.work.steps, shared.history, Segment.spawn shared unfinished positive⟩
  ledger := ledger
  complete := complete
  delivered served := ⟨trivial, delivered served⟩

/-- A run that has returned leaves nothing held, unwritten or uncounted. -/
theorem settled (current : Current setting shared run) {outcome : PipelineState}
    (ended : run.phase = .returned outcome) :
    shared.work.finishedTables = [] ∧ Ledger setting.metadata.Planned [] shared (fun _ => []) ∧
      Complete setting.metadata.Planned [] shared (fun _ => []) ∧
      (setting.served → Delivered setting.config setting.source [] (fun _ => []) (fun _ => 0)
        shared (fun _ => []) fun _ => 0) := by
  obtain ⟨start, past, segment⟩ := current.segment
  have idle : ∀ outerSteps batchId active tasks,
      run.phase ≠ .processing outerSteps batchId active tasks := by
    simp [ended]
  have nothing := RunTask.held_of_phase idle
  obtain ⟨_, written, counted⟩ := @RunTask.idle_of_phase _ _ _ _ setting.config setting.source run idle
  refine ⟨segment.healthy.1, nothing ▸ current.ledger, nothing ▸ current.complete, ?_⟩
  intro served
  have delivered := (current.delivered served).2
  rw [written, counted] at delivered
  exact delivered

end Current

/-- The current run keeps the invariant, and the budget of the next one is positive. -/
structure Underway (setting : Setting Table Key Data) (pipeline : ETLPipeline Table Key Data) : Prop where
  attended : Attended (Current setting) setting.metadata pipeline
  budget : pipeline.batchBudget ≠ some 0

/-- The calls that are still to come only continue the pipeline. -/
def ContinueOnly (calls : List (Call Table)) : Prop := ∀ call ∈ calls, call = .continuePipeline

/-- The next call starts the first run with a positive budget or without one. -/
def FirstRun (calls : List (Call Table)) : Prop :=
  ∃ first rest, calls = first :: rest ∧ ContinueOnly rest ∧
    ((∃ stepCount order, first = .run stepCount order ∧ stepCount ≠ 0) ∨ ∃ order, first = .start order)

/-- The pipeline is initialized first, then run or started, and then only continued. -/
def InitializedFirst (calls : List (Call Table)) : Prop :=
  ∃ order rest, calls = .initializePipeline order :: rest ∧ FirstRun rest

/-- The pipeline is run at once, and then only continued. -/
def RunAtOnce (calls : List (Call Table)) : Prop :=
  ∃ stepCount order rest, calls = .run stepCount order :: rest ∧ stepCount ≠ 0 ∧ ContinueOnly rest

def callsOf (actions : List (PipelineAction Table Key Data)) : List (Call Table) :=
  actions.filterMap fun action =>
    match action with
    | .call call => some call
    | _ => none

/-- This is the invariant of the pipeline along a trace, with the calls that are still to come. -/
inductive Stage (setting : Setting Table Key Data) (pipeline : ETLPipeline Table Key Data)
    (calls : List (Call Table)) : Prop where
  | fresh (idle : pipeline.initializing = none) (state : pipeline.state = .notStarted)
      (tasks : pipeline.tasks = []) (metadata : pipeline.metadata = setting.metadata)
      (shared : pipeline.shared = .initial) (proper : InitializedFirst calls ∨ RunAtOnce calls)
  | preparing (preparing : Preparing (Initializing setting) (fun _ => False) setting.metadata pipeline)
      (first : FirstRun calls)
  | underway (under : Underway setting pipeline) (only : ContinueOnly calls)

section Stages

variable {setting : Setting Table Key Data} {pipeline next : ETLPipeline Table Key Data}

/-- The plan after `initialize` holds every listed id except the first one of each table. -/
theorem planned_after_initialize {shared : Shared Table Key Data} {job : InitJob Table Key Data}
    (init : Initializing setting shared job) (joined : job.active = []) {order : List Table}
    (perm : order.Perm setting.metadata.tables) :
    Ledger setting.metadata.Planned []
        { shared with work := ⟨buildWorkPlan setting.metadata order true, []⟩ } (fun _ => []) ∧
      Complete setting.metadata.Planned []
        { shared with work := ⟨buildWorkPlan setting.metadata order true, []⟩ } (fun _ => []) ∧
      (setting.served → Delivered setting.config setting.source [] (fun _ => []) (fun _ => 0)
        { shared with work := ⟨buildWorkPlan setting.metadata order true, []⟩ } (fun _ => []) fun _ => 0) := by
  have empty : ∀ {Value : Type} (default : Value) (part : TaskState Key Data → Value),
      pool default part job.active job.tasks = fun _ => default := by
    intro Value default part
    funext table
    simp [pool, joined]
  have complete := init.complete
  rw [empty] at complete
  refine ⟨init.starting.ledger_plan perm, ?_, ?_⟩
  · intro table batchId listed
    by_cases first : setting.metadata.First table batchId
    · rcases complete table batchId first with member | held | pending
      · exact .inl member
      · simp at held
      · exact absurd pending (init.starting.planless table batchId)
    · exact .inr (.inr ((setting.metadata.pending_plan perm true table batchId).mpr ⟨listed, fun _ => first⟩))
  · intro served
    have delivered := init.delivered served
    rw [empty, empty] at delivered
    exact delivered.quiet rfl rfl rfl

/-- A continuation of an underway pipeline keeps it underway. -/
theorem Underway.continue (under : Underway setting pipeline) :
    Underway setting (perform .continuePipeline pipeline).2 := by
  by_cases paused : pipeline.state = .paused
  · obtain ⟨⟨run, ended, current⟩, _⟩ := under.attended.settled (by simp [paused])
    obtain ⟨unfinished, ledger, complete, delivered⟩ := current.settled ended
    constructor
    · exact under.attended.resume paused (Current.spawn under.budget unfinished ledger complete delivered)
    · simp only [perform, paused, ne_eq, not_true_eq_false, if_false]
      exact under.budget
  · simp only [perform, ne_eq, paused, not_false_eq_true, if_true]
    exact under

/-- A step of an underway pipeline keeps it underway. -/
theorem Underway.step (under : Underway setting pipeline) {environment : Environment Table Key Data}
    (healthy : environment.Healthy setting.metadata.Planned)
    (serves : setting.served → environment.Serves setting.source setting.metadata.Planned)
    {action : PipelineAction Table Key Data} (admitted : environment.AdmitsPipeline setting.metadata action)
    (only : ∀ call, action = .call call → call = .continuePipeline)
    (budget : ∀ steps, action = .setBatchBudget steps → steps ≠ 0)
    (moved : PipelineMove setting.config pipeline next action) : Underway setting next := by
  by_cases calls : ∃ call, action = .call call
  · obtain ⟨call, rfl⟩ := calls
    obtain rfl := only call rfl
    cases moved with
    | call _ _ same =>
        rw [same]
        exact under.continue
  · constructor
    · apply under.attended.step (fun call same => calls ⟨call, same⟩) ?_ moved
      intro index run runAction after isRun current runMoved
      subst isRun
      exact current.step healthy serves admitted runMoved
    · cases moved with
      | call call => exact absurd ⟨call, rfl⟩ calls
      | wait _ same =>
          rcases same with rfl | rfl
          · exact under.budget
          · exact under.budget
      | setBatchBudget steps _ same =>
          subst same
          simpa [ETLPipeline.setBatchBudget] using budget steps rfl
      | initTask _ _ _ _ _ _ _ _ same => exact same ▸ under.budget
      | initCollect _ _ _ _ _ _ same => exact same ▸ under.budget
      | initFail _ _ _ _ _ _ same => exact same ▸ under.budget
      | initDone _ _ _ same => exact same ▸ under.budget
      | initFlushFail _ _ _ _ _ same => exact same ▸ under.budget
      | background _ _ _ _ _ _ _ _ same => exact same ▸ under.budget
      | publish _ _ _ _ _ _ same => exact same ▸ under.budget

/-- The first `run` or `start` after `initialize` makes the pipeline underway. -/
theorem underway_of_initialized {job : InitJob Table Key Data} (idle : pipeline.initializing = none)
    (state : pipeline.state = .initialized) (tasks : pipeline.tasks = [])
    (metadata : pipeline.metadata = setting.metadata) (init : Initializing setting pipeline.shared job)
    (joined : job.active = []) {order : List Table} (perm : order.Perm setting.metadata.tables)
    {stepLimit : Option Nat} (positive : stepLimit ≠ some 0) :
    Underway setting (({ pipeline with batchBudget := stepLimit }.planWork order).spawnRunTask stepLimit) := by
  obtain ⟨ledger, complete, delivered⟩ := planned_after_initialize init joined perm
  constructor
  · apply Attended.plan idle metadata
    · simp [tasks]
    · simp only [state, decide_true]
      exact Current.spawn positive rfl ledger complete delivered
  · exact positive

/-- A `run` call on a fresh pipeline makes it underway, with every listed id planned. -/
theorem underway_of_fresh (idle : pipeline.initializing = none) (state : pipeline.state = .notStarted)
    (tasks : pipeline.tasks = []) (metadata : pipeline.metadata = setting.metadata)
    (initial : pipeline.shared = .initial) {order : List Table}
    (perm : order.Perm setting.metadata.tables) {stepCount : Nat} (positive : stepCount ≠ 0) :
    Underway setting (perform (.run stepCount order) pipeline).2 := by
  have pending : ∀ table batchId, (buildWorkPlan setting.metadata order false).Pending table batchId ↔
      setting.metadata.Planned table batchId := by
    intro table batchId
    rw [setting.metadata.pending_plan perm]
    simp
  have limit : some stepCount ≠ some 0 := by simpa using positive
  let shared : Shared Table Key Data :=
    { (.initial : Shared Table Key Data) with work := ⟨buildWorkPlan setting.metadata order false, []⟩ }
  have nothing : ∀ table, handedSince [] shared table = [] := fun _ => rfl
  have ledger : Ledger setting.metadata.Planned [] shared fun _ => [] := by
    refine ⟨List.nil_prefix, ?_, ?_, ?_, ?_⟩
    · intro table
      exact List.Pairwise.nil
    · intro table batchId member
      simp [nothing] at member
    · intro table batchId planned
      exact (pending table batchId).mp planned
    · intro table batchId _ earlier member
      simp [nothing] at member
  have complete : Complete setting.metadata.Planned [] shared fun _ => [] := by
    intro table batchId listed
    exact .inr (.inr ((pending table batchId).mpr listed))
  have delivered : Delivered setting.config setting.source [] (fun _ => []) (fun _ => 0) shared
      (fun _ => []) fun _ => 0 := by
    constructor
    · intro table
      rw [nothing]
      exact List.Perm.refl _
    · intro _ table
      rw [nothing]
      rfl
  constructor
  · apply Attended.plan idle metadata
    · simp [tasks]
    · simp only [state, initial, reduceCtorEq, decide_false]
      exact Current.spawn limit rfl ledger complete fun _ => delivered
  · exact limit

/-- A step keeps the stage, and a call uses up the first of the calls that are still to come. -/
theorem Stage.step {environment : Environment Table Key Data}
    (healthy : environment.Healthy setting.metadata.Planned)
    (serves : setting.served → environment.Serves setting.source setting.metadata.Planned)
    {action : PipelineAction Table Key Data} {rest : List (PipelineAction Table Key Data)}
    (stage : Stage setting pipeline (callsOf (action :: rest)))
    (admitted : environment.AdmitsPipeline setting.metadata action)
    (budget : ∀ steps, action = .setBatchBudget steps → steps ≠ 0)
    (moved : PipelineMove setting.config pipeline next action) : Stage setting next (callsOf rest) := by
  generalize upcoming : callsOf (action :: rest) = calls at stage
  have quiet : (∀ call, action ≠ .call call) → callsOf rest = calls := by
    intro noCall
    rw [← upcoming]
    cases action with
    | call call => exact absurd rfl (noCall call)
    | _ => rfl
  cases stage with
  | fresh idle state tasks metadata initial proper =>
      cases moved with
      | call call _ same =>
          have split : call :: callsOf rest = calls := upcoming
          rw [← split] at proper
          rcases proper with ⟨order, later, listed, first⟩ | ⟨stepCount, order, later, listed, positive, only⟩
          · obtain ⟨rfl, rfl⟩ := List.cons.inj listed
            rw [same]
            simp only [perform, state, ne_eq, not_true_eq_false, if_false]
            refine .preparing (.busy (ETLPipeline.initJob pipeline.metadata order) metadata tasks rfl rfl ?_) first
            rw [metadata]
            exact initial ▸ Initializing.start admitted
          · obtain ⟨rfl, rfl⟩ := List.cons.inj listed
            rw [same]
            exact .underway (underway_of_fresh idle state tasks metadata initial admitted positive) only
      | initTask job _ _ _ _ busy => simp [idle] at busy
      | initCollect job _ _ busy => simp [idle] at busy
      | initFail job _ _ busy => simp [idle] at busy
      | initDone job busy => simp [idle] at busy
      | initFlushFail job _ _ busy => simp [idle] at busy
      | wait _ same =>
          rw [quiet (by simp)]
          rcases same with rfl | rfl
          · exact .fresh idle state tasks metadata initial proper
          · exact .fresh idle state tasks metadata initial proper
      | setBatchBudget steps _ same =>
          rw [quiet (by simp), same]
          exact .fresh idle state tasks metadata initial proper
      | background index _ _ _ _ _ found => simp [tasks] at found
      | publish index _ _ _ found => simp [tasks] at found
  | preparing preparing first =>
      by_cases calls : ∃ call, action = .call call
      · obtain ⟨call, rfl⟩ := calls
        cases moved with
        | call _ idle same =>
            cases preparing with
            | busy _ _ _ busy => simp [busy] at idle
            | broken _ _ _ _ _ breaks => exact breaks.elim
            | ready job metadata tasks _ state joined init =>
                have split : call :: callsOf rest = _ := upcoming
                rw [← split] at first
                obtain ⟨_, later, listed, only, isRun | isStart⟩ := first
                · obtain ⟨stepCount, order, rfl, positive⟩ := isRun
                  obtain ⟨rfl, rfl⟩ := List.cons.inj listed
                  rw [same]
                  have limit : some stepCount ≠ some 0 := by simpa using positive
                  exact .underway (underway_of_initialized idle state tasks metadata init joined admitted limit) only
                · obtain ⟨order, rfl⟩ := isStart
                  obtain ⟨rfl, rfl⟩ := List.cons.inj listed
                  rw [same]
                  simp only [perform, state, ne_eq, not_true_eq_false, if_false]
                  have started := underway_of_initialized idle state tasks metadata init joined admitted
                    (show (none : Option Nat) ≠ some 0 by simp)
                  simp only [state] at started
                  exact .underway started only
      · have noCall : ∀ call, action ≠ .call call := fun call same => calls ⟨call, same⟩
        rw [quiet noCall]
        exact .preparing (preparing.step (Initializing.kept healthy serves) noCall admitted moved) first
  | underway under only =>
      have onlyThis : ∀ call, action = .call call → call = .continuePipeline := by
        intro call isCall
        subst isCall
        have split : call :: callsOf rest = calls := upcoming
        exact only call (split ▸ List.mem_cons_self)
      have later : ContinueOnly (callsOf rest) := by
        intro call member
        apply only call
        rw [← upcoming]
        cases action with
        | call other => exact List.mem_cons_of_mem _ member
        | _ => exact member
      have kept := under.step healthy serves admitted onlyThis budget moved
      exact .underway kept later

/-- Every proper trace ends in a stage without further calls. -/
theorem Stage.reached {environment : Environment Table Key Data}
    (healthy : environment.Healthy setting.metadata.Planned)
    (serves : setting.served → environment.Serves setting.source setting.metadata.Planned)
    {actions : List (PipelineAction Table Key Data)} {final : ETLPipeline Table Key Data}
    (admitted : ∀ action ∈ actions, environment.AdmitsPipeline setting.metadata action)
    (budgets : ∀ steps, .setBatchBudget steps ∈ actions → steps ≠ 0)
    (proper : InitializedFirst (callsOf actions) ∨ RunAtOnce (callsOf actions))
    (ran : (pipelineMachine setting.config environment setting.metadata).run (.new setting.metadata) actions =
      some final) : Stage setting final [] := by
  have ended := (pipelineMachine setting.config environment setting.metadata).run_invariant
    (fun pipeline rest => Stage setting pipeline (callsOf rest) ∧
      ∀ steps, .setBatchBudget steps ∈ rest → steps ≠ 0) ?_
    admitted ran ⟨.fresh rfl rfl rfl rfl rfl proper, budgets⟩
  · exact ended.1
  · intro pipeline action rest next allowed holds stepped
    obtain ⟨stage, positive⟩ := holds
    refine ⟨stage.step healthy serves allowed ?_ (pipelineStep_moves stepped), ?_⟩
    · intro steps same
      exact positive steps (same ▸ List.mem_cons_self)
    · intro steps member
      exact positive steps (List.mem_cons_of_mem _ member)

/-- In every stage the ids of each table were handed over in ascending order, and all are listed. -/
theorem Stage.ascending (stage : Stage setting pipeline []) (table : Table) :
    (handedIds table pipeline.shared.history).Pairwise (· < ·) ∧
      ∀ batchId ∈ handedIds table pipeline.shared.history, setting.metadata.Planned table batchId := by
  have since : ∀ shared : Shared Table Key Data, handedIds table shared.history = handedSince [] shared table :=
    fun _ => rfl
  cases stage with
  | fresh _ _ _ _ initial =>
      rw [initial]
      exact ⟨List.Pairwise.nil, by simp [Shared.initial]⟩
  | preparing preparing =>
      have starting : ∃ job, Starting setting.metadata pipeline.shared job := by
        cases preparing with
        | busy job _ _ _ _ init => exact ⟨job, init.starting⟩
        | ready job _ _ _ _ _ init => exact ⟨job, init.starting⟩
        | broken _ _ _ _ _ breaks => exact breaks.elim
      obtain ⟨job, starting⟩ := starting
      rw [since]
      refine ⟨(List.pairwise_append.mp (starting.ledger.ascending table)).1, ?_⟩
      intro batchId member
      exact (starting.ledger.line table batchId (List.mem_append_left _ member)).planned
  | underway under =>
      obtain ⟨run, current⟩ := under.attended.holds
      rw [since]
      refine ⟨(List.pairwise_append.mp (current.ledger.ascending table)).1, ?_⟩
      intro batchId member
      exact current.ledger.line table batchId (List.mem_append_left _ member)

/-- In a paused or stopped state the current run has returned with that state. -/
theorem Stage.returned (stage : Stage setting pipeline []) {state : PipelineState}
    (ended : pipeline.state = state) (settled : state = .paused ∨ ∃ reason, state = .stopped reason) :
    ∃ run : RunTask Table Key Data, run.phase = .returned state ∧ Current setting pipeline.shared run := by
  have excluded : state ≠ .notStarted ∧ state ≠ .initialized ∧ state ≠ .running := by
    rcases settled with rfl | ⟨reason, rfl⟩ <;> simp
  cases stage with
  | fresh _ fresh => exact absurd (ended.symm.trans fresh) excluded.1
  | preparing preparing =>
      cases preparing with
      | busy _ _ _ _ fresh => exact absurd (ended.symm.trans fresh) excluded.1
      | ready _ _ _ _ ready => exact absurd (ended.symm.trans ready) excluded.2.1
      | broken _ _ _ _ _ breaks => exact breaks.elim
  | underway under =>
      obtain ⟨⟨run, phase, current⟩, _⟩ := under.attended.settled (by rw [ended]; exact excluded.2.2)
      exact ⟨run, ended ▸ phase, current⟩

/-- A completed run leaves nothing pending. -/
theorem Current.completed {shared : Shared Table Key Data} {run : RunTask Table Key Data}
    (current : Current setting shared run) (ended : run.phase = .returned (.stopped .completed))
    (table : Table) (batchId : Nat) :
    batchId ∈ handedIds table shared.history ↔ setting.metadata.Planned table batchId := by
  obtain ⟨start, past, segment⟩ := current.segment
  obtain ⟨outcome, _, pending⟩ := segment.returned ended
  obtain ⟨_, ledger, complete, _⟩ := current.settled ended
  have unbounded : checkpointMaxBatchId start run.stepLimit = none := by
    by_contra bounded
    simp [Option.isSome_iff_ne_none.mpr bounded] at outcome
  constructor
  · intro member
    exact ledger.line table batchId (List.mem_append_left _ member)
  · intro listed
    rcases complete table batchId listed with member | held | waiting
    · exact member
    · simp at held
    · obtain ⟨_, boundary, found, _⟩ := (pending table batchId).mp waiting
      simp [unbounded] at found

end Stages

/-- The ids of each table are handed over in ascending order along every proper trace, and once the
pipeline has completed, each listed id was handed over exactly once and its rows are in the sink. -/
theorem exactly_once_in_order (config : EtlConfig Key Data) (environment : Environment Table Key Data)
    (metadata : Metadata Table) (actions : List (PipelineAction Table Key Data))
    (final : ETLPipeline Table Key Data) (healthy : environment.Healthy metadata.Planned)
    (admitted : ∀ action ∈ actions, environment.AdmitsPipeline metadata action)
    (proper : InitializedFirst (callsOf actions)) (budgets : ∀ steps, .setBatchBudget steps ∉ actions)
    (ran : (pipelineMachine config environment metadata).run (.new metadata) actions = some final) :
    (∀ table, (handedIds table final.shared.history).Pairwise (· < ·)) ∧
    (final.state = .stopped .completed →
      (∀ table batchId, metadata.Planned table batchId →
        final.shared.history.count (.handed table batchId) = 1) ∧
      (∀ table batchId, .handed table batchId ∈ final.shared.history → metadata.Planned table batchId) ∧
      ∀ source, environment.Serves source metadata.Planned → ∀ table,
        (sinkRows table final.shared.sink).Perm (stripInternalColumns
          ((handedIds table final.shared.history).flatMap (source.rows table)))) := by
  have stage : ∀ source served, (served → environment.Serves source metadata.Planned) →
      Stage ⟨config, metadata, source, served⟩ final [] := by
    intro source served serves
    exact Stage.reached healthy serves admitted (fun steps member => absurd member (budgets steps))
      (.inl proper) ran
  have plain := stage ⟨fun _ _ => [], fun _ => changeSchema⟩ False False.elim
  refine ⟨fun table => (plain.ascending table).1, ?_⟩
  intro ended
  obtain ⟨run, returned, current⟩ := plain.returned ended (.inr ⟨_, rfl⟩)
  refine ⟨?_, ?_, ?_⟩
  · intro table batchId listed
    have member := (current.completed returned table batchId).mpr listed
    rw [← count_handedIds]
    exact List.count_eq_one_of_mem ((plain.ascending table).1.imp Nat.ne_of_lt) member
  · intro table batchId handed
    exact (plain.ascending table).2 batchId (mem_handedIds.mpr handed)
  · intro source serves table
    obtain ⟨_, phase, served⟩ := (stage source True fun _ => serves).returned ended (.inr ⟨_, rfl⟩)
    have rows := ((served.settled phase).2.2.2 trivial).rows table
    rw [List.append_nil, List.nil_append] at rows
    exact rows

/-- The sample pipeline is initialized, run to its end, and completes. -/
def completedTrace : List (PipelineAction Unit Nat Unit) :=
  [.call (.initializePipeline [()]), .initTask () (.firstRead 0 (sampleRead 0)), .initTask () .nextBatch,
    .initTask () .nextSegment, .initTask () (.writeChunk 0 (.ok ())), .initTask () .finish, .initCollect (),
    .initDone (.ok ()), .call (.run 5 [()]), .background 0 .start, .background 0 (.loopHead false (.ok ())),
    .background 0 (.task () .reserve), .background 0 (.task () (.join 1 (sampleRead 1))),
    .background 0 (.task () .nextBatch), .background 0 (.task () .nextSegment),
    .background 0 (.task () (.writeChunk 0 (.ok ()))), .background 0 (.task () .finish),
    .background 0 (.collect ()), .background 0 .stepDone, .background 0 (.loopHead false (.ok ())),
    .publish 0]

theorem exactly_once_in_order_sample :
    ∃ final, (pipelineMachine sampleConfig sampleEnvironment sampleMetadata).run (.new sampleMetadata)
        completedTrace = some final ∧ final.state = .stopped .completed ∧
      final.shared.history.count (.handed () 0) = 1 ∧ final.shared.history.count (.handed () 1) = 1 := by
  have ended : ((pipelineMachine sampleConfig sampleEnvironment sampleMetadata).run
      (.new sampleMetadata) completedTrace).map ETLPipeline.state = some (.stopped .completed) := by
    decide
  obtain ⟨final, ran, completed⟩ := Option.map_eq_some_iff.mp ended
  have results := exactly_once_in_order sampleConfig sampleEnvironment sampleMetadata completedTrace final
    (sampleEnvironment_healthy _)
    (by simp [completedTrace, Environment.AdmitsPipeline, Environment.AdmitsRun, Environment.AdmitsTask,
      Environment.AdmitsFlush, sampleMetadata, sampleEnvironment, sampleRead])
    ⟨[()], _, rfl, _, _, rfl, by simp [ContinueOnly], .inl ⟨5, [()], rfl, by decide⟩⟩
    (by simp [completedTrace]) ran
  have once := (results.2 completed).1
  exact ⟨final, ran, completed, once () 0 ⟨by simp [sampleMetadata], by decide⟩,
    once () 1 ⟨by simp [sampleMetadata], by decide⟩⟩

end Spicebench.Etl
