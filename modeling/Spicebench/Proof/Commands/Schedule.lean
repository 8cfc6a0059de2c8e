import Spicebench.Proof.Commands.Background
import Spicebench.Proof.Etl.ExactlyOnce

namespace Spicebench.Commands
open Library Etl DataGeneration

variable {Table Key Data : Type} [DecidableEq Table]

/-- These are the keys of the plan that follows `initialize`. -/
def planKeys (metadata : Metadata Table) : List Nat := (buildWorkPlan metadata metadata.tables true).keys

/-- The batch belongs to the first ids, or to this many keys of the plan. -/
def Covered (metadata : Metadata Table) (count : Nat) (table : Table) (batchId : Nat) : Prop :=
  metadata.Planned table batchId ∧ (metadata.First table batchId ∨ batchId ∈ (planKeys metadata).take count)

/-- Every checkpoint of the list holds the first keys of the plan and those of its intervals. -/
def Scheduled (metadata : Metadata Table) (first interval : Nat) (checkpoints : List (Checkpoint Table)) : Prop :=
  ∀ checkpoint ∈ checkpoints, ∀ table batchId, .handed table batchId ∈ checkpoint.history ↔
    Covered metadata (first + checkpoint.index * interval) table batchId

/-- Exactly this many keys of the plan are done, and the others are pending. -/
structure Done (metadata : Metadata Table) (count : Nat) (shared : Shared Table Key Data) : Prop where
  handed : ∀ table batchId, .handed table batchId ∈ shared.history ↔ Covered metadata count table batchId
  pending : ∀ table batchId, shared.work.steps.Pending table batchId ↔
    metadata.Planned table batchId ∧ ¬ metadata.First table batchId ∧ batchId ∉ (planKeys metadata).take count
  unfinished : shared.work.finishedTables = []

/-- The current run leads from one count of done keys to the target. -/
def Approaching (metadata : Metadata Table) (target : Nat) (shared : Shared Table Key Data)
    (run : RunTask Table Key Data) : Prop :=
  ∃ (count limit : Nat) (start : Shared Table Key Data), count + limit = target ∧ Done metadata count start ∧
    Segment (some limit) start.work.steps start.history shared run

/-- A run that starts over hands over only what was handed over before. -/
structure Replaying (metadata : Metadata Table) (shared : Shared Table Key Data)
    (run : RunTask Table Key Data) : Prop where
  regular : Regular run
  again : ∃ past, Ledger metadata.Planned past shared run.held ∧
    ∀ table batchId, .handed table batchId ∈ past ↔ metadata.Planned table batchId

section Keys

variable {metadata : Metadata Table} {table : Table} {batchId count : Nat}

/-- A key of the plan is a listed id of some table that is not its first one. -/
theorem mem_planKeys : batchId ∈ planKeys metadata ↔
    ∃ table, metadata.Planned table batchId ∧ ¬ metadata.First table batchId := by
  unfold planKeys
  rw [WorkPlan.mem_keys_iff]
  simp only [metadata.pending_plan (List.Perm.refl _), forall_const]

/-- Once every key is done, every listed batch is covered. -/
theorem covered_all (enough : (planKeys metadata).length ≤ count) :
    Covered metadata count table batchId ↔ metadata.Planned table batchId := by
  unfold Covered
  rw [List.take_of_length_le enough]
  constructor
  · exact And.left
  · intro planned
    refine ⟨planned, ?_⟩
    by_cases first : metadata.First table batchId
    · exact .inl first
    · exact .inr (mem_planKeys.mpr ⟨table, planned, first⟩)

end Keys

section Runs

variable {metadata : Metadata Table} {count limit target : Nat} {shared next : Shared Table Key Data}
  {run after : RunTask Table Key Data} {config : EtlConfig Key Data} {environment : Environment Table Key Data}

/-- The plan after `initialize` has nothing done but the first ids. -/
theorem Done.start {setting : Setting Table Key Data} {job : InitJob Table Key Data}
    (init : Initializing setting shared job) (joined : job.active = []) {order : List Table}
    (perm : order.Perm setting.metadata.tables) :
    Done setting.metadata 0 { shared with work := ⟨buildWorkPlan setting.metadata order true, []⟩ } := by
  have ledger := init.starting.release
  have complete := init.complete
  have empty : pool [] TaskState.held job.active job.tasks = fun _ => [] := by
    funext table
    simp [pool, joined]
  rw [empty] at complete
  have handed : ∀ table batchId, .handed table batchId ∈ shared.history ↔
      setting.metadata.First table batchId := by
    intro table batchId
    rw [← mem_handedIds]
    constructor
    · intro member
      exact ledger.line table batchId (List.mem_append_left _ member)
    · intro first
      rcases complete table batchId first with member | held | pending
      · exact member
      · simp at held
      · exact absurd pending (init.starting.planless table batchId)
  constructor
  · intro table batchId
    rw [handed]
    simp only [Covered, List.take_zero, List.not_mem_nil, or_false]
    exact ⟨fun first => ⟨first.planned, first⟩, And.right⟩
  · intro table batchId
    rw [setting.metadata.pending_plan perm]
    simp
  · rfl

/-- The remaining plan has the remaining keys. -/
theorem Done.keys (done : Done metadata count shared) :
    shared.work.steps.keys = (planKeys metadata).drop count := by
  apply keys_eq_drop
  intro table batchId
  rw [done.pending, metadata.pending_plan (List.Perm.refl _)]
  simp [planKeys, and_assoc]

/-- A run with a budget leads that many keys further. -/
theorem Approaching.spawn (done : Done metadata count shared) (positive : limit ≠ 0) :
    Approaching metadata (count + limit) shared (.spawn (some limit)) :=
  ⟨count, limit, shared, rfl, done, Segment.spawn shared done.unfinished (by simpa using positive)⟩

theorem Approaching.step {action : RunAction Table Key Data} (approaching : Approaching metadata target shared run)
    (healthy : environment.Healthy metadata.Planned) (admitted : environment.AdmitsRun action)
    (moved : RunMove config shared next run after action) : Approaching metadata target next after := by
  obtain ⟨count, limit, start, sum, done, segment⟩ := approaching
  have line : ∀ table, ∀ batchId ∈ run.held table, metadata.Planned table batchId := by
    intro table batchId member
    have pending := segment.ledger.line table batchId (List.mem_append_right _ member)
    exact ((done.pending table batchId).mp pending).1
  have proper := healthy.runAction segment.healthy line admitted moved
  exact ⟨count, limit, start, sum, done, segment.step moved proper⟩

/-- A run that has returned has reached its target, and completes only when the keys run out. -/
theorem Approaching.returned (approaching : Approaching metadata target shared run) {outcome : PipelineState}
    (ended : run.phase = .returned outcome) :
    Done metadata target shared ∧
      (outcome = .paused ∨ outcome = .stopped .completed ∧ (planKeys metadata).length < target) := by
  obtain ⟨count, limit, start, rfl, done, segment⟩ := approaching
  obtain ⟨outcomeIs, since, left⟩ := segment.returned_keys ended
  have keys := done.keys
  rw [keys] at outcomeIs since left
  have split : ∀ batchId, batchId ∈ (planKeys metadata).take (count + limit) ↔
      batchId ∈ (planKeys metadata).take count ∨ batchId ∈ ((planKeys metadata).drop count).take limit := by
    intro batchId
    rw [List.take_add, List.mem_append]
  refine ⟨⟨?_, ?_, segment.healthy.1⟩, ?_⟩
  · intro table batchId
    have whole : .handed table batchId ∈ shared.history ↔
        .handed table batchId ∈ start.history ∨ batchId ∈ handedSince start.history shared table := by
      have parts := @handedSince_trans _ _ _ _ [] start shared List.nil_prefix segment.ledger.grown table
      rw [← mem_handedIds, ← mem_handedIds, ← List.mem_append]
      exact iff_of_eq (congrArg (batchId ∈ ·) parts)
    rw [whole, done.handed, since, done.pending]
    unfold Covered
    rw [split]
    tauto
  · intro table batchId
    rw [left, done.pending, split]
    tauto
  · rw [outcomeIs]
    rw [List.length_drop]
    split_ifs with enough
    · exact .inl rfl
    · exact .inr ⟨rfl, by omega⟩

theorem Approaching.regular (approaching : Approaching metadata target shared run) : Regular run := by
  obtain ⟨count, limit, start, sum, done, segment⟩ := approaching
  refine ⟨segment.shape, ?_⟩
  intro outcome ended
  rcases (Approaching.returned ⟨count, limit, start, sum, done, segment⟩ ended).2 with paused | ⟨completed, _⟩
  · exact .inl paused
  · exact .inr ⟨_, completed⟩

/-- The run waits only for listed ids. -/
theorem Approaching.awaited (approaching : Approaching metadata target shared run) (table : Table) :
    ∀ batchId ∈ run.awaited table, metadata.Planned table batchId := by
  obtain ⟨count, limit, start, sum, done, segment⟩ := approaching
  intro batchId member
  have held := segment.healthy.awaited_held table batchId member
  have pending := segment.ledger.line table batchId (List.mem_append_right _ held)
  exact ((done.pending table batchId).mp pending).1

/-- A run over listed ids replays once all of them were handed over. -/
theorem Replaying.spawn (all : ∀ table batchId, .handed table batchId ∈ shared.history ↔ metadata.Planned table batchId)
    (listed : ∀ table batchId, shared.work.steps.Pending table batchId → metadata.Planned table batchId)
    (stepLimit : Option Nat) : Replaying metadata shared (.spawn stepLimit) := by
  have since : ∀ table, handedSince shared.history shared table = [] := by
    intro table
    simp [handedSince]
  have nothing : (RunTask.spawn stepLimit : RunTask Table Key Data).held = fun _ => [] := rfl
  refine ⟨⟨trivial, by simp [RunTask.spawn]⟩, shared.history, ⟨List.prefix_refl _, ?_, ?_, listed, ?_⟩, all⟩
  · intro table
    simp [since, nothing]
  · intro table batchId member
    simp [since, nothing] at member
  · intro table batchId _ earlier member
    simp [since, nothing] at member

theorem Replaying.step {action : RunAction Table Key Data} (replaying : Replaying metadata shared run)
    (moved : RunMove config shared next run after action) : Replaying metadata next after := by
  obtain ⟨past, ledger, all⟩ := replaying.again
  exact ⟨⟨moved.shape replaying.regular.shape, fun _ => moved.outcome⟩, past,
    moved.ledger replaying.regular.shape ledger, all⟩

/-- While it replays, exactly the listed batches have been handed over. -/
theorem Replaying.handed (replaying : Replaying metadata shared run) (table : Table) (batchId : Nat) :
    .handed table batchId ∈ shared.history ↔ metadata.Planned table batchId := by
  obtain ⟨past, ledger, all⟩ := replaying.again
  obtain ⟨later, history⟩ := ledger.grown
  constructor
  · intro member
    rw [← history, List.mem_append] at member
    rcases member with before | since
    · exact (all table batchId).mp before
    · apply ledger.line table batchId
      apply List.mem_append_left
      unfold handedSince
      rw [← history, List.drop_left]
      exact mem_handedIds.mpr since
  · intro planned
    rw [← history]
    exact List.mem_append_left _ ((all table batchId).mpr planned)

theorem Replaying.resume (replaying : Replaying metadata shared run) (stepLimit : Option Nat) :
    Replaying metadata shared (.spawn stepLimit) := by
  obtain ⟨past, ledger, _⟩ := replaying.again
  exact .spawn replaying.handed ledger.pending stepLimit

end Runs

/-- The pipeline is being initialized or has been, in a healthy environment. -/
def Readying (config : EtlConfig Key Data) (metadata : Metadata Table) (pipeline : ETLPipeline Table Key Data) :
    Prop :=
  Preparing (Initializing ⟨config, metadata, ⟨fun _ _ => [], fun _ => changeSchema⟩, False⟩) (fun _ => False)
    metadata pipeline

section Phases

variable {config : EtlConfig Key Data} {environment : Environment Table Key Data} {metadata : Metadata Table}
  {pipeline next : ETLPipeline Table Key Data} {target : Nat}

omit [DecidableEq Table] in
/-- A healthy environment stays so when the command does not cancel. -/
theorem healthy_cancelling {planned : Table → Nat → Prop} {cancelled : Bool}
    (healthy : environment.Healthy planned) (calm : cancelled = false) :
    (cancelling environment cancelled).Healthy planned :=
  ⟨healthy.reads, healthy.writes, healthy.flushes, by simp [cancelling, calm]⟩

/-- The call of `initialize` on a new pipeline. -/
theorem Readying.start {order : List Table} (perm : order.Perm metadata.tables) :
    Readying config metadata (perform (.initializePipeline order) (.new metadata)).2 :=
  .busy (ETLPipeline.initJob metadata order) rfl rfl rfl rfl (Initializing.start perm)

/-- A step of the tasks keeps the preparation. -/
theorem Readying.step {action : PipelineAction Table Key Data} (readying : Readying config metadata pipeline)
    (healthy : environment.Healthy metadata.Planned) (admitted : environment.AdmitsPipeline metadata action)
    (stepped : progress config false pipeline action = some next) : Readying config metadata next := by
  obtain ⟨moved, spontaneous, admits⟩ := progress_moves stepped admitted
  have kept := @Initializing.kept _ _ _ _ ⟨config, metadata, ⟨fun _ _ => [], fun _ => changeSchema⟩, False⟩ _
    (healthy_cancelling healthy rfl) False.elim
  exact Preparing.step readying kept (noCall_of_spontaneous spontaneous) admits moved

theorem Readying.tidy (readying : Readying config metadata pipeline) : Tidy metadata pipeline :=
  .inl (readying.mono (fun _ init => init.starting) fun _ => trivial)

/-- The tasks of `initialize` wait only for listed ids. -/
theorem Readying.answered (readying : Readying config metadata pipeline)
    (responds : environment.Responds metadata.Planned) : Answered environment pipeline := by
  constructor
  · intro job running table member batchId waits
    cases readying with
    | busy other _ _ busy _ init =>
        obtain rfl : other = job := by simpa [busy] using running
        have held := (init.healthy table member).awaited_held batchId waits
        have inLine : batchId ∈ pool [] TaskState.held other.active other.tasks table := by
          simpa [pool, member] using held
        exact responds table batchId
          (init.starting.ledger.line table batchId (List.mem_append_right _ inLine)).planned
    | ready _ _ _ idle => simp [idle] at running
    | broken _ _ _ idle => simp [idle] at running
  · intro run member
    simp [readying.tasks_nil] at member

/-- The first run with a budget leads to that many keys. -/
theorem Readying.run {order : List Table} (readying : Readying config metadata pipeline)
    (perm : order.Perm metadata.tables) (ready : pipeline.state = .initialized) (positive : target ≠ 0) :
    Attended (Approaching metadata target) metadata (perform (.run target order) pipeline).2 := by
  cases readying with
  | busy _ _ _ _ state => simp [ready] at state
  | broken _ _ _ _ _ breaks => exact breaks.elim
  | ready job same tasks idle _ joined init =>
      have done := Done.start init joined perm
      have spawned := Approaching.spawn done positive
      rw [Nat.zero_add] at spawned
      apply Attended.plan idle same
      · simp [tasks]
      · simp only [ready, decide_true]
        exact spawned

/-- A step of the tasks keeps the target of the current run. -/
theorem approaching_step {action : PipelineAction Table Key Data}
    (attended : Attended (Approaching metadata target) metadata pipeline)
    (healthy : environment.Healthy metadata.Planned) (admitted : environment.AdmitsPipeline metadata action)
    (stepped : progress config false pipeline action = some next) :
    Attended (Approaching metadata target) metadata next := by
  obtain ⟨moved, spontaneous, admits⟩ := progress_moves stepped admitted
  apply attended.step (noCall_of_spontaneous spontaneous) ?_ moved
  intro index run runAction after isRun approaching runMoved
  subst isRun
  exact approaching.step (healthy_cancelling healthy rfl) admits runMoved

theorem approaching_tidy (attended : Attended (Approaching metadata target) metadata pipeline) :
    Tidy metadata pipeline :=
  .inr (attended.mono fun _ approaching => approaching.regular)

theorem approaching_answered (attended : Attended (Approaching metadata target) metadata pipeline)
    (responds : environment.Responds metadata.Planned) : Answered environment pipeline := by
  constructor
  · intro job busy
    simp [attended.idle] at busy
  · intro run member table batchId waits
    obtain ⟨earlier, other, status, tasks, settled, approaching, _⟩ := attended.task
    rw [tasks, List.mem_append, List.mem_singleton] at member
    rcases member with old | same
    · exact absurd rfl (settled _ old)
    · obtain ⟨rfl, _⟩ := Background.mk.inj same
      exact responds table batchId (approaching.awaited table batchId waits)

/-- The tasks of a pipeline come to rest with what each of their steps keeps. -/
theorem background_completes (config : EtlConfig Key Data) {environment : Environment Table Key Data}
    (Holds : ETLPipeline Table Key Data → Prop)
    (kept : ∀ before after action, Holds before → environment.AdmitsPipeline metadata action →
      progress config false before action = some after → Holds after)
    (tidy : ∀ pipeline, Holds pipeline → Tidy metadata pipeline)
    (answered : ∀ pipeline, Holds pipeline → Answered environment pipeline) (initial : Holds pipeline) :
    ∃ final, (backgroundMachine config environment metadata false).Reaches pipeline final ∧ Holds final ∧
      final.initializing = none ∧ final.state ≠ .running ∧ final.checkpointIdx = pipeline.checkpointIdx := by
  obtain ⟨final, reached, stuck⟩ :=
    (background_terminates config environment false (tidy pipeline initial)).exists_stuck
  have both := Machine.Reaches.invariant
    (fun later => Holds later ∧ later.checkpointIdx = pipeline.checkpointIdx) ?_ reached ⟨initial, rfl⟩
  · obtain ⟨idle, still⟩ := (tidy final both.1).rest (answered final both.1) stuck
    exact ⟨final, reached, both.1, idle, still, both.2⟩
  · intro before after holds stepped
    obtain ⟨action, admitted, stepped⟩ := stepped
    obtain ⟨moved, spontaneous, _⟩ := progress_moves stepped admitted
    exact ⟨kept before after action holds.1 admitted stepped,
      (PipelineMove.frame moved spontaneous).2.1.trans holds.2⟩

/-- `initialize` can always go on until the pipeline is initialized. -/
theorem exists_ready (config : EtlConfig Key Data) (healthy : environment.Healthy metadata.Planned)
    (responds : environment.Responds metadata.Planned) :
    ∃ ready, (backgroundMachine config environment metadata false).Reaches
        (perform (.initializePipeline metadata.tables) (.new metadata)).2 ready ∧
      Readying config metadata ready ∧ ready.initializing = none ∧ ready.state = .initialized ∧
      ready.checkpointIdx = 0 := by
  obtain ⟨ready, path, readying, idle, _, index⟩ := background_completes config (Readying config metadata)
    (fun _ _ _ readying admitted stepped => readying.step healthy admitted stepped)
    (fun _ readying => readying.tidy) (fun _ readying => readying.answered responds)
    (Readying.start (List.Perm.refl _))
  refine ⟨ready, path, readying, idle, ?_, index⟩
  cases readying with
  | busy _ _ _ busy => simp [idle] at busy
  | ready _ _ _ _ state => exact state
  | broken _ _ _ _ _ breaks => exact breaks.elim

/-- A run can always go on until it pauses or completes. -/
theorem exists_rested (config : EtlConfig Key Data) (healthy : environment.Healthy metadata.Planned)
    (responds : environment.Responds metadata.Planned)
    (attended : Attended (Approaching metadata target) metadata pipeline) :
    ∃ rested, (backgroundMachine config environment metadata false).Reaches pipeline rested ∧
      Attended (Approaching metadata target) metadata rested ∧
      (rested.state = .paused ∨ rested.state = .stopped .completed) ∧
      rested.checkpointIdx = pipeline.checkpointIdx := by
  obtain ⟨rested, path, kept, _, still, index⟩ := background_completes config
    (Attended (Approaching metadata target) metadata)
    (fun _ _ _ attended admitted stepped => approaching_step attended healthy admitted stepped)
    (fun _ attended => approaching_tidy attended) (fun _ attended => approaching_answered attended responds)
    attended
  obtain ⟨⟨run, ended, approaching⟩, _⟩ := kept.settled still
  exact ⟨rested, path, kept, (approaching.returned ended).2.imp id And.left, index⟩

end Phases

end Spicebench.Commands
