import Spicebench.Proof.Etl.Pipeline
import Spicebench.Proof.Etl.Ledger

namespace Spicebench.Etl
open Library

variable {Table Key Data : Type} [DecidableEq Table]

/-- The metadata lists the batch of the table. -/
def Metadata.Planned (metadata : Metadata Table) (table : Table) (batchId : Nat) : Prop :=
  table ∈ metadata.tables ∧ batchId ∈ metadata.batchIds table

/-- The batch is the one that `initialize` handles for the table. -/
def Metadata.First (metadata : Metadata Table) (table : Table) (batchId : Nat) : Prop :=
  table ∈ metadata.tables ∧ (metadata.batchIds table).head? = some batchId

omit [DecidableEq Table] in
theorem Metadata.First.planned {metadata : Metadata Table} {table : Table} {batchId : Nat}
    (first : metadata.First table batchId) : metadata.Planned table batchId :=
  ⟨first.1, List.mem_of_head? first.2⟩

omit [DecidableEq Table] in
/-- The first id of a table is the least one. -/
theorem Metadata.First.least {metadata : Metadata Table} {table : Table} {batchId otherId : Nat}
    (first : metadata.First table batchId) (planned : metadata.Planned table otherId) :
    batchId ≤ otherId := by
  have sorted := batchIds_sorted metadata table
  have member := planned.2
  have head := first.2
  cases listed : metadata.batchIds table with
  | nil => simp [listed] at member
  | cons least rest =>
      rw [listed] at sorted member head
      obtain rfl : least = batchId := by simpa using head
      rcases List.mem_cons.mp member with rfl | later
      · exact le_rfl
      · exact (List.pairwise_cons.mp sorted).1 otherId later

/-- A plan holds every listed id, or all but the first one of each table. -/
theorem Metadata.pending_plan (metadata : Metadata Table) {order : List Table}
    (perm : order.Perm metadata.tables) (skipFirst : Bool) (table : Table) (batchId : Nat) :
    (buildWorkPlan metadata order skipFirst).Pending table batchId ↔
      metadata.Planned table batchId ∧ (skipFirst = true → ¬ metadata.First table batchId) := by
  rw [pending_buildWorkPlan, perm.mem_iff]
  unfold Metadata.Planned Metadata.First
  tauto

/-- Nothing has been planned, counted or handed over yet. -/
def Shared.initial : Shared Table Key Data := ⟨⟨.empty, []⟩, fun _ => none, [], []⟩

/-- Each task of `initialize` holds the first id of its table, and nothing is planned yet. -/
structure Starting (metadata : Metadata Table) (shared : Shared Table Key Data)
    (job : InitJob Table Key Data) : Prop where
  ledger : Ledger metadata.First [] shared (pool [] TaskState.held job.active job.tasks)
  planless : ∀ table batchId, ¬ shared.work.steps.Pending table batchId
  nodup : job.active.Nodup
  cursors : ∀ table ∈ job.active, (job.tasks table).CursorLast

namespace Starting

variable {metadata : Metadata Table} {shared next : Shared Table Key Data} {job : InitJob Table Key Data}
  {table : Table} {config : EtlConfig Key Data}

/-- The tasks of `initialize` hold exactly the first ids when they start. -/
theorem held_start {order : List Table} (perm : order.Perm metadata.tables) (table : Table) (batchId : Nat) :
    batchId ∈ pool [] TaskState.held
      (ETLPipeline.initJob metadata order : InitJob Table Key Data).active
      (ETLPipeline.initJob metadata order : InitJob Table Key Data).tasks table ↔
      metadata.First table batchId := by
  simp only [pool, ETLPipeline.initJob, List.mem_filter, perm.mem_iff, TaskState.held, Metadata.First]
  cases (metadata.batchIds table).head? with
  | none => simp
  | some first =>
      by_cases member : table ∈ metadata.tables
      · simp [member, eq_comm]
      · simp [member]

theorem start {order : List Table} (perm : order.Perm metadata.tables) :
    Starting metadata (.initial : Shared Table Key Data) (ETLPipeline.initJob metadata order) := by
  have nothing : ∀ table, handedSince [] (.initial : Shared Table Key Data) table = [] := fun _ => rfl
  refine ⟨⟨List.nil_prefix, ?_, ?_, ?_, ?_⟩, by simp [Shared.initial], ?_, ?_⟩
  · intro table
    rw [nothing, List.nil_append]
    unfold pool
    split_ifs
    · exact List.pairwise_singleton _ _
    · exact List.Pairwise.nil
  · intro table batchId member
    rw [nothing, List.nil_append] at member
    exact (held_start perm table batchId).mp member
  · intro table batchId pending
    exact absurd pending (WorkPlan.not_pending_empty table batchId)
  · intro table batchId pending
    exact absurd pending (WorkPlan.not_pending_empty table batchId)
  · exact (perm.nodup_iff.mpr metadata.nodup).filter _
  · intro table _
    trivial

/-- The line of a table has at most one id, so its task holds nothing beyond its first id. -/
theorem held_tail (starting : Starting metadata shared job) (member : table ∈ job.active) :
    (job.tasks table).held.tail = [] := by
  have holds : pool [] TaskState.held job.active job.tasks table = (job.tasks table).held := if_pos member
  have ascending := (List.pairwise_append.mp (starting.ledger.ascending table)).2.1
  have first : ∀ heldId ∈ (job.tasks table).held, metadata.First table heldId := by
    intro heldId inside
    rw [← holds] at inside
    exact starting.ledger.line table heldId (List.mem_append_right _ inside)
  rw [holds] at ascending
  cases line : (job.tasks table).held with
  | nil => rfl
  | cons one others =>
      cases others with
      | nil => rfl
      | cons two more =>
          rw [line] at ascending first
          have order := (List.pairwise_cons.mp ascending).1 two List.mem_cons_self
          have head := (first one List.mem_cons_self).2
          have other := (first two (List.mem_cons_of_mem _ List.mem_cons_self)).2
          have same : one = two := Option.some.inj (head.symm.trans other)
          omega

/-- A step of one task keeps the invariant, whatever its outcome is. -/
theorem task (starting : Starting metadata shared job) {action : TaskAction Key Data}
    {result : TaskState Key Data} (member : table ∈ job.active)
    (stepped : taskStep config none table shared (job.tasks table) action = some (next, result)) :
    Starting metadata next { job with tasks := Function.update job.tasks table result } := by
  have holds : pool [] TaskState.held job.active job.tasks table = (job.tasks table).held := if_pos member
  have moved := taskStep_moves (starting.cursors table member) stepped
  have single := starting.held_tail member
  constructor
  · exact starting.ledger.move holds moved (pool_update [] TaskState.held job.tasks member result)
  · intro other batchId pending
    cases moved with
    | stay _ work =>
        rw [work] at pending
        exact starting.planless other batchId pending
    | reserve reservedId _ reserved =>
        exact starting.planless table reservedId (WorkPlan.reserve_some reserved).1
    | leave _ restored _ steps _ _ _ _ later =>
        rw [single, List.sublist_nil] at later
        rw [steps, later] at pending
        exact starting.planless other batchId pending
  · exact starting.nodup
  · intro other inside
    by_cases same : other = table
    · subst same
      simp only [Function.update_self]
      exact moved.after_cursorLast
    · simp only [Function.update_of_ne same]
      exact starting.cursors other inside

/-- Joining a finished task keeps the invariant. -/
theorem collect (starting : Starting metadata shared job) {outcome : Except String TaskReport}
    (done : job.tasks table = .done outcome) :
    Starting metadata shared { job with active := job.active.erase table } := by
  have held := pool_erase [] TaskState.held job.active job.tasks (show (job.tasks table).held = [] by rw [done]; rfl)
  constructor
  · rw [held]
    exact starting.ledger
  · exact starting.planless
  · exact starting.nodup.erase table
  · exact fun other inside => starting.cursors other (List.mem_of_mem_erase inside)

/-- The ids that a broken `initialize` still holds are dropped. -/
theorem release (starting : Starting metadata shared job) : Ledger metadata.First [] shared fun _ => [] :=
  starting.ledger.release rfl (List.append_nil _).symm (by simp) fun _ => List.nil_sublist _

/-- The plan after `initialize` lists only ids beyond those that were handed over. -/
theorem ledger_plan (starting : Starting metadata shared job) {order : List Table}
    (perm : order.Perm metadata.tables) :
    Ledger metadata.Planned [] { shared with work := ⟨buildWorkPlan metadata order true, []⟩ } fun _ => [] := by
  have ledger := starting.release
  have pending := metadata.pending_plan perm true
  refine ⟨List.nil_prefix, ledger.ascending, ?_, ?_, ?_⟩
  · intro table batchId member
    exact (ledger.line table batchId member).planned
  · intro table batchId planned
    exact ((pending table batchId).mp planned).1
  · intro table batchId planned earlier member
    obtain ⟨listed, later⟩ := (pending table batchId).mp planned
    have first := ledger.line table earlier member
    have atMost := first.least listed
    have differ : earlier ≠ batchId := fun same => later rfl (same ▸ first)
    omega

end Starting

/-- These are the facts about one step of `initialize` that carry a property of it, and lead to
another one when it breaks. -/
structure InitKept (config : EtlConfig Key Data) (environment : Environment Table Key Data)
    (Holds : Shared Table Key Data → InitJob Table Key Data → Prop)
    (Breaks : Shared Table Key Data → Prop) : Prop where
  task : ∀ shared next job table action result, table ∈ job.active → environment.AdmitsTask table action →
    Holds shared job → taskStep config none table shared (job.tasks table) action = some (next, result) →
    Holds next { job with tasks := Function.update job.tasks table result }
  collect : ∀ shared job table report, job.tasks table = .done (.ok report) → Holds shared job →
    Holds shared { job with active := job.active.erase table }
  fail : ∀ shared job table message, table ∈ job.active → job.tasks table = .done (.error message) →
    Holds shared job → Breaks shared
  flush : ∀ shared job message, environment.flushFails message → Holds shared job → Breaks shared.fail

/-- The pipeline is being initialized, has been initialized, or has broken on the way. -/
inductive Preparing (Holds : Shared Table Key Data → InitJob Table Key Data → Prop)
    (Breaks : Shared Table Key Data → Prop) (metadata : Metadata Table)
    (pipeline : ETLPipeline Table Key Data) : Prop where
  | busy (job : InitJob Table Key Data) (same : pipeline.metadata = metadata) (tasks : pipeline.tasks = [])
      (busy : pipeline.initializing = some job) (state : pipeline.state = .notStarted)
      (holds : Holds pipeline.shared job)
  | ready (job : InitJob Table Key Data) (same : pipeline.metadata = metadata) (tasks : pipeline.tasks = [])
      (idle : pipeline.initializing = none) (state : pipeline.state = .initialized) (joined : job.active = [])
      (holds : Holds pipeline.shared job)
  | broken (message : String) (same : pipeline.metadata = metadata) (tasks : pipeline.tasks = [])
      (idle : pipeline.initializing = none) (state : pipeline.state = .stopped (.error message))
      (breaks : Breaks pipeline.shared)

namespace Preparing

variable {Holds : Shared Table Key Data → InitJob Table Key Data → Prop}
  {Breaks : Shared Table Key Data → Prop} {metadata : Metadata Table}
  {pipeline next : ETLPipeline Table Key Data} {config : EtlConfig Key Data}
  {environment : Environment Table Key Data}

omit [DecidableEq Table] in
theorem tasks_nil (preparing : Preparing Holds Breaks metadata pipeline) : pipeline.tasks = [] := by
  cases preparing with
  | busy _ _ tasks => exact tasks
  | ready _ _ tasks => exact tasks
  | broken _ _ tasks => exact tasks

omit [DecidableEq Table] in
/-- Weaker properties hold of the preparation too. -/
theorem mono {Fewer : Shared Table Key Data → InitJob Table Key Data → Prop} {Spoils : Shared Table Key Data → Prop}
    (preparing : Preparing Holds Breaks metadata pipeline)
    (weaker : ∀ job, Holds pipeline.shared job → Fewer pipeline.shared job)
    (spoils : Breaks pipeline.shared → Spoils pipeline.shared) : Preparing Fewer Spoils metadata pipeline := by
  cases preparing with
  | busy job same tasks busy state holds => exact .busy job same tasks busy state (weaker job holds)
  | ready job same tasks idle state joined holds => exact .ready job same tasks idle state joined (weaker job holds)
  | broken message same tasks idle state breaks => exact .broken message same tasks idle state (spoils breaks)

/-- A step that is not a call keeps the preparation when the steps of `initialize` keep its property. -/
theorem step (preparing : Preparing Holds Breaks metadata pipeline)
    (kept : InitKept config environment Holds Breaks) {action : PipelineAction Table Key Data}
    (noCall : ∀ call, action ≠ .call call) (admitted : environment.AdmitsPipeline metadata action)
    (moved : PipelineMove config pipeline next action) : Preparing Holds Breaks metadata next := by
  have same : pipeline.metadata = metadata := by
    cases preparing with
    | busy _ same => exact same
    | ready _ same => exact same
    | broken _ same => exact same
  have tasks := preparing.tasks_nil
  have current : ∀ job, pipeline.initializing = some job →
      pipeline.state = .notStarted ∧ Holds pipeline.shared job := by
    intro job running
    cases preparing with
    | busy other _ _ busy state holds =>
        obtain rfl : other = job := by simpa [busy] using running
        exact ⟨state, holds⟩
    | ready _ _ _ idle => simp [idle] at running
    | broken _ _ _ idle => simp [idle] at running
  cases moved with
  | call call => exact absurd rfl (noCall call)
  | initTask job table taskAction shared result busy member stepped after =>
      obtain ⟨state, holds⟩ := current job busy
      subst after
      exact .busy _ same tasks rfl state
        (kept.task _ _ job table taskAction result member admitted holds stepped)
  | initCollect job table report busy member done after =>
      obtain ⟨state, holds⟩ := current job busy
      subst after
      exact .busy _ same tasks rfl state (kept.collect _ job table report done holds)
  | initFail job table message busy member done after =>
      obtain ⟨_, holds⟩ := current job busy
      subst after
      exact .broken message same tasks rfl rfl (kept.fail _ job table message member done holds)
  | initDone job busy joined after =>
      obtain ⟨_, holds⟩ := current job busy
      subst after
      exact .ready job same tasks rfl rfl joined holds
  | initFlushFail job message text busy joined after =>
      obtain ⟨_, holds⟩ := current job busy
      subst after
      exact .broken text same tasks rfl rfl (kept.flush _ job message admitted holds)
  | wait idle after =>
      cases preparing with
      | busy job _ _ busy => simp [busy] at idle
      | ready job _ _ _ state joined holds =>
          rcases after with rfl | rfl
          · exact .ready job same tasks idle state joined holds
          · exact .ready job same tasks idle state joined holds
      | broken message _ _ _ state breaks =>
          rcases after with rfl | rfl
          · exact .broken message same tasks idle state breaks
          · exact .broken message same tasks idle state breaks
  | setBatchBudget steps idle after =>
      subst after
      cases preparing with
      | busy job _ _ busy => simp [busy] at idle
      | ready job _ _ _ state joined holds => exact .ready job same tasks idle state joined holds
      | broken message _ _ _ state breaks => exact .broken message same tasks idle state breaks
  | background index _ _ _ _ _ found => simp [tasks] at found
  | publish index _ _ _ found => simp [tasks] at found

end Preparing

end Spicebench.Etl
