import Spicebench.Proof.Etl.RunPipeline

namespace Spicebench.Etl
open Library DataGeneration

variable {Table Key Data : Type} [DecidableEq Table]

/-- Every planned read returns data, nothing fails and nothing is cancelled. -/
structure Environment.Healthy (environment : Environment Table Key Data)
    (planned : Table → Nat → Prop) : Prop where
  reads : ∀ table batchId outcome, planned table batchId →
    environment.reads table batchId outcome → Delivers outcome
  writes : ∀ table index message, ¬ environment.writeFails table index message
  flushes : ∀ message, ¬ environment.flushFails message
  calm : ¬ environment.cancels

def RunAction.Healthy : RunAction Table Key Data → Prop
  | .loopHead cancelled flush => cancelled = false ∧ flush = .ok ()
  | .task _ action => action.Healthy
  | .cancel => False
  | _ => True

/-- No table is finished, and every task is healthy. -/
def RunTask.Healthy (shared : Shared Table Key Data) (run : RunTask Table Key Data) : Prop :=
  shared.work.finishedTables = [] ∧
    match run.phase with
    | .processing _ _ active tasks => ∀ table ∈ active, (tasks table).Healthy
    | _ => True

/-- Every planned id was handed over, is held, or is still pending. -/
def Complete (planned : Table → Nat → Prop) (past : List (Event Table))
    (shared : Shared Table Key Data) (held : Table → List Nat) : Prop :=
  ∀ table batchId, planned table batchId → batchId ∈ handedSince past shared table ∨
    batchId ∈ held table ∨ shared.work.steps.Pending table batchId

/-- No id beyond the boundary of the run was handed over or is held. -/
def Within (past : List (Event Table)) (shared : Shared Table Key Data)
    (run : RunTask Table Key Data) : Prop :=
  ∀ table, ∀ batchId ∈ handedSince past shared table ++ run.held table,
    ∀ boundary ∈ run.checkpointMaxBatchId, batchId ≤ boundary

section Admitted

variable {environment : Environment Table Key Data} {planned : Table → Nat → Prop}
  {config : EtlConfig Key Data} {shared : Shared Table Key Data}

/-- A healthy environment admits only healthy actions of a task whose ids are planned. -/
theorem Environment.Healthy.taskAction (healthy : environment.Healthy planned) {table : Table}
    {maxBatchId : Option Nat} {task : TaskState Key Data} {action : TaskAction Key Data}
    {result : Shared Table Key Data × TaskState Key Data} (fine : task.Healthy)
    (line : ∀ batchId ∈ task.held, planned table batchId)
    (admitted : environment.AdmitsTask table action)
    (stepped : taskStep config maxBatchId table shared task action = some result) : action.Healthy := by
  have inLine := taskStep_reads fine stepped
  cases action with
  | firstRead batchId outcome => exact healthy.reads table batchId outcome (line batchId (inLine batchId rfl)) admitted
  | join batchId outcome => exact healthy.reads table batchId outcome (line batchId (inLine batchId rfl)) admitted
  | writeChunk index outcome =>
      cases outcome with
      | ok value => rfl
      | error message => exact absurd admitted (healthy.writes table index message)
  | _ => trivial

theorem Environment.Healthy.runAction (healthy : environment.Healthy planned)
    {next : Shared Table Key Data} {run after : RunTask Table Key Data}
    {action : RunAction Table Key Data} (fine : run.Healthy shared)
    (line : ∀ table, ∀ batchId ∈ run.held table, planned table batchId)
    (admitted : environment.AdmitsRun action)
    (moved : RunMove config shared next run after action) : action.Healthy := by
  have head : ∀ cancelled flush, environment.AdmitsRun (.loopHead cancelled flush) →
      cancelled = false ∧ flush = .ok () := by
    intro cancelled flush admitted
    constructor
    · cases cancelled with
      | false => rfl
      | true => exact absurd (admitted.1 rfl) healthy.calm
    · cases flush with
      | ok value => rfl
      | error message => exact absurd admitted.2 (healthy.flushes message)
  cases moved with
  | start => trivial
  | giveUp _ cancelled flush => exact head cancelled flush admitted
  | pop _ cancelled flush => exact head cancelled flush admitted
  | task _ _ active tasks table action result busy member stepped =>
      simp only [RunTask.Healthy, busy] at fine
      refine healthy.taskAction (fine.2 table member) ?_ admitted stepped
      intro batchId inside
      apply line table batchId
      simpa [RunTask.held, busy, member] using inside
  | collect => trivial
  | collectError => trivial
  | stepDone => trivial
  | cancel => exact absurd admitted healthy.calm

end Admitted

section Moves

variable {config : EtlConfig Key Data} {shared next : Shared Table Key Data}
  {run after : RunTask Table Key Data} {action : RunAction Table Key Data}
  {planned : Table → Nat → Prop} {past : List (Event Table)}

theorem held_nodup (ledger : Ledger planned past shared run.held) (table : Table) :
    (run.held table).Nodup :=
  (List.pairwise_append.mp (ledger.ascending table)).2.1.imp Nat.ne_of_lt

/-- A healthy task step conserves the ids, at the level of the run. -/
theorem task_conserves {outerSteps batchId : Nat} {active : List Table}
    {tasks : Table → TaskState Key Data} {table : Table} {taskAction : TaskAction Key Data}
    {result : TaskState Key Data} (busy : run.phase = .processing outerSteps batchId active tasks)
    (member : table ∈ active) (fine : run.Healthy shared)
    (ledger : Ledger planned past shared run.held) (healthy : taskAction.Healthy)
    (stepped : taskStep config run.checkpointMaxBatchId table shared (tasks table) taskAction =
      some (next, result)) :
    Conserves table shared (tasks table).held (next, result) := by
  simp only [RunTask.Healthy, busy] at fine
  have holds : run.held table = (tasks table).held := by
    simp [RunTask.held, busy, member]
  exact taskStep_conserves (fine.2 table member) (holds ▸ held_nodup ledger table) healthy stepped

theorem taskStep_finishedTables {maxBatchId : Option Nat} {table : Table} {task result : TaskState Key Data}
    (moved : TaskMove config maxBatchId table shared next task result) :
    next.work.finishedTables = shared.work.finishedTables := by
  cases moved with
  | stay _ work => rw [work]
  | reserve _ _ _ _ finished => exact finished
  | leave _ _ _ _ finished => exact finished

/-- A healthy step keeps the run healthy. -/
theorem RunMove.healthy (moved : RunMove config shared next run after action) (shape : run.Shape)
    (ledger : Ledger planned past shared run.held) (fine : run.Healthy shared)
    (healthy : action.Healthy) : after.Healthy next := by
  obtain ⟨unfinished, tasksFine⟩ := fine
  cases moved with
  | start _ same begun => simp [RunTask.Healthy, begun, same, unfinished]
  | giveUp _ _ _ _ _ returned spent =>
      rcases spent with ⟨rfl, _⟩ | ⟨_, failed, _⟩
      · simp [RunTask.Healthy, returned, unfinished]
      · exact absurd healthy.2 failed
  | pop _ _ _ batchId tables _ _ _ same begun =>
      subst same begun
      refine ⟨unfinished, ?_⟩
      dsimp only
      split_ifs
      · trivial
      · intro table _
        refine ⟨⟨?_, ?_, ?_⟩, ?_⟩ <;> simp [ReadLoop.start]
  | task _ _ active tasks table _ result busy member stepped begun =>
      have conserved := task_conserves busy member ⟨unfinished, tasksFine⟩ ledger healthy stepped
      simp only [RunTask.Shape, busy] at shape
      simp only [busy] at tasksFine
      have finished := taskStep_finishedTables (taskStep_moves (shape.2 table member) stepped)
      refine ⟨finished.trans unfinished, ?_⟩
      simp only [begun]
      intro other inside
      by_cases same : other = table
      · subst same
        rw [Function.update_self]
        exact conserved.1
      · rw [Function.update_of_ne same]
        exact tasksFine other inside
  | collect _ _ active tasks table report busy member done same begun =>
      simp only [busy] at tasksFine
      have ended := tasksFine table member
      rw [done] at ended
      obtain ⟨_, reported, goesOn⟩ := ended
      obtain rfl := Except.ok.inj reported
      refine ⟨by simp [same, goesOn, unfinished], ?_⟩
      simp only [begun]
      exact fun other inside => tasksFine other (List.mem_of_mem_erase inside)
  | collectError _ _ active tasks table message busy member done same begun =>
      simp only [busy] at tasksFine
      have ended := tasksFine table member
      rw [done] at ended
      obtain ⟨_, reported, _⟩ := ended
      simp at reported
  | stepDone _ _ _ _ same begun => simp [RunTask.Healthy, begun, same, unfinished]
  | cancel => exact absurd healthy (by simp [RunAction.Healthy])

/-- A task step leaves what is pending for the other tables alone, and takes nothing else. -/
theorem TaskMove.pending {maxBatchId : Option Nat} {table other : Table} {task result : TaskState Key Data}
    {batchId : Nat} (moved : TaskMove config maxBatchId table shared next task result)
    (pending : shared.work.steps.Pending other batchId) :
    next.work.steps.Pending other batchId ∨ other = table ∧ batchId ∈ result.held := by
  cases moved with
  | stay _ work =>
      rw [work]
      exact .inl pending
  | reserve reservedId _ reserved _ _ _ grown =>
      obtain ⟨_, _, _, removed⟩ := WorkPlan.reserve_some reserved
      by_cases same : other = table ∧ batchId = reservedId
      · exact .inr ⟨same.1, by simp [grown, same.2]⟩
      · left
        rw [removed, WorkPlan.pending_remove]
        exact ⟨pending, same⟩
  | leave _ _ _ steps =>
      left
      rw [steps, WorkPlan.pending_restore]
      exact .inr pending

/-- A conserving task step loses no planned id. -/
theorem Complete.move {held after : Table → List Nat} {maxBatchId : Option Nat} {table : Table}
    {task result : TaskState Key Data} (complete : Complete planned past shared held)
    (grown : past <+: shared.history) (holds : held table = task.held)
    (conserved : Conserves table shared task.held (next, result))
    (moved : TaskMove config maxBatchId table shared next task result)
    (updated : after = Function.update held table result.held) : Complete planned past next after := by
  intro other batchId inside
  obtain ⟨_, handed, history, kept⟩ := conserved
  have since := handedSince_extend grown history other
  rw [handedIds_handed] at since
  rw [since, updated]
  rcases complete other batchId inside with before | held | pending
  · exact .inl (List.mem_append_left _ before)
  · by_cases same : other = table
    · subst same
      rw [holds] at held
      rw [Function.update_self, if_pos rfl]
      rcases kept batchId held with given | still | back
      · exact .inl (List.mem_append_right _ given)
      · exact .inr (.inl still)
      · exact .inr (.inr back)
    · rw [Function.update_of_ne same]
      exact .inr (.inl held)
  · rcases moved.pending pending with back | ⟨rfl, still⟩
    · exact .inr (.inr back)
    · rw [Function.update_self]
      exact .inr (.inl still)

/-- A healthy step loses no planned id. -/
theorem RunMove.complete (moved : RunMove config shared next run after action) (shape : run.Shape)
    (ledger : Ledger planned past shared run.held) (fine : run.Healthy shared)
    (healthy : action.Healthy) (complete : Complete planned past shared run.held) :
    Complete planned past next after.held := by
  have idle : (∀ outerSteps batchId active tasks,
      run.phase ≠ .processing outerSteps batchId active tasks) → ∀ table batchId,
      planned table batchId → batchId ∈ handedSince past shared table ∨
        shared.work.steps.Pending table batchId := by
    intro quiet table batchId member
    have found := complete table batchId member
    rw [RunTask.held_of_phase quiet] at found
    simpa using found
  cases moved with
  | start fresh same begun =>
      intro table batchId member
      subst same
      rcases idle (by simp [fresh]) table batchId member with handed | pending
      · exact .inl handed
      · exact .inr (.inr pending)
  | giveUp _ _ _ _ head _ spent =>
      intro table batchId member
      rcases spent with ⟨rfl, _⟩ | ⟨_, failed, _⟩
      · rcases idle (by simp [head]) table batchId member with handed | pending
        · exact .inl handed
        · exact .inr (.inr pending)
      · exact absurd healthy.2 failed
  | pop outerSteps _ _ popId tables steps head popped same begun =>
      intro table batchId member
      subst same
      obtain ⟨_, nonempty, _, members, _, remaining⟩ := WorkPlan.pop_some popped
      rcases idle (by simp [head]) table batchId member with handed | pending
      · exact .inl handed
      · by_cases popping : batchId = popId
        · -- No table is finished, so the popped id is held by its task.
          right; left
          subst popping
          have inside := (members table).mpr pending
          simp [RunTask.held, begun, fine.1, nonempty, inside, TaskState.held, ReadLoop.start]
        · exact .inr (.inr ((remaining table batchId).mpr ⟨pending, popping⟩))
  | task _ _ active tasks table taskAction result busy member stepped begun =>
      have conserved := task_conserves busy member fine ledger healthy stepped
      simp only [RunTask.Shape, busy] at shape
      have moved := taskStep_moves (shape.2 table member) stepped
      have holds : run.held table = (tasks table).held := by
        simp [RunTask.held, busy, member]
      apply complete.move ledger.grown holds conserved moved
      funext other
      by_cases same : other = table
      · subst same
        simp [RunTask.held, begun, member]
      · simp [RunTask.held, begun, busy, same]
  | collect _ _ active tasks table report busy member done same begun =>
      intro other batchId inside
      subst same
      rcases complete other batchId inside with before | held | pending
      · exact .inl before
      · right; left
        by_cases collected : other = table
        · subst collected
          simp [RunTask.held, busy, member, done, TaskState.held] at held
        · simpa [RunTask.held, busy, begun, List.mem_erase_of_ne collected] using held
      · exact .inr (.inr pending)
  | collectError _ _ active tasks table message busy member done same begun =>
      simp only [RunTask.Healthy, busy] at fine
      have ended := fine.2 table member
      rw [done] at ended
      obtain ⟨_, reported, _⟩ := ended
      simp at reported
  | stepDone _ _ _ busy same begun =>
      intro other batchId inside
      subst same
      rcases complete other batchId inside with before | held | pending
      · exact .inl before
      · simp [RunTask.held, busy] at held
      · exact .inr (.inr pending)
  | cancel => exact absurd healthy (by simp [RunAction.Healthy])

/-- A task step brings an id into line only from within the boundary. -/
theorem TaskMove.within {maxBatchId : Option Nat} {table : Table} {task result : TaskState Key Data}
    (moved : TaskMove config maxBatchId table shared next task result)
    (grown : past <+: shared.history) {batchId : Nat}
    (member : batchId ∈ handedSince past next table ++ result.held) :
    batchId ∈ handedSince past shared table ++ task.held ∨ ∀ boundary ∈ maxBatchId, batchId ≤ boundary := by
  cases moved with
  | stay failures _ history onlyFailures same =>
      rw [handedSince_extend grown history, handedIds_failures onlyFailures, List.append_nil, same] at member
      exact .inl member
  | reserve reservedId _ reserved _ _ history longer =>
      obtain ⟨_, bounded, _, _⟩ := WorkPlan.reserve_some reserved
      have since : handedSince past next table = handedSince past shared table := by
        simp [handedSince, history]
      rw [since, longer, ← List.append_assoc, List.mem_append] at member
      rcases member with before | same
      · exact .inl before
      · rw [List.mem_singleton.mp same]
        exact .inr bounded
  | leave handed restored failures _ _ history onlyFailures kept _ empty =>
      rw [List.append_assoc] at history
      rw [handedSince_extend grown history, handedIds_append, handedIds_handed, if_pos rfl,
        handedIds_failures onlyFailures, List.append_nil, empty, List.append_nil, List.mem_append] at member
      rcases member with before | given
      · exact .inl (List.mem_append_left _ before)
      · exact .inl (List.mem_append_right _ (kept.subset (List.mem_append_left _ given)))

/-- A task step on one table leaves what was handed over for the others. -/
theorem TaskMove.others {maxBatchId : Option Nat} {table other : Table} {task result : TaskState Key Data}
    (moved : TaskMove config maxBatchId table shared next task result)
    (grown : past <+: shared.history) (differ : other ≠ table) :
    handedSince past next other = handedSince past shared other := by
  cases moved with
  | stay failures _ history onlyFailures =>
      rw [handedSince_extend grown history, handedIds_failures onlyFailures, List.append_nil]
  | reserve _ _ _ _ _ history => simp [handedSince, history]
  | leave handed _ failures _ _ history onlyFailures =>
      rw [List.append_assoc] at history
      rw [handedSince_extend grown history, handedIds_append, handedIds_handed, if_neg differ.symm,
        handedIds_failures onlyFailures, List.append_nil, List.append_nil]

/-- A task step keeps every pending id above a floor that the held ids respect. -/
theorem TaskMove.floor {maxBatchId : Option Nat} {table : Table} {task result : TaskState Key Data}
    {floor : Nat} (moved : TaskMove config maxBatchId table shared next task result)
    (ascending : task.held.Pairwise (· < ·)) (atLeast : ∀ batchId ∈ task.held, floor ≤ batchId)
    (above : ∀ other batchId, shared.work.steps.Pending other batchId → floor < batchId) :
    (∀ batchId ∈ result.held, floor ≤ batchId) ∧
      ∀ other batchId, next.work.steps.Pending other batchId → floor < batchId := by
  cases moved with
  | stay _ work _ _ same =>
      rw [work, same]
      exact ⟨atLeast, above⟩
  | reserve reservedId _ reserved _ _ _ longer =>
      obtain ⟨taken, _, _, removed⟩ := WorkPlan.reserve_some reserved
      rw [longer, removed]
      constructor
      · intro batchId member
        rcases List.mem_append.mp member with before | same
        · exact atLeast batchId before
        · rw [List.mem_singleton.mp same]
          exact (above table reservedId taken).le
      · intro other batchId pending
        exact above other batchId (WorkPlan.pending_remove.mp pending).1
  | leave _ restored _ steps _ _ _ _ later empty =>
      rw [empty, steps]
      refine ⟨by simp, ?_⟩
      intro other batchId pending
      rcases WorkPlan.pending_restore.mp pending with ⟨_, back⟩ | pending
      · have inTail := later.subset back
        cases line : task.held with
        | nil => simp [line] at inTail
        | cons first others =>
            rw [line] at ascending inTail
            have least := atLeast first (by simp [line])
            have order := (List.pairwise_cons.mp ascending).1 batchId inTail
            omega
      · exact above other batchId pending

theorem RunMove.stepLimit (moved : RunMove config shared next run after action) :
    after.stepLimit = run.stepLimit := by
  cases moved <;> simp_all

end Moves

section Boundary

/-- A list of ids has one more element up to a member than up to anything before that member. -/
theorem countP_le_lt {ids : List Nat} {bar batchId : Nat} (member : batchId ∈ ids) (before : bar < batchId) :
    ids.countP (· ≤ bar) < ids.countP (· ≤ batchId) := by
  induction ids with
  | nil => simp at member
  | cons first rest ih =>
      have monotone : rest.countP (· ≤ bar) ≤ rest.countP (· ≤ batchId) := by
        apply List.countP_mono_left
        intro other _ below
        simp only [decide_eq_true_eq] at below ⊢
        omega
      simp only [List.countP_cons, decide_eq_true_eq]
      rcases List.mem_cons.mp member with rfl | inside
      · rw [if_neg (by omega), if_pos le_rfl]
        omega
      · have less := ih inside
        split_ifs <;> omega

/-- The boundary id lies below any bar that covers as many ids as the interval has steps. -/
theorem exists_getElem_le {ids : List Nat} (ascending : ids.Pairwise (· < ·)) {limit bar : Nat}
    (positive : limit ≠ 0) (covered : limit ≤ ids.countP (· ≤ bar)) :
    ∃ boundary, ids[limit - 1]? = some boundary ∧ boundary ≤ bar := by
  induction ids generalizing limit with
  | nil =>
      rw [List.countP_nil] at covered
      omega
  | cons first rest ih =>
      obtain ⟨above, tail⟩ := List.pairwise_cons.mp ascending
      by_cases below : first ≤ bar
      · rw [List.countP_cons, if_pos (by simpa using below)] at covered
        by_cases one : limit = 1
        · exact ⟨first, by simp [one], below⟩
        · obtain ⟨boundary, found, under⟩ := ih tail (show limit - 1 ≠ 0 by omega) (by omega)
          refine ⟨boundary, ?_, under⟩
          obtain ⟨more, rfl⟩ : ∃ more, limit = more + 2 := ⟨limit - 2, by omega⟩
          simpa using found
      · have none : (first :: rest).countP (· ≤ bar) = 0 := by
          rw [List.countP_eq_zero]
          intro other member
          simp only [decide_eq_true_eq]
          rcases List.mem_cons.mp member with rfl | inside
          · exact below
          · have := above other inside
            omega
        omega

end Boundary

/-- The count of outer steps is covered by the planned ids up to a bar below everything pending, and
a run that has returned left everything beyond its boundary pending. -/
def Counted (start : WorkPlan Table) (past : List (Event Table)) (shared : Shared Table Key Data)
    (run : RunTask Table Key Data) : Prop :=
  match run.phase with
  | .starting => shared.work.steps = start ∧ shared.history = past
  | .loopHead outerSteps => run.checkpointMaxBatchId = checkpointMaxBatchId start run.stepLimit ∧
      (outerSteps = 0 ∨ ∃ bar, outerSteps ≤ start.keys.countP (· ≤ bar) ∧
        ∀ table batchId, shared.work.steps.Pending table batchId → bar < batchId)
  | .processing outerSteps floor _ _ =>
      run.checkpointMaxBatchId = checkpointMaxBatchId start run.stepLimit ∧
        outerSteps < start.keys.countP (· ≤ floor) ∧
        (∀ table, ∀ batchId ∈ run.held table, floor ≤ batchId) ∧
        ∀ table batchId, shared.work.steps.Pending table batchId → floor < batchId
  | .returned outcome => run.checkpointMaxBatchId = checkpointMaxBatchId start run.stepLimit ∧
      (outcome = if run.checkpointMaxBatchId.isSome then .paused else .stopped .completed) ∧
        ∀ table batchId, shared.work.steps.Pending table batchId →
          ∃ boundary ∈ run.checkpointMaxBatchId, boundary < batchId

/-- This is the invariant of one run in a healthy environment, from the plan at its start. -/
structure Segment (stepLimit : Option Nat) (start : WorkPlan Table) (past : List (Event Table))
    (shared : Shared Table Key Data) (run : RunTask Table Key Data) : Prop where
  positive : stepLimit ≠ some 0
  limited : run.stepLimit = stepLimit
  shape : run.Shape
  ledger : Ledger start.Pending past shared run.held
  complete : Complete start.Pending past shared run.held
  healthy : run.Healthy shared
  within : Within past shared run
  counted : Counted start past shared run

namespace Segment

variable {stepLimit : Option Nat} {config : EtlConfig Key Data} {start : WorkPlan Table}
  {past : List (Event Table)} {shared next : Shared Table Key Data} {run after : RunTask Table Key Data}
  {action : RunAction Table Key Data}

/-- A spawned run starts its segment at the current plan and history. -/
theorem spawn (shared : Shared Table Key Data) (unfinished : shared.work.finishedTables = [])
    (positive : stepLimit ≠ some 0) :
    Segment stepLimit shared.work.steps shared.history shared (.spawn stepLimit) := by
  have since : ∀ table, handedSince shared.history shared table = [] := by
    intro table
    simp [handedSince]
  have nothing : (RunTask.spawn stepLimit : RunTask Table Key Data).held = fun _ => [] := rfl
  refine ⟨positive, rfl, trivial, ⟨List.prefix_refl _, ?_, ?_, fun _ _ pending => pending, ?_⟩, ?_,
    ⟨unfinished, trivial⟩, ?_, rfl, rfl⟩
  · intro table
    simp [since, nothing]
  · intro table batchId member
    simp [since, nothing] at member
  · intro table batchId _ earlier member
    simp [since, nothing] at member
  · intro table batchId pending
    exact .inr (.inr pending)
  · intro table batchId member
    simp [since, nothing] at member

/-- A healthy step keeps every id in line within the boundary. -/
theorem within_step (segment : Segment stepLimit start past shared run)
    (moved : RunMove config shared next run after action) (healthy : action.Healthy) :
    Within past next after := by
  have within := segment.within
  have counted := segment.counted
  cases moved with
  | start fresh same begun =>
      intro table batchId member
      simp only [Counted, fresh] at counted
      subst same
      simp [RunTask.held, begun, handedSince, counted.2] at member
  | giveUp _ _ _ _ head returned spent =>
      intro table batchId member boundary found
      rcases spent with ⟨rfl, _⟩ | ⟨_, failed, _⟩
      · apply within table batchId _ boundary (by simpa [returned] using found)
        simp only [RunTask.held, returned, List.append_nil] at member
        exact List.mem_append_left _ member
      · exact absurd healthy.2 failed
  | pop _ _ _ popId tables steps head popped same begun =>
      intro table batchId member boundary found
      obtain ⟨_, _, bounded, _⟩ := WorkPlan.pop_some popped
      have inside : boundary ∈ run.checkpointMaxBatchId := by simpa [begun] using found
      subst same
      rcases List.mem_append.mp member with before | held
      · exact within table batchId (List.mem_append_left _ before) boundary inside
      · have popping : batchId = popId := by
          simp only [RunTask.held, begun] at held
          split_ifs at held
          · simp at held
          · dsimp only at held
            split_ifs at held
            · simpa [TaskState.held, ReadLoop.start] using held
            · simp at held
        rw [popping]
        exact bounded boundary inside
  | task _ _ active tasks table taskAction result busy member stepped begun =>
      have shape := segment.shape
      simp only [RunTask.Shape, busy] at shape
      have moved := taskStep_moves (shape.2 table member) stepped
      intro other batchId inside boundary found
      have known : boundary ∈ run.checkpointMaxBatchId := by simpa [begun] using found
      by_cases same : other = table
      · subst same
        simp only [RunTask.held, begun, member, if_true, Function.update_self] at inside
        rcases moved.within segment.ledger.grown inside with old | bounded
        · apply within other batchId _ boundary known
          simpa [RunTask.held, busy, member] using old
        · exact bounded boundary known
      · apply within other batchId _ boundary known
        rw [moved.others segment.ledger.grown same] at inside
        simpa [RunTask.held, begun, busy, same] using inside
  | collect _ _ active tasks table report busy member done same begun =>
      intro other batchId inside boundary found
      subst same
      apply within other batchId _ boundary (by simpa [begun] using found)
      rcases List.mem_append.mp inside with before | held
      · exact List.mem_append_left _ before
      · apply List.mem_append_right
        simp only [RunTask.held, begun] at held
        split_ifs at held with kept
        · simpa [RunTask.held, busy, List.mem_of_mem_erase kept] using held
        · simp at held
  | collectError _ _ active tasks table message busy member done same begun =>
      have fine := segment.healthy
      simp only [RunTask.Healthy, busy] at fine
      have ended := fine.2 table member
      rw [done] at ended
      obtain ⟨_, reported, _⟩ := ended
      simp at reported
  | stepDone _ _ _ busy same begun =>
      intro other batchId inside boundary found
      subst same
      apply within other batchId _ boundary (by simpa [begun] using found)
      simp only [RunTask.held, begun, List.append_nil] at inside
      exact List.mem_append_left _ inside
  | cancel => exact absurd healthy (by simp [RunAction.Healthy])

/-- The end of a run is counted: the budget covers the boundary, or nothing is left before it. -/
theorem counted_giveUp (segment : Segment stepLimit start past shared run) {outerSteps : Nat}
    {outcome : PipelineState} (head : run.phase = .loopHead outerSteps)
    (reason : run.stepLimit.any (· ≤ outerSteps) = true ∧ outcome = .paused ∨
      shared.work.steps.popStep run.checkpointMaxBatchId = none ∧
        outcome = if run.checkpointMaxBatchId.isSome then .paused else .stopped .completed) :
    Counted start past shared { run with phase := .returned outcome } := by
  have counted := segment.counted
  simp only [Counted, head] at counted
  obtain ⟨bounded, covered⟩ := counted
  refine ⟨bounded, ?_⟩
  rcases reason with ⟨spent, rfl⟩ | ⟨popped, rfl⟩
  · cases limited : run.stepLimit with
    | none => simp [limited] at spent
    | some limit =>
        have reached : limit ≤ outerSteps := by simpa [limited] using spent
        have nonzero : limit ≠ 0 := by
          intro zero
          exact segment.positive (segment.limited ▸ zero ▸ limited)
        rcases covered with zero | ⟨bar, enough, above⟩
        · omega
        · obtain ⟨boundary, found, under⟩ := exists_getElem_le start.keys_ascending nonzero
            (reached.trans enough)
          have known : run.checkpointMaxBatchId = some boundary := by
            rw [bounded, limited]
            exact found
          refine ⟨by simp [known], ?_⟩
          intro table batchId pending
          have order := above table batchId pending
          exact ⟨boundary, known, by omega⟩
  · exact ⟨rfl, fun table batchId pending => WorkPlan.pop_none popped pending⟩

/-- A healthy step keeps the count of outer steps. -/
theorem counted_step (segment : Segment stepLimit start past shared run)
    (moved : RunMove config shared next run after action) (healthy : action.Healthy) :
    Counted start past next after := by
  have counted := segment.counted
  cases moved with
  | start fresh same begun =>
      simp only [Counted, fresh] at counted
      rw [begun, same, ← counted.1]
      exact ⟨rfl, .inl rfl⟩
  | giveUp outerSteps cancelled flush outcome head returned spent =>
      rcases spent with ⟨rfl, ⟨_, stopped⟩ | reason⟩ | ⟨_, failed, _⟩
      · exact absurd (healthy.1.symm.trans stopped) (by simp)
      · rw [returned]
        exact segment.counted_giveUp head reason
      · exact absurd healthy.2 failed
  | pop outerSteps _ _ popId tables steps head popped same begun =>
      simp only [Counted, head] at counted
      obtain ⟨bounded, covered⟩ := counted
      obtain ⟨_, nonempty, _, members, least, remaining⟩ := WorkPlan.pop_some popped
      obtain ⟨table, member⟩ := List.exists_mem_of_ne_nil _ nonempty
      have pending := (members table).mp member
      have key : popId ∈ start.keys := WorkPlan.mem_keys_iff.mpr ⟨table, segment.ledger.pending table popId pending⟩
      have unfinished := segment.healthy.1
      have phase : after = { run with
          phase := .processing outerSteps popId tables fun _ => .reading (.start popId) } := by
        rw [begun]
        simp [unfinished, nonempty]
      rw [phase, same]
      refine ⟨bounded, ?_, ?_, ?_⟩
      · rcases covered with rfl | ⟨bar, enough, above⟩
        · exact List.countP_pos_iff.mpr ⟨popId, key, by simp⟩
        · have less := countP_le_lt key (above table popId pending)
          omega
      · intro other batchId held
        simp only [RunTask.held] at held
        split_ifs at held
        · simp only [TaskState.held, ReadLoop.start, List.nil_append, List.mem_singleton] at held
          omega
        · simp at held
      · intro other batchId later
        obtain ⟨old, differ⟩ := (remaining other batchId).mp later
        have atLeast := least other batchId old
        omega
  | task outerSteps floor active tasks table taskAction result busy member stepped begun =>
      simp only [Counted, busy] at counted
      obtain ⟨bounded, covered, atLeast, above⟩ := counted
      have shape := segment.shape
      simp only [RunTask.Shape, busy] at shape
      have holds : run.held table = (tasks table).held := by
        simp [RunTask.held, busy, member]
      have ascending := (List.pairwise_append.mp (segment.ledger.ascending table)).2.1
      have kept := (taskStep_moves (shape.2 table member) stepped).floor (holds ▸ ascending)
        (holds ▸ atLeast table) above
      rw [begun]
      refine ⟨bounded, covered, ?_, kept.2⟩
      intro other batchId held
      by_cases same : other = table
      · subst same
        exact kept.1 batchId (by simpa [RunTask.held, member] using held)
      · exact atLeast other batchId (by simpa [RunTask.held, busy, same] using held)
  | collect outerSteps floor active tasks table report busy member done same begun =>
      simp only [Counted, busy] at counted
      obtain ⟨bounded, covered, atLeast, above⟩ := counted
      rw [begun, same]
      refine ⟨bounded, covered, ?_, above⟩
      intro other batchId held
      apply atLeast other batchId
      simp only [RunTask.held] at held
      split_ifs at held with kept
      · simpa [RunTask.held, busy, List.mem_of_mem_erase kept] using held
      · simp at held
  | collectError _ _ active tasks table message busy member done same begun =>
      have fine := segment.healthy
      simp only [RunTask.Healthy, busy] at fine
      have ended := fine.2 table member
      rw [done] at ended
      obtain ⟨_, reported, _⟩ := ended
      simp at reported
  | stepDone outerSteps floor _ busy same begun =>
      simp only [Counted, busy] at counted
      obtain ⟨bounded, covered, _, above⟩ := counted
      rw [begun, same]
      exact ⟨bounded, .inr ⟨floor, covered, above⟩⟩
  | cancel => exact absurd healthy (by simp [RunAction.Healthy])

/-- One healthy step keeps the invariant of the segment. -/
theorem step (segment : Segment stepLimit start past shared run)
    (moved : RunMove config shared next run after action) (healthy : action.Healthy) :
    Segment stepLimit start past next after where
  positive := segment.positive
  limited := moved.stepLimit.trans segment.limited
  shape := moved.shape segment.shape
  ledger := moved.ledger segment.shape segment.ledger
  complete := moved.complete segment.shape segment.ledger segment.healthy healthy segment.complete
  healthy := moved.healthy segment.shape segment.ledger segment.healthy healthy
  within := segment.within_step moved healthy
  counted := segment.counted_step moved healthy

/-- Every state of a run in a healthy environment satisfies the invariant of its segment. -/
theorem reached {environment : Environment Table Key Data} (healthy : environment.Healthy start.Pending)
    {final : Shared Table Key Data × RunTask Table Key Data}
    (reached : (runMachine config environment).Reaches (shared, run) final)
    (segment : Segment stepLimit start past shared run) : Segment stepLimit start past final.1 final.2 := by
  apply reached.invariant (fun state => Segment stepLimit start past state.1 state.2) ?_ segment
  intro state following holds ⟨action, admitted, stepped⟩
  have moved := runStep_moves stepped
  have line : ∀ table, ∀ batchId ∈ state.2.held table, start.Pending table batchId := by
    intro table batchId member
    exact holds.ledger.line table batchId (List.mem_append_right _ member)
  exact holds.step moved (healthy.runAction holds.healthy line admitted moved)

/-- A run that has returned handed over exactly the ids within its boundary, and left the others. -/
theorem returned (segment : Segment stepLimit start past shared run) {outcome : PipelineState}
    (ended : run.phase = .returned outcome) :
    (outcome = if (checkpointMaxBatchId start stepLimit).isSome then .paused
      else .stopped .completed) ∧
    (∀ table batchId, batchId ∈ handedSince past shared table ↔ start.Pending table batchId ∧
      ∀ boundary ∈ checkpointMaxBatchId start stepLimit, batchId ≤ boundary) ∧
    ∀ table batchId, shared.work.steps.Pending table batchId ↔ start.Pending table batchId ∧
      ∃ boundary ∈ checkpointMaxBatchId start stepLimit, boundary < batchId := by
  have counted := segment.counted
  simp only [Counted, ended, segment.limited] at counted
  obtain ⟨bounded, outcomeIs, left⟩ := counted
  have nothing : run.held = fun _ => [] := RunTask.held_of_phase (by simp [ended])
  have complete := segment.complete
  have ledger := segment.ledger
  have within := segment.within
  simp only [Within] at within
  rw [nothing] at complete ledger within
  rw [bounded] at outcomeIs left within
  refine ⟨outcomeIs, ?_, ?_⟩
  · intro table batchId
    constructor
    · intro handed
      have member := List.mem_append_left [] handed
      exact ⟨ledger.line table batchId member, within table batchId member⟩
    · rintro ⟨planned, inside⟩
      rcases complete table batchId planned with handed | held | pending
      · exact handed
      · simp at held
      · obtain ⟨boundary, found, beyond⟩ := left table batchId pending
        have upTo := inside boundary found
        omega
  · intro table batchId
    constructor
    · intro pending
      exact ⟨ledger.pending table batchId pending, left table batchId pending⟩
    · rintro ⟨planned, boundary, found, beyond⟩
      rcases complete table batchId planned with handed | held | pending
      · have upTo := within table batchId (List.mem_append_left [] handed) boundary found
        omega
      · simp at held
      · exact pending

end Segment

end Spicebench.Etl
