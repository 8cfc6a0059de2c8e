import Spicebench.Proof.Etl.Delivery
import Spicebench.Proof.Etl.Segment

namespace Spicebench.Etl
open Library DataGeneration

variable {Table Key Data : Type} [DecidableEq Table]

/-- The sum of the operations of the rows, each counted as it names itself. -/
def rowsNet (rows : List (Row Key Data)) : Int :=
  (rows.map fun row => (opStrToInsertOp (opValue row) []).delta).sum

@[simp] theorem rowsNet_append (first second : List (Row Key Data)) :
    rowsNet (first ++ second) = rowsNet first + rowsNet second := by
  simp [rowsNet]

/-- Each coalesced batch of source rows is counted as its rows name themselves. -/
def Source.Exact (source : Source Table Key Data) (config : EtlConfig Key Data) : Prop :=
  ∀ table keyColumns (batch : RecordBatch Key Data), batch.schema = source.schema table →
    (∀ row ∈ batch.rows, ∃ batchId, row ∈ source.rows table batchId) →
    batchNet config keyColumns batch = rowsNet batch.rows

omit [DecidableEq Table] in
/-- The counts of the coalesced batches add up to the operations of the handed rows. -/
theorem Source.Exact.sum {source : Source Table Key Data} {config : EtlConfig Key Data}
    (exact : source.Exact config) {table : Table} (keyColumns : List String)
    {batches : List (RecordBatch Key Data)} {handed : List Nat}
    (schema : ∀ batch ∈ batches, batch.schema = source.schema table)
    (rows : batches.flatMap RecordBatch.rows = handed.flatMap (source.rows table)) :
    (batches.map (batchNet config keyColumns)).sum = rowsNet (handed.flatMap (source.rows table)) := by
  have known : ∀ batch ∈ batches, ∀ row ∈ batch.rows, ∃ batchId, row ∈ source.rows table batchId := by
    intro batch member row inside
    have whole : row ∈ handed.flatMap (source.rows table) := by
      rw [← rows]
      exact List.mem_flatMap.mpr ⟨batch, member, inside⟩
    obtain ⟨batchId, _, found⟩ := List.mem_flatMap.mp whole
    exact ⟨batchId, found⟩
  have counted : batches.map (batchNet config keyColumns) = batches.map fun batch => rowsNet batch.rows := by
    apply List.map_congr_left
    intro batch member
    exact exact table keyColumns batch (schema batch member) (known batch member)
  rw [counted, ← rows]
  clear rows schema known counted
  induction batches with
  | nil => rfl
  | cons batch rest ih => simp [ih]

/-- Every read of a planned id returns the rows of the source. -/
def Environment.Serves (environment : Environment Table Key Data) (source : Source Table Key Data)
    (planned : Table → Nat → Prop) : Prop :=
  ∀ table batchId result, planned table batchId →
    environment.reads table batchId (.ok (some result)) → source.Answers table batchId result

/-- A serving environment admits only task actions that the source answers. -/
theorem Environment.Serves.taskAction {environment : Environment Table Key Data}
    {source : Source Table Key Data} {planned : Table → Nat → Prop} {config : EtlConfig Key Data}
    {shared : Shared Table Key Data} (serves : environment.Serves source planned) {table : Table}
    {maxBatchId : Option Nat} {task : TaskState Key Data} {action : TaskAction Key Data}
    {result : Shared Table Key Data × TaskState Key Data} (fine : task.Healthy)
    (line : ∀ batchId ∈ task.held, planned table batchId)
    (admitted : environment.AdmitsTask table action)
    (stepped : taskStep config maxBatchId table shared task action = some result) :
    action.Answered source table := by
  have inLine := taskStep_reads fine stepped
  cases action with
  | firstRead batchId outcome =>
      intro read found
      subst found
      exact serves table batchId read (line batchId (inLine batchId rfl)) admitted
  | join batchId outcome =>
      intro read found
      subst found
      exact serves table batchId read (line batchId (inLine batchId rfl)) admitted
  | _ => trivial

def RunAction.Answered (source : Source Table Key Data) : RunAction Table Key Data → Prop
  | .task table action => action.Answered source table
  | _ => True

/-- These rows of a table were handed to the tasks of the run and are not in the sink yet. -/
def RunTask.unwritten (run : RunTask Table Key Data) (table : Table) : List (Key × Data) :=
  match run.phase with
  | .processing _ _ active tasks => if table ∈ active then (tasks table).unwritten else []
  | _ => []

def RunTask.uncounted (config : EtlConfig Key Data) (run : RunTask Table Key Data) (table : Table) : Int :=
  match run.phase with
  | .processing _ _ active tasks => if table ∈ active then (tasks table).uncounted config else 0
  | _ => 0

def RunTask.Faithful (source : Source Table Key Data) (run : RunTask Table Key Data) : Prop :=
  match run.phase with
  | .processing _ _ active tasks => ∀ table ∈ active, (tasks table).Faithful source table
  | _ => True

/-- The rows of the ids handed over since the past are in the sink or on their way to it, and the
net counts follow them. -/
structure Delivered (config : EtlConfig Key Data) (source : Source Table Key Data)
    (past : List (Event Table)) (sink : Table → List (Key × Data)) (net : Table → Int)
    (shared : Shared Table Key Data) (unwritten : Table → List (Key × Data)) (uncounted : Table → Int) :
    Prop where
  rows : ∀ table, (sinkRows table shared.sink ++ unwritten table).Perm (sink table ++
    stripInternalColumns ((handedSince past shared table).flatMap (source.rows table)))
  counts : source.Exact config → ∀ table, (shared.netRows table).getD 0 + uncounted table =
    net table + rowsNet ((handedSince past shared table).flatMap (source.rows table))

theorem strip_append (first second : List (Row Key Data)) :
    stripInternalColumns (first ++ second) = stripInternalColumns first ++ stripInternalColumns second := by
  simp [stripInternalColumns]

section Moves

variable {config : EtlConfig Key Data} {source : Source Table Key Data} {past : List (Event Table)}
  {sink : Table → List (Key × Data)} {net : Table → Int} {shared next : Shared Table Key Data}
  {unwritten : Table → List (Key × Data)} {uncounted : Table → Int}
  {run after : RunTask Table Key Data} {action : RunAction Table Key Data}

/-- A step that touches neither the sink, the counts nor the history keeps the delivery. -/
theorem Delivered.quiet (delivered : Delivered config source past sink net shared unwritten uncounted)
    (history : next.history = shared.history) (sameSink : next.sink = shared.sink)
    (sameNet : next.netRows = shared.netRows) :
    Delivered config source past sink net next unwritten uncounted := by
  have since : ∀ table, handedSince past next table = handedSince past shared table := by
    intro table
    simp [handedSince, history]
  constructor
  · intro table
    rw [since, sameSink]
    exact delivered.rows table
  · intro exact table
    rw [since, sameNet]
    exact delivered.counts exact table

/-- A tallied step of one task keeps the delivery. -/
theorem Delivered.task (delivered : Delivered config source past sink net shared unwritten uncounted)
    (grown : past <+: shared.history) {table : Table} {task result : TaskState Key Data}
    (writes : unwritten table = task.unwritten) (counts : uncounted table = task.uncounted config)
    {handed : List Nat} {batches : List (RecordBatch Key Data)} {keyColumns : List String}
    (tally : Tally config source table shared task (next, result) handed batches keyColumns) :
    Delivered config source past sink net next (Function.update unwritten table result.unwritten)
      (Function.update uncounted table (result.uncounted config)) := by
  have since := handedSince_extend grown tally.history
  have mine : handedSince past next table = handedSince past shared table ++ handed := by
    rw [since, handedIds_handed, if_pos rfl]
  have others : ∀ other, other ≠ table → handedSince past next other = handedSince past shared other := by
    intro other differ
    rw [since, handedIds_handed, if_neg (Ne.symm differ), List.append_nil]
  constructor
  · intro other
    by_cases same : other = table
    · subst same
      have before := delivered.rows other
      rw [writes] at before
      rw [mine, Function.update_self, List.flatMap_append, strip_append, ← List.append_assoc (sink other)]
      refine tally.sink.trans ?_
      rw [← List.append_assoc]
      exact before.append_right _
    · rw [others other same, Function.update_of_ne same, tally.otherSink other same]
      exact delivered.rows other
  · intro exact other
    by_cases same : other = table
    · subst same
      have before := delivered.counts exact other
      have sum := exact.sum keyColumns tally.schema tally.rows
      have changed := tally.net
      rw [counts] at before
      rw [mine, Function.update_self, List.flatMap_append, rowsNet_append]
      dsimp only at changed
      omega
    · rw [others other same, Function.update_of_ne same, tally.otherNet other same]
      exact delivered.counts exact other

/-- The delivery of a run, with what its tasks still have to write and to count. -/
def RunDelivered (config : EtlConfig Key Data) (source : Source Table Key Data)
    (past : List (Event Table)) (sink : Table → List (Key × Data)) (net : Table → Int)
    (shared : Shared Table Key Data) (run : RunTask Table Key Data) : Prop :=
  run.Faithful source ∧
    Delivered config source past sink net shared run.unwritten (run.uncounted config)

/-- A run outside of a step has nothing left to write or to count. -/
theorem RunTask.idle_of_phase
    (idle : ∀ outerSteps batchId active tasks, run.phase ≠ .processing outerSteps batchId active tasks) :
    run.Faithful source ∧ (run.unwritten = fun _ => []) ∧ run.uncounted config = fun _ => 0 := by
  refine ⟨?_, ?_, ?_⟩
  · unfold RunTask.Faithful
    split
    · rename_i busy
      exact absurd busy (idle _ _ _ _)
    · trivial
  · funext table
    unfold RunTask.unwritten
    split
    · rename_i busy
      exact absurd busy (idle _ _ _ _)
    · rfl
  · funext table
    unfold RunTask.uncounted
    split
    · rename_i busy
      exact absurd busy (idle _ _ _ _)
    · rfl

/-- Between two states without open steps the delivery carries over. -/
theorem RunDelivered.idle (delivered : RunDelivered config source past sink net shared run)
    (before : run.unwritten = fun _ => []) (uncounted : run.uncounted config = fun _ => 0)
    (idle : ∀ outerSteps batchId active tasks, after.phase ≠ .processing outerSteps batchId active tasks)
    (history : next.history = shared.history) (sameSink : next.sink = shared.sink)
    (sameNet : next.netRows = shared.netRows) :
    RunDelivered config source past sink net next after := by
  obtain ⟨faithful, written, counted⟩ := @RunTask.idle_of_phase _ _ _ _ config source after idle
  refine ⟨faithful, ?_⟩
  rw [written, counted, ← before, ← uncounted]
  exact delivered.2.quiet history sameSink sameNet

/-- A healthy step of a run keeps the delivery. -/
theorem RunMove.delivered (moved : RunMove config shared next run after action)
    (grown : past <+: shared.history) (fine : run.Healthy shared) (healthy : action.Healthy)
    (answered : action.Answered source) (delivered : RunDelivered config source past sink net shared run) :
    RunDelivered config source past sink net next after := by
  have idle : ∀ phase, run.phase = phase →
      (∀ outerSteps batchId active tasks, phase ≠ .processing outerSteps batchId active tasks) →
      (run.unwritten = fun _ => []) ∧ run.uncounted config = fun _ => 0 := by
    intro phase same quiet
    exact (@RunTask.idle_of_phase _ _ _ _ config source run (same ▸ quiet)).2
  cases moved with
  | start fresh same begun =>
      obtain ⟨written, counted⟩ := idle _ fresh (by simp)
      exact delivered.idle written counted (by simp [begun]) (by rw [same]) (by rw [same]) (by rw [same])
  | giveUp _ _ _ _ head returned spent =>
      obtain ⟨written, counted⟩ := idle _ head (by simp)
      have same : next = shared := by
        rcases spent with ⟨same, _⟩ | ⟨_, failed, _⟩
        · exact same
        · exact absurd healthy.2 failed
      exact delivered.idle written counted (by simp [returned]) (by rw [same]) (by rw [same]) (by rw [same])
  | pop outerSteps _ _ popId tables steps head popped same begun =>
      obtain ⟨written, counted⟩ := idle _ head (by simp)
      subst same begun
      have started : ∀ table, (TaskState.reading (ReadLoop.start popId)).Faithful source table := by
        intro table
        constructor <;> simp [ReadLoop.start]
      refine ⟨?_, ?_⟩
      · unfold RunTask.Faithful
        dsimp only
        split_ifs
        · trivial
        · exact fun table _ => started table
      · have nothing : RunTask.unwritten { run with
            phase := if (tables.filter (· ∉ shared.work.finishedTables)).isEmpty then .loopHead outerSteps
              else .processing outerSteps popId (tables.filter (· ∉ shared.work.finishedTables))
                fun _ => .reading (.start popId) } = run.unwritten := by
          funext table
          rw [written]
          unfold RunTask.unwritten
          dsimp only
          split_ifs
          · rfl
          · simp [TaskState.unwritten]
        have none : RunTask.uncounted config { run with
            phase := if (tables.filter (· ∉ shared.work.finishedTables)).isEmpty then .loopHead outerSteps
              else .processing outerSteps popId (tables.filter (· ∉ shared.work.finishedTables))
                fun _ => .reading (.start popId) } = run.uncounted config := by
          funext table
          rw [counted]
          unfold RunTask.uncounted
          dsimp only
          split_ifs
          · rfl
          · simp [TaskState.uncounted]
        rw [nothing, none]
        exact delivered.2.quiet rfl rfl rfl
  | task _ _ active tasks table taskAction result busy member stepped begun =>
      obtain ⟨faithful, tallied⟩ := delivered
      simp only [RunTask.Faithful, busy] at faithful
      obtain ⟨handed, batches, keyColumns, tally⟩ :=
        taskStep_tally (faithful table member) healthy answered stepped
      have written : after.unwritten = Function.update run.unwritten table result.unwritten := by
        funext other
        by_cases same : other = table
        · subst same
          simp [RunTask.unwritten, begun, member]
        · simp [RunTask.unwritten, begun, busy, same]
      have counted : after.uncounted config =
          Function.update (run.uncounted config) table (result.uncounted config) := by
        funext other
        by_cases same : other = table
        · subst same
          simp [RunTask.uncounted, begun, member]
        · simp [RunTask.uncounted, begun, busy, same]
      refine ⟨?_, ?_⟩
      · simp only [RunTask.Faithful, begun]
        intro other inside
        by_cases same : other = table
        · subst same
          rw [Function.update_self]
          exact tally.faithful
        · rw [Function.update_of_ne same]
          exact faithful other inside
      · rw [written, counted]
        apply tallied.task grown _ _ tally
        · simp [RunTask.unwritten, busy, member]
        · simp [RunTask.uncounted, busy, member]
  | collect _ _ active tasks table report busy member done same begun =>
      obtain ⟨faithful, tallied⟩ := delivered
      simp only [RunTask.Faithful, busy] at faithful
      have written : after.unwritten = run.unwritten := by
        funext other
        by_cases collected : other = table
        · subst collected
          simp [RunTask.unwritten, begun, busy, member, done, TaskState.unwritten]
        · simp [RunTask.unwritten, begun, busy, List.mem_erase_of_ne collected]
      have counted : after.uncounted config = run.uncounted config := by
        funext other
        by_cases collected : other = table
        · subst collected
          simp [RunTask.uncounted, begun, busy, member, done, TaskState.uncounted]
        · simp [RunTask.uncounted, begun, busy, List.mem_erase_of_ne collected]
      refine ⟨?_, ?_⟩
      · simp only [RunTask.Faithful, begun]
        exact fun other inside => faithful other (List.mem_of_mem_erase inside)
      · rw [written, counted]
        exact tallied.quiet (by rw [same]) (by rw [same]) (by rw [same])
  | collectError _ _ active tasks table message busy member done same begun =>
      simp only [RunTask.Healthy, busy] at fine
      have ended := fine.2 table member
      rw [done] at ended
      obtain ⟨_, reported, _⟩ := ended
      simp at reported
  | stepDone _ _ _ busy same begun =>
      have written : run.unwritten = fun _ => [] := by
        funext table
        simp [RunTask.unwritten, busy]
      have counted : run.uncounted config = fun _ => 0 := by
        funext table
        simp [RunTask.uncounted, busy]
      exact delivered.idle written counted (by simp [begun]) (by rw [same]) (by rw [same]) (by rw [same])
  | cancel => exact absurd healthy (by simp [RunAction.Healthy])

end Moves

/-- A serving environment admits only actions that are answered by the source. -/
theorem Environment.Serves.runAction {environment : Environment Table Key Data}
    {source : Source Table Key Data} {planned : Table → Nat → Prop} {config : EtlConfig Key Data}
    {shared next : Shared Table Key Data} {run after : RunTask Table Key Data}
    {action : RunAction Table Key Data} (serves : environment.Serves source planned)
    (fine : run.Healthy shared) (line : ∀ table, ∀ batchId ∈ run.held table, planned table batchId)
    (admitted : environment.AdmitsRun action)
    (moved : RunMove config shared next run after action) : action.Answered source := by
  cases moved with
  | task _ _ active tasks table taskAction result busy member stepped =>
      simp only [RunTask.Healthy, busy] at fine
      have held : ∀ batchId ∈ (tasks table).held, planned table batchId := by
        intro batchId inside
        apply line table batchId
        simpa [RunTask.held, busy, member] using inside
      exact serves.taskAction (fine.2 table member) held admitted stepped
  | start => trivial
  | giveUp => trivial
  | pop => trivial
  | collect => trivial
  | collectError => trivial
  | stepDone => trivial
  | cancel => trivial

/-- The delivery holds along every run in a healthy environment that serves the source. -/
theorem Segment.delivered {config : EtlConfig Key Data} {environment : Environment Table Key Data}
    {source : Source Table Key Data} {stepLimit : Option Nat} {start : WorkPlan Table} {past : List (Event Table)}
    {sink : Table → List (Key × Data)} {net : Table → Int} {shared : Shared Table Key Data}
    {run : RunTask Table Key Data} {final : Shared Table Key Data × RunTask Table Key Data}
    (healthy : environment.Healthy start.Pending) (serves : environment.Serves source start.Pending)
    (reached : (runMachine config environment).Reaches (shared, run) final)
    (segment : Segment stepLimit start past shared run)
    (delivered : RunDelivered config source past sink net shared run) :
    RunDelivered config source past sink net final.1 final.2 := by
  have both : Segment stepLimit start past final.1 final.2 ∧ RunDelivered config source past sink net final.1 final.2 := by
    apply reached.invariant
      (fun state => Segment stepLimit start past state.1 state.2 ∧
        RunDelivered config source past sink net state.1 state.2) ?_ ⟨segment, delivered⟩
    intro state following holds stepping
    obtain ⟨segment, delivered⟩ := holds
    obtain ⟨action, admitted, stepped⟩ := stepping
    have moved := runStep_moves stepped
    have line : ∀ table, ∀ batchId ∈ state.2.held table, start.Pending table batchId := by
      intro table batchId member
      exact segment.ledger.line table batchId (List.mem_append_right _ member)
    have fine := healthy.runAction segment.healthy line admitted moved
    have answered := serves.runAction segment.healthy line admitted moved
    exact ⟨segment.step moved fine, moved.delivered segment.ledger.grown segment.healthy fine answered delivered⟩
  exact both.2

/-- A spawned run starts with everything that was handed over in the sink. -/
theorem RunDelivered.spawn (config : EtlConfig Key Data) (source : Source Table Key Data)
    (shared : Shared Table Key Data) (stepLimit : Option Nat) :
    RunDelivered config source shared.history (fun table => sinkRows table shared.sink)
      (fun table => (shared.netRows table).getD 0) shared (.spawn stepLimit) := by
  refine ⟨trivial, ?_, ?_⟩
  · intro table
    simp [handedSince, RunTask.unwritten, RunTask.spawn, stripInternalColumns]
  · intro _ table
    simp [handedSince, RunTask.uncounted, RunTask.spawn, rowsNet]

/-- Once the run has returned, every row that it handed over is in the sink and is counted. -/
theorem RunDelivered.returned {config : EtlConfig Key Data} {source : Source Table Key Data}
    {past : List (Event Table)} {sink : Table → List (Key × Data)} {net : Table → Int}
    {shared : Shared Table Key Data} {run : RunTask Table Key Data} {outcome : PipelineState}
    (delivered : RunDelivered config source past sink net shared run)
    (ended : run.phase = .returned outcome) :
    (∀ table, (sinkRows table shared.sink).Perm (sink table ++
      stripInternalColumns ((handedSince past shared table).flatMap (source.rows table)))) ∧
    (source.Exact config → ∀ table, (shared.netRows table).getD 0 =
      net table + rowsNet ((handedSince past shared table).flatMap (source.rows table))) := by
  constructor
  · intro table
    simpa [RunTask.unwritten, ended] using delivered.2.rows table
  · intro exact table
    simpa [RunTask.uncounted, ended] using delivered.2.counts exact table

end Spicebench.Etl
