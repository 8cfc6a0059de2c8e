import Spicebench.Proof.Sink.Placed

namespace Spicebench.Sink
open Library Etl AdbcSink AdbcTarget

variable {Schema Row : Type} {sink : AdbcSink Schema Row} {state next : State Schema Row}

section Lined

variable {table : String}

/-- The events that a worker has yet to apply. -/
def Worker.inFlight (worker : Worker Schema Row) : List (LogEntry Row) :=
  (worker.pending ++ worker.queue).flatMap fun item => item.2.rows.map fun row => ⟨worker.table, item.1, .row row⟩

/-- The events belong to writes to the table, in the order of the calls. -/
structure InOrder (table : String) (state : State Schema Row) (entries : List (LogEntry Row)) : Prop where
  written : ∀ entry ∈ entries, ∃ task : Task Schema Row, state.writes[entry.write]? = some task ∧ task.call.table = table
  ascending : (entries.map (·.write)).Pairwise (· ≤ ·)

theorem InOrder.sublist {entries others : List (LogEntry Row)} (inOrder : InOrder table state entries)
    (fewer : others.Sublist entries) : InOrder table state others :=
  ⟨fun entry member => inOrder.written entry (fewer.subset member), inOrder.ascending.sublist (fewer.map _)⟩

theorem InOrder.mono {entries : List (LogEntry Row)} (inOrder : InOrder table state entries)
    (kept : ∀ {write : Nat} {task : Task Schema Row}, state.writes[write]? = some task → task.call.table = table →
      ∃ other : Task Schema Row, next.writes[write]? = some other ∧ other.call.table = table) :
    InOrder table next entries := by
  refine ⟨?_, inOrder.ascending⟩
  intro entry member
  obtain ⟨task, found, isTable⟩ := inOrder.written entry member
  exact kept found isTable

theorem InOrder.setPhase {entries : List (LogEntry Row)} (inOrder : InOrder table state entries) {write : Nat}
    {phase : Phase Schema Row} : InOrder table (state.setPhase write phase) entries := by
  refine inOrder.mono ?_
  intro other task found isTable
  by_cases here : other = write
  · subst here
    exact ⟨_, writes_setPhase.mpr (.inr ⟨rfl, task, found, rfl⟩), isTable⟩
  · exact ⟨task, writes_setPhase.mpr (.inl ⟨here, found⟩), isTable⟩

/-- The write of the table that is on its way comes after all others. -/
theorem InOrder.append {entries added : List (LogEntry Row)} (inOrder : InOrder table state entries)
    (placed : Placed table state) {write : Nat} {task : Task Schema Row} (found : state.writes[write]? = some task)
    (isTable : task.call.table = table) (active : task.phase.isFinished = false)
    (own : ∀ entry ∈ added, entry.write = write) : InOrder table state (entries ++ added) where
  written entry member := by
    rcases List.mem_append.mp member with member | member
    · exact inOrder.written entry member
    · rw [own entry member]
      exact ⟨task, found, isTable⟩
  ascending := by
    rw [List.map_append, List.pairwise_append]
    refine ⟨inOrder.ascending, ?_, ?_⟩
    · rw [List.pairwise_map]
      exact List.pairwise_of_forall_mem_list fun one isOne other isOther => by rw [own one isOne, own other isOther]
    · intro one isOne other isOther
      obtain ⟨entry, member, rfl⟩ := List.mem_map.mp isOne
      obtain ⟨last, memberLast, rfl⟩ := List.mem_map.mp isOther
      rw [own last memberLast]
      obtain ⟨result, found', isTable'⟩ := inOrder.written entry member
      by_cases here : entry.write = write
      · exact here.le
      · exact (placed.single found isTable active found' isTable' here).2.le

/-- The events of the table are in order, with those that its running worker has yet to apply. -/
structure Lined (table : String) (state : State Schema Row) : Prop where
  logged : InOrder table state (state.tableLog table)
  flying : ∀ {index : Nat} {worker : Worker Schema Row}, state.workers[index]? = some worker → worker.table = table →
    worker.status = .running → InOrder table state (state.tableLog table ++ worker.inFlight)

theorem SameWorker.inFlight {worker other : Worker Schema Row} (same : SameWorker worker other) :
    other.inFlight = worker.inFlight := by
  simp only [Worker.inFlight, same.table, same.queue, same.pending]

theorem Lined.frame (lined : Lined table state) (same : SameView table state next) : Lined table next := by
  have kept : ∀ {write : Nat} {task : Task Schema Row}, state.writes[write]? = some task → task.call.table = table →
      ∃ other : Task Schema Row, next.writes[write]? = some other ∧ other.call.table = table :=
    fun found isTable => ⟨_, (same.writes isTable).mpr found, isTable⟩
  refine ⟨?_, ?_⟩
  · rw [same.log]
    exact lined.logged.mono kept
  · intro index worker located onTable running
    obtain ⟨old, before, alike⟩ := same.known located onTable
    rw [same.log, alike.inFlight]
    exact (lined.flying before (alike.table.symm.trans onTable) (alike.status.symm.trans running)).mono kept

/-- Nothing but the phase of a write changes. -/
theorem Lined.setPhase (lined : Lined table state) {write : Nat} {phase : Phase Schema Row} :
    Lined table (state.setPhase write phase) :=
  ⟨lined.logged.setPhase, fun located onTable running => (lined.flying located onTable running).setPhase⟩

/-- The map and the flush do not matter for the order. -/
theorem Lined.congr (lined : Lined table state) (writes : next.writes = state.writes)
    (workers : next.workers = state.workers) (log : next.log = state.log) : Lined table next := by
  have same : next.tableLog table = state.tableLog table := by simp only [State.tableLog, log]
  refine ⟨?_, ?_⟩
  · rw [same]
    exact lined.logged.mono fun found isTable => ⟨_, writes ▸ found, isTable⟩
  · intro index worker located onTable running
    rw [workers] at located
    rw [same]
    exact (lined.flying located onTable running).mono fun found isTable => ⟨_, writes ▸ found, isTable⟩

/-- A worker of the table takes a step that leaves it fewer events to apply, or as many. -/
theorem Lined.modifyWorker (lined : Lined table state) {index : Nat} {worker : Worker Schema Row}
    {change : Worker Schema Row → Worker Schema Row} (spawned : state.workers[index]? = some worker)
    (isTable : (change worker).table = worker.table)
    (running : (change worker).status = .running → worker.status = .running ∧
      (change worker).inFlight = worker.inFlight) : Lined table (state.modifyWorker index change) := by
  refine ⟨lined.logged.mono fun found onTable => ⟨_, found, onTable⟩, ?_⟩
  intro other result located onTable isRunning
  rcases workers_modifyWorker.mp located with ⟨_, stays⟩ | ⟨rfl, old, stays, rfl⟩
  · exact (lined.flying stays onTable isRunning).mono fun found onTable => ⟨_, found, onTable⟩
  · obtain rfl := Option.some.inj (stays.symm.trans spawned)
    obtain ⟨wasRunning, same⟩ := running isRunning
    rw [same]
    exact (lined.flying stays (isTable.symm.trans onTable) wasRunning).mono fun found onTable => ⟨_, found, onTable⟩

theorem tableLog_record {write : Nat} {events : List (Event Row)} :
    (state.record table write events).tableLog table =
      state.tableLog table ++ events.map fun event => ⟨table, write, event⟩ := by
  have own : (events.map fun event => (⟨table, write, event⟩ : LogEntry Row)).filter
      (fun entry => entry.table = table) = events.map fun event => ⟨table, write, event⟩ := by
    rw [List.filter_eq_self]
    intro entry member
    obtain ⟨event, _, rfl⟩ := List.mem_map.mp member
    simp
  simp only [State.tableLog, State.record, List.filter_append, own]

/-- The head of what a worker has yet to apply is the batch that comes next. -/
theorem inFlight_pending {worker : Worker Schema Row} {item : Nat × RecordBatch Schema Row}
    {rest : List (Nat × RecordBatch Schema Row)} (queued : worker.pending = item :: rest) :
    worker.inFlight = (item.2.rows.map fun row => (⟨worker.table, item.1, .row row⟩ : LogEntry Row)) ++
      ({ worker with pending := rest } : Worker Schema Row).inFlight := by
  simp [Worker.inFlight, queued]

theorem inFlight_received {worker : Worker Schema Row} {item : Nat × RecordBatch Schema Row}
    {rest : List (Nat × RecordBatch Schema Row)} (queued : worker.queue = item :: rest) :
    Worker.inFlight { worker with
      queue := rest, received := worker.received ++ [item], pending := worker.pending ++ [item] } = worker.inFlight := by
  simp [Worker.inFlight, queued]

theorem inFlight_queued {worker : Worker Schema Row} {write : Nat} {batch : RecordBatch Schema Row} :
    ({ worker with queue := worker.queue ++ [(write, batch)] } : Worker Schema Row).inFlight =
      worker.inFlight ++ batch.rows.map fun row => ⟨worker.table, write, .row row⟩ := by
  simp [Worker.inFlight, List.flatMap_append]

/-- Every sequential step keeps the events of the table in order. -/
theorem Lined.stepped (lined : Lined table state) (placed : Placed table state) (sound : Sound sink state)
    {action : Action Schema Row} (stepped : Stepped sink state action next) : Lined table next := by
  by_cases elsewhere : Elsewhere table state action
  · exact lined.frame (sound.sameView stepped elsewhere)
  have mine : ∀ {write : Nat} {task : Task Schema Row} {move : WriteMove Schema Row}, action = .write write move →
      state.writes[write]? = some task → task.call.table = table := by
    rintro write task move rfl found
    by_contra other
    refine elsewhere fun result located => ?_
    obtain rfl := Option.some.inj (located.symm.trans found)
    exact other
  have worked : ∀ {index : Nat} {worker : Worker Schema Row} {move : WorkerMove}, action = .worker index move →
      state.workers[index]? = some worker → worker.table = table := by
    rintro index worker move rfl located
    by_contra other
    refine elsewhere fun result found => ?_
    obtain rfl := Option.some.inj (found.symm.trans located)
    exact other
  cases stepped with
  | @called call isOpen =>
      have earlier : ∀ {write : Nat} {task : Task Schema Row}, state.writes[write]? = some task →
          task.call.table = table → ∃ other : Task Schema Row,
          (state.writes ++ [⟨call, .started⟩])[write]? = some other ∧ other.call.table = table :=
        fun found isTable => ⟨_, getElem?_append_singleton_eq_some.mpr (.inl found), isTable⟩
      exact ⟨lined.logged.mono earlier, fun located onTable running => (lined.flying located onTable running).mono earlier⟩
  | started found phase => exact lined.setPhase
  | joined found phase => exact lined.setPhase
  | missed found phase => exact lined.setPhase
  | @taken write task subBatches stream found phase stored =>
      have removed : Lined table (state.removeStream task.call.table) := lined.congr rfl rfl rfl
      exact removed.setPhase
  | absent found phase => exact lined.setPhase
  | @takenFailing write own task stream found phase stored =>
      have removed : Lined table (state.removeStream task.call.table) := lined.congr rfl rfl rfl
      exact removed.setPhase
  | absentFailing found phase => exact lined.setPhase
  | closed found phase spawned status => exact (lined.frame sameView_join).setPhase
  | closedFailed found phase spawned status => exact (lined.frame sameView_join).setPhase
  | surfaced found phase spawned status => exact (lined.frame sameView_join).setPhase
  | @spawned write task schema subBatches found phase =>
      have isTable := mine rfl found
      have absent := placed.place found isTable
      rw [phase] at absent
      rw [isTable, insertStream_of_absent absent]
      apply Lined.setPhase
      refine ⟨lined.logged.mono fun found isTable => ⟨_, found, isTable⟩, ?_⟩
      intro index worker located onTable running
      rcases getElem?_append_singleton_eq_some.mp located with stays | ⟨_, rfl⟩
      · exact (lined.flying stays onTable running).mono fun found isTable => ⟨_, found, isTable⟩
      · have nothing : (Worker.spawned table : Worker Schema Row).inFlight = [] := rfl
        rw [nothing, List.append_nil]
        exact lined.logged.mono fun found isTable => ⟨_, found, isTable⟩
  | @sent write index task batch rest worker found phase spawned status =>
      have isTable := mine rfl found
      apply Lined.setPhase
      refine ⟨lined.logged.mono fun found isTable => ⟨_, found, isTable⟩, ?_⟩
      intro other result located onTable running
      rcases workers_modifyWorker.mp located with ⟨_, stays⟩ | ⟨rfl, old, stays, rfl⟩
      · exact (lined.flying stays onTable running).mono fun found isTable => ⟨_, found, isTable⟩
      · rw [inFlight_queued, ← List.append_assoc]
        have before := lined.flying stays onTable running
        have after : InOrder table state (state.tableLog table ++ old.inFlight ++
            batch.rows.map fun row => ⟨old.table, write, .row row⟩) := by
          refine before.append placed found isTable (by simp [phase, Phase.isFinished]) ?_
          intro entry member
          obtain ⟨row, _, rfl⟩ := List.mem_map.mp member
          rfl
        exact after.mono fun found isTable => ⟨_, found, isTable⟩
  | unsent found phase => exact lined.setPhase
  | @performed write task around found phase =>
      have isTable := mine rfl found
      have absent := placed.place found isTable
      rw [phase] at absent
      have active : task.phase.isFinished = false := by simp [phase, Phase.isFinished]
      apply Lined.setPhase
      rw [isTable]
      refine ⟨?_, ?_⟩
      · rw [tableLog_record]
        refine InOrder.mono (lined.logged.append placed found isTable active ?_) fun found isTable => ⟨_, found, isTable⟩
        intro entry member
        obtain ⟨event, _, rfl⟩ := List.mem_map.mp member
        rfl
      · intro index worker located onTable running
        exact absurd running (placed.none_running found isTable active (by simp [phase, Phase.awaits]) absent
          (sound.idle found active) located onTable)
  | @received index worker item rest spawned status queued =>
      exact lined.modifyWorker spawned rfl fun _ => ⟨status, inFlight_received queued⟩
  | @applied index worker item rest spawned status queued =>
      have isTable := worked rfl spawned
      have before := lined.flying spawned isTable status
      have moved : InOrder table state ((state.tableLog table ++
          (item.2.rows.map Event.row).map fun event => ⟨table, item.1, event⟩) ++
          ({ worker with pending := rest } : Worker Schema Row).inFlight) := by
        rw [inFlight_pending queued] at before
        simpa [Function.comp_def, isTable] using before
      rw [isTable]
      refine ⟨?_, ?_⟩
      · rw [tableLog_record]
        exact (moved.sublist (List.sublist_append_left _ _)).mono fun found isTable => ⟨_, found, isTable⟩
      · intro other result located onTable running
        rcases workers_modifyWorker.mp located with ⟨apart, stays⟩ | ⟨rfl, old, stays, rfl⟩
        · exact absurd (placed.alone spawned isTable status stays onTable running) apart
        · obtain rfl := Option.some.inj (stays.symm.trans spawned)
          rw [tableLog_record]
          exact moved.mono fun found isTable => ⟨_, found, isTable⟩
  | completed spawned status => exact lined.modifyWorker spawned rfl (by simp)
  | aborted spawned status => exact lined.modifyWorker spawned rfl (by simp)
  | stopped spawned status => exact lined.modifyWorker spawned rfl (by simp)
  | drained => exact lined.congr rfl rfl rfl
  | undrained => exact lined.congr rfl rfl rfl
  | returned => exact lined.congr rfl rfl rfl
  | returnedFailed => exact lined.congr rfl rfl rfl
  | @flushed name index rest firstErr worker flushing spawned status =>
      have joined : Lined table (state.join index) := lined.frame sameView_join
      exact joined.congr rfl rfl rfl
  | @flushedFailed name message index rest firstErr worker flushing spawned status =>
      have joined : Lined table (state.join index) := lined.frame sameView_join
      exact joined.congr rfl rfl rfl

end Lined

section Balanced

variable {table : String}

/-- The effects that a write stands for once its rows are on their way. -/
def Task.promised (sink : AdbcSink Schema Row) (task : Task Schema Row) : List (Event Row) :=
  match task.phase with
  | .sending _ _ => sink.expected task.call
  | .finished (.ok ()) => sink.expected task.call
  | _ => []

/-- The rows that a write has yet to send. -/
def Task.remaining (task : Task Schema Row) : List (Event Row) :=
  match task.phase with
  | .sending _ subBatches => (subBatches.flatMap (·.rows)).map .row
  | _ => []

/-- The events, with those that are yet to be sent, are what the writes to the table stand for. -/
def Balanced (sink : AdbcSink Schema Row) (table : String) (state : State Schema Row) (entries : List (LogEntry Row)) :
    Prop :=
  entries.map (·.event) ++ (state.tableWrites table).flatMap Task.remaining =
    (state.tableWrites table).flatMap (Task.promised sink)

theorem Task.remaining_of_isFinished {task : Task Schema Row} (finished : task.phase.isFinished = true) :
    task.remaining = [] := by
  unfold remaining
  cases phase : task.phase with
  | finished _ => rfl
  | _ => simp [phase, Phase.isFinished] at finished

/-- The write of the table that is on its way is the last one in the list. -/
theorem Placed.tableWrites_eq (placed : Placed table state) {write : Nat} {task : Task Schema Row}
    (found : state.writes[write]? = some task) (isTable : task.call.table = table)
    (active : task.phase.isFinished = false) :
    ∃ before, (∀ other ∈ before, other.phase.isFinished = true) ∧ state.tableWrites table = before ++ [task] ∧
      ∀ phase, (state.setPhase write phase).tableWrites table = before ++ [{ task with phase }] := by
  obtain ⟨inside, here⟩ := List.getElem?_eq_some_iff.mp found
  have whole : state.writes = state.writes.take write ++ task :: state.writes.drop (write + 1) := by
    rw [← here, ← List.drop_eq_getElem_cons inside, List.take_append_drop]
  have later : (state.writes.drop (write + 1)).filter (fun task => task.call.table = table) = [] := by
    rw [List.filter_eq_nil_iff]
    intro other member isOther
    obtain ⟨place, located⟩ := List.mem_iff_getElem?.mp member
    rw [List.getElem?_drop] at located
    have before := (placed.single found isTable active located (of_decide_eq_true isOther) (by omega)).2
    omega
  refine ⟨(state.writes.take write).filter fun task => task.call.table = table, ?_, ?_, ?_⟩
  · intro other member
    obtain ⟨listed, isOther⟩ := List.mem_filter.mp member
    obtain ⟨place, located⟩ := List.mem_iff_getElem?.mp listed
    rw [List.getElem?_take, Option.ite_none_right_eq_some] at located
    obtain ⟨below, same⟩ := located
    exact (placed.single found isTable active same (of_decide_eq_true isOther) (by omega)).1
  · have filtered := congrArg (List.filter fun task => task.call.table = table) whole
    rw [List.filter_append, List.filter_cons, later] at filtered
    simpa [isTable, State.tableWrites] using filtered
  · intro phase
    simp only [State.tableWrites, State.setPhase]
    rw [List.modify_eq_take_cons_drop inside, here, List.filter_append, List.filter_cons, later]
    simp [isTable]

/-- The write of the table takes a step that adds nothing to what it stands for. -/
theorem Balanced.setPhase {entries : List (LogEntry Row)} (balanced : Balanced sink table state entries)
    (placed : Placed table state) {write : Nat} {task : Task Schema Row}
    (found : state.writes[write]? = some task) (isTable : task.call.table = table)
    (active : task.phase.isFinished = false) (added : List (LogEntry Row)) (phase : Phase Schema Row)
    (step : (task.remaining = [] ∧ task.promised sink = [] ∧
        added.map (·.event) ++ Task.remaining { task with phase } = Task.promised sink { task with phase }) ∨
      (task.promised sink = Task.promised sink { task with phase } ∧
        task.remaining = added.map (·.event) ++ Task.remaining { task with phase })) :
    Balanced sink table (state.setPhase write phase) (entries ++ added) := by
  obtain ⟨before, finished, listed, changed⟩ := placed.tableWrites_eq found isTable active
  have none : before.flatMap Task.remaining = [] :=
    List.flatMap_eq_nil_iff.mpr fun other member => Task.remaining_of_isFinished (finished other member)
  unfold Balanced at balanced ⊢
  rw [listed] at balanced
  rw [changed phase]
  simp only [List.flatMap_append, none, List.nil_append, List.flatMap_singleton, List.map_append] at balanced ⊢
  rcases step with ⟨nothing, fresh, rest⟩ | ⟨same, sent⟩
  · rw [nothing, fresh, List.append_nil, List.append_nil] at balanced
    rw [balanced, List.append_assoc, rest]
  · rw [← same, ← balanced, sent, List.append_assoc]

/-- No write to the table and none of its workers has failed. -/
structure Unfailed (table : String) (state : State Schema Row) : Prop where
  writes : ¬ TableFailed table state
  workers : ∀ {index : Nat} {worker : Worker Schema Row}, state.workers[index]? = some worker →
    worker.table = table → worker.status.failed = false

/-- Failed workers stay failed. -/
def KeepsFailed (state next : State Schema Row) : Prop :=
  ∀ (index : Nat) (worker : Worker Schema Row), state.workers[index]? = some worker → worker.status.failed = true →
    ∃ other : Worker Schema Row, next.workers[index]? = some other ∧ other.table = worker.table ∧
      other.status.failed = true

theorem keepsFailed_modifyWorker {index : Nat} {change : Worker Schema Row → Worker Schema Row}
    (table : ∀ worker, (change worker).table = worker.table)
    (failed : ∀ worker, state.workers[index]? = some worker → worker.status.failed = true →
      (change worker).status.failed = true) : KeepsFailed state (state.modifyWorker index change) := by
  intro other worker located isFailed
  by_cases here : other = index
  · subst here
    exact ⟨_, workers_modifyWorker.mpr (.inr ⟨rfl, worker, located, rfl⟩), table worker, failed worker located isFailed⟩
  · exact ⟨worker, workers_modifyWorker.mpr (.inl ⟨here, located⟩), rfl, isFailed⟩

theorem keepsFailed_insertStream (name : String) (schema : Schema) :
    KeepsFailed state (state.insertStream name schema) := by
  intro index worker located isFailed
  unfold State.insertStream
  split
  · rename_i stream _
    obtain ⟨other, stays, same⟩ := @keepsFailed_modifyWorker _ _ state stream.worker
      (fun worker => { worker with handle := .dropped }) (fun _ => rfl) (fun _ _ => id) _ _ located isFailed
    exact ⟨other, getElem?_append_singleton_eq_some.mpr (.inl stays), same⟩
  · exact ⟨worker, getElem?_append_singleton_eq_some.mpr (.inl located), rfl, isFailed⟩

theorem Stepped.keepsFailed {action : Action Schema Row} (stepped : Stepped sink state action next) :
    KeepsFailed state next := by
  have same : KeepsFailed state state := fun _ _ located isFailed => ⟨_, located, rfl, isFailed⟩
  have join : ∀ index, KeepsFailed state (state.join index) :=
    fun index => keepsFailed_modifyWorker (fun _ => rfl) fun _ _ => id
  cases stepped with
  | closed => exact join _
  | closedFailed => exact join _
  | surfaced => exact join _
  | flushed => exact join _
  | flushedFailed => exact join _
  | @spawned _ task schema => exact keepsFailed_insertStream task.call.table schema
  | sent => exact keepsFailed_modifyWorker (fun _ => rfl) fun _ _ => id
  | received => exact keepsFailed_modifyWorker (fun _ => rfl) fun _ _ => id
  | applied => exact keepsFailed_modifyWorker (fun _ => rfl) fun _ _ => id
  | completed spawned status =>
      refine keepsFailed_modifyWorker (fun _ => rfl) fun worker located isFailed => ?_
      obtain rfl := Option.some.inj (located.symm.trans spawned)
      simp [status, WorkerStatus.failed] at isFailed
  | aborted => exact keepsFailed_modifyWorker (fun _ => rfl) fun _ _ _ => rfl
  | stopped => exact keepsFailed_modifyWorker (fun _ => rfl) fun _ _ _ => rfl
  | _ => exact same

/-- A write that has returned stays as it is. -/
theorem Stepped.keepsFinished {action : Action Schema Row} (stepped : Stepped sink state action next) {write : Nat}
    {task : Task Schema Row} (found : state.writes[write]? = some task) (finished : task.phase.isFinished = true) :
    next.writes[write]? = some task := by
  have moved : ∀ {base : State Schema Row} {other : Nat} {result : Task Schema Row} {phase : Phase Schema Row},
      base.writes = state.writes → state.writes[other]? = some result → result.phase.isFinished = false →
      (base.setPhase other phase).writes[write]? = some task := by
    intro base other result phase same located active
    refine writes_setPhase.mpr (.inl ⟨?_, same ▸ found⟩)
    rintro rfl
    obtain rfl := Option.some.inj (located.symm.trans found)
    rw [finished] at active
    cases active
  cases stepped with
  | called => exact getElem?_append_singleton_eq_some.mpr (.inl found)
  | started located phase => exact moved rfl located (by simp [phase, Phase.isFinished])
  | joined located phase => exact moved rfl located (by simp [phase, Phase.isFinished])
  | missed located phase => exact moved rfl located (by simp [phase, Phase.isFinished])
  | taken located phase => exact moved rfl located (by simp [phase, Phase.isFinished])
  | absent located phase => exact moved rfl located (by simp [phase, Phase.isFinished])
  | takenFailing located phase => exact moved rfl located (by simp [phase, Phase.isFinished])
  | absentFailing located phase => exact moved rfl located (by simp [phase, Phase.isFinished])
  | closed located phase => exact moved rfl located (by simp [phase, Phase.isFinished])
  | closedFailed located phase => exact moved rfl located (by simp [phase, Phase.isFinished])
  | surfaced located phase => exact moved rfl located (by simp [phase, Phase.isFinished])
  | spawned located phase => exact moved insertStream_writes located (by simp [phase, Phase.isFinished])
  | sent located phase => exact moved rfl located (by simp [phase, Phase.isFinished])
  | unsent located phase => exact moved rfl located (by simp [phase, Phase.isFinished])
  | performed located phase => exact moved rfl located (by simp [phase, Phase.isFinished])
  | _ => exact found

theorem Unfailed.before (unfailed : Unfailed table next) {action : Action Schema Row}
    (stepped : Stepped sink state action next) : Unfailed table state where
  writes := by
    rintro ⟨write, task, message, found, isTable, phase⟩
    have stays := stepped.keepsFinished found (by simp [phase, Phase.isFinished])
    exact unfailed.writes ⟨write, task, message, stays, isTable, phase⟩
  workers {index worker} located onTable := by
    by_contra failed
    obtain ⟨other, stays, same, isFailed⟩ := stepped.keepsFailed index worker located (by simpa using failed)
    rw [unfailed.workers stays (same.trans onTable)] at isFailed
    cases isFailed

/-- As long as nothing has failed, what happened on the table, with what its running worker has yet to
apply, is what its writes stand for. -/
structure Faithful (sink : AdbcSink Schema Row) (table : String) (state : State Schema Row) : Prop where
  flying : Unfailed table state → ∀ {index : Nat} {worker : Worker Schema Row}, state.workers[index]? = some worker →
    worker.table = table → worker.status = .running →
    Balanced sink table state (state.tableLog table ++ worker.inFlight)
  settled : Unfailed table state → (∀ {index : Nat} {worker : Worker Schema Row},
    state.workers[index]? = some worker → worker.table = table → worker.status ≠ .running) →
    Balanced sink table state (state.tableLog table)

theorem Unfailed.frame (unfailed : Unfailed table next) (same : SameView table state next) :
    Unfailed table state where
  writes failed := unfailed.writes (failed.frame same)
  workers located onTable := by
    obtain ⟨other, stays, alike⟩ := same.kept located onTable
    rw [← alike.status]
    exact unfailed.workers stays (alike.table.trans onTable)

theorem Balanced.congr {entries : List (LogEntry Row)} (balanced : Balanced sink table state entries)
    (same : next.tableWrites table = state.tableWrites table) : Balanced sink table next entries := by
  unfold Balanced at balanced ⊢
  rw [same]
  exact balanced

theorem Faithful.frame (faithful : Faithful sink table state) (same : SameView table state next) :
    Faithful sink table next where
  flying unfailed index worker located onTable running := by
    obtain ⟨old, before, alike⟩ := same.known located onTable
    rw [same.log, alike.inFlight]
    exact (faithful.flying (unfailed.frame same) before (alike.table.symm.trans onTable)
      (alike.status.symm.trans running)).congr same.listed
  settled unfailed none := by
    rw [same.log]
    refine (faithful.settled (unfailed.frame same) ?_).congr same.listed
    intro index worker located onTable
    obtain ⟨other, stays, alike⟩ := same.kept located onTable
    rw [← alike.status]
    exact none stays (alike.table.trans onTable)

/-- The map and the flush do not matter for what happened. -/
theorem Faithful.congr (faithful : Faithful sink table state) (writes : next.writes = state.writes)
    (workers : next.workers = state.workers) (log : next.log = state.log) : Faithful sink table next := by
  have before : Unfailed table next → Unfailed table state := by
    rintro ⟨noFailure, sound⟩
    refine ⟨?_, fun located => sound (workers ▸ located)⟩
    rintro ⟨write, task, message, found, rest⟩
    exact noFailure ⟨write, task, message, writes ▸ found, rest⟩
  have logs : next.tableLog table = state.tableLog table := by simp only [State.tableLog, log]
  have listed : next.tableWrites table = state.tableWrites table := by simp only [State.tableWrites, writes]
  refine ⟨?_, ?_⟩
  · intro unfailed index worker located onTable running
    rw [logs]
    exact (faithful.flying (before unfailed) (workers ▸ located) onTable running).congr listed
  · intro unfailed none
    rw [logs]
    exact (faithful.settled (before unfailed) fun located => none (workers ▸ located)).congr listed

/-- The write of the table takes a step of its own, without any event. -/
theorem Faithful.move (faithful : Faithful sink table state) (placed : Placed table state) {write : Nat}
    {task : Task Schema Row} {phase : Phase Schema Row} (found : state.writes[write]? = some task)
    (isTable : task.call.table = table) (active : task.phase.isFinished = false)
    (fresh : task.remaining = [] ∧ task.promised sink = [])
    (kept : Unfailed table (state.setPhase write phase) →
      Task.remaining { task with phase } = Task.promised sink { task with phase }) :
    Faithful sink table (state.setPhase write phase) := by
  have before : Unfailed table (state.setPhase write phase) → Unfailed table state :=
    fun unfailed => ⟨fun failed => unfailed.writes (failed.setPhase found active), unfailed.workers⟩
  have step : ∀ entries, Unfailed table (state.setPhase write phase) → Balanced sink table state entries →
      Balanced sink table (state.setPhase write phase) entries := by
    intro entries unfailed balanced
    have moved := balanced.setPhase placed found isTable active [] phase
      (.inl ⟨fresh.1, fresh.2, by simpa using kept unfailed⟩)
    rwa [List.append_nil] at moved
  refine ⟨?_, ?_⟩
  · intro unfailed index worker located onTable running
    exact step _ unfailed (faithful.flying (before unfailed) located onTable running)
  · intro unfailed none
    exact step _ unfailed (faithful.settled (before unfailed) none)

/-- The rows that a stream takes over are those of the write. -/
theorem expected_of_split {call : WriteCall Schema Row} {subBatches : List (RecordBatch Schema Row)}
    (streams : sink.usesStream call.op = true) (some : call.batch.numRows ≠ 0)
    (split : sink.splitInsertBatchForIngest call.batch = .ok subBatches) :
    (subBatches.flatMap (·.rows)).map .row = sink.expected call := by
  rw [expected_of_usesStream streams some, splitInsertBatchForIngest_rows split]

/-- A write that starts has nothing to send yet. -/
theorem startPhase_kept {write : Nat} {task : Task Schema Row} (found : state.writes[write]? = some task)
    (isTable : task.call.table = table)
    (unfailed : Unfailed table (state.setPhase write (sink.startPhase task.call))) :
    Task.remaining { task with phase := sink.startPhase task.call } =
      Task.promised sink { task with phase := sink.startPhase task.call } := by
  have failed : ∀ {message : String}, sink.startPhase task.call ≠ .finished (.error message) := by
    intro message isError
    exact unfailed.writes ⟨write, _, message, writes_setPhase.mpr (.inr ⟨rfl, task, found, rfl⟩), isTable, isError⟩
  unfold Task.remaining Task.promised
  dsimp only
  have started := @startPhase_ne_sending _ _ sink task.call
  cases phase : sink.startPhase task.call with
  | sending index subBatches => exact absurd phase started
  | finished result =>
      cases result with
      | error message => exact absurd phase failed
      | ok value =>
          unfold startPhase at phase
          split_ifs at phase with empty flushes streams
          · simp [expected, empty]
          · split at phase <;> cases phase
  | _ => rfl

theorem TableFailed.of_finished {base : State Schema Row} {write : Nat} {task : Task Schema Row} {message : String}
    (found : base.writes[write]? = some task) (isTable : task.call.table = table) :
    TableFailed table (base.setPhase write (.finished (.error message))) :=
  ⟨write, { task with phase := .finished (.error message) }, message,
    writes_setPhase.mpr (.inr ⟨rfl, task, found, rfl⟩), isTable, rfl⟩

/-- Where something has failed, nothing is claimed. -/
theorem Faithful.of_failed (failed : TableFailed table state) : Faithful sink table state :=
  ⟨fun unfailed => absurd failed unfailed.writes, fun unfailed => absurd failed unfailed.writes⟩

theorem Faithful.of_failed_worker {index : Nat} {worker : Worker Schema Row}
    (located : state.workers[index]? = some worker) (onTable : worker.table = table)
    (failed : worker.status.failed = true) : Faithful sink table state := by
  have never : ¬ Unfailed table state := by
    intro unfailed
    rw [unfailed.workers located onTable] at failed
    cases failed
  exact ⟨fun unfailed => absurd unfailed never, fun unfailed => absurd unfailed never⟩

/-- Every sequential step keeps what happened on the table faithful. -/
theorem Faithful.stepped (faithful : Faithful sink table state) (placed : Placed table state)
    (sound : Sound sink state) {action : Action Schema Row} (stepped : Stepped sink state action next) :
    Faithful sink table next := by
  by_cases elsewhere : Elsewhere table state action
  · exact faithful.frame (sound.sameView stepped elsewhere)
  have before := fun unfailed : Unfailed table next => unfailed.before stepped
  have mine : ∀ {write : Nat} {task : Task Schema Row} {move : WriteMove Schema Row}, action = .write write move →
      state.writes[write]? = some task → task.call.table = table := by
    rintro write task move rfl found
    by_contra other
    refine elsewhere fun result located => ?_
    obtain rfl := Option.some.inj (located.symm.trans found)
    exact other
  have worked : ∀ {index : Nat} {worker : Worker Schema Row} {move : WorkerMove}, action = .worker index move →
      state.workers[index]? = some worker → worker.table = table := by
    rintro index worker move rfl located
    by_contra other
    refine elsewhere fun result found => ?_
    obtain rfl := Option.some.inj (found.symm.trans located)
    exact other
  cases stepped with
  | @called call isOpen =>
      have listed : ∀ entries, Balanced sink table state entries → Balanced sink table
          { state with writes := state.writes ++ [⟨call, .started⟩], flush := .idle } entries := by
        intro entries balanced
        unfold Balanced State.tableWrites at balanced ⊢
        simp only [List.filter_append, List.flatMap_append]
        by_cases isTable : call.table = table
        · simpa [isTable, Task.remaining, Task.promised] using balanced
        · simpa [isTable] using balanced
      refine ⟨?_, ?_⟩
      · intro unfailed index worker located onTable running
        exact listed _ (faithful.flying (before unfailed) located onTable running)
      · intro unfailed none
        exact listed _ (faithful.settled (before unfailed) none)
  | started found phase =>
      exact faithful.move placed found (mine rfl found) (by simp [phase, Phase.isFinished])
        (by simp [Task.remaining, Task.promised, phase]) (startPhase_kept found (mine rfl found))
  | joined found phase =>
      have carried := sound.carried found
      rw [phase] at carried
      exact faithful.move placed found (mine rfl found) (by simp [phase, Phase.isFinished])
        (by simp [Task.remaining, Task.promised, phase])
        (fun _ => expected_of_split carried.1 carried.2.1 carried.2.2)
  | missed found phase =>
      exact faithful.move placed found (mine rfl found) (by simp [phase, Phase.isFinished])
        (by simp [Task.remaining, Task.promised, phase]) fun _ => rfl
  | @taken write task subBatches stream found phase stored =>
      have moved : Faithful sink table (state.setPhase write (.closing stream.worker subBatches)) :=
        faithful.move placed found (mine rfl found) (by simp [phase, Phase.isFinished])
          (by simp [Task.remaining, Task.promised, phase]) fun _ => rfl
      exact moved.congr rfl rfl rfl
  | @absent write task subBatches found phase stored =>
      refine faithful.move placed found (mine rfl found) (by simp [phase, Phase.isFinished])
        (by simp [Task.remaining, Task.promised, phase]) fun _ => ?_
      cases subBatches <;> rfl
  | @takenFailing write own task stream found phase stored =>
      have moved : Faithful sink table (state.setPhase write (.surfacing own stream.worker)) :=
        faithful.move placed found (mine rfl found) (by simp [phase, Phase.isFinished])
          (by simp [Task.remaining, Task.promised, phase]) fun _ => rfl
      exact moved.congr rfl rfl rfl
  | absentFailing found phase => exact .of_failed (.of_finished found (mine rfl found))
  | @closed write index task subBatches worker found phase spawned status =>
      have joined : Faithful sink table (state.join index) := faithful.frame sameView_join
      refine joined.move (placed.frame sameView_join) found (mine rfl found) (by simp [phase, Phase.isFinished])
        (by simp [Task.remaining, Task.promised, phase]) fun _ => ?_
      cases subBatches <;> rfl
  | closedFailed found phase spawned status => exact .of_failed (.of_finished found (mine rfl found))
  | surfaced found phase spawned status => exact .of_failed (.of_finished found (mine rfl found))
  | @spawned write task schema subBatches found phase =>
      have isTable := mine rfl found
      have absent := placed.place found isTable
      have carried := sound.carried found
      rw [phase] at absent carried
      have active : task.phase.isFinished = false := by simp [phase, Phase.isFinished]
      have none : ∀ {index : Nat} {worker : Worker Schema Row}, state.workers[index]? = some worker →
          worker.table = table → worker.status ≠ .running :=
        fun located onTable => placed.none_running found isTable active (by simp [phase, Phase.awaits]) absent
          (sound.idle found active) located onTable
      rw [isTable, insertStream_of_absent absent] at before ⊢
      refine ⟨?_, ?_⟩
      · intro unfailed index worker located onTable running
        rcases getElem?_append_singleton_eq_some.mp located with stays | ⟨_, rfl⟩
        · exact absurd running (none stays onTable)
        · have balanced := (faithful.settled (before unfailed) none).setPhase placed found isTable active []
            (.sending state.workers.length subBatches)
            (.inl ⟨by simp [Task.remaining, phase], by simp [Task.promised, phase],
              expected_of_split carried.1 carried.2.1 carried.2.2⟩)
          exact balanced.congr rfl
      · intro _ noneRunning
        exact absurd rfl (noneRunning (getElem?_append_singleton_eq_some.mpr (.inr ⟨rfl, rfl⟩)) rfl)
  | @sent write index task batch rest worker found phase spawned status =>
      have isTable := mine rfl found
      obtain ⟨worker', spawned', attached, _⟩ := sound.attached found phase
      obtain rfl := Option.some.inj (spawned'.symm.trans spawned)
      have onTable := attached.trans isTable
      refine ⟨?_, ?_⟩
      · intro unfailed other result located isOther running
        rcases workers_modifyWorker.mp located with ⟨apart, stays⟩ | ⟨rfl, old, stays, rfl⟩
        · exact absurd (placed.alone spawned onTable status stays isOther running) apart
        · obtain rfl := Option.some.inj (stays.symm.trans spawned)
          have balanced := (faithful.flying (before unfailed) spawned onTable status).setPhase placed found isTable
            (by simp [phase, Phase.isFinished]) (batch.rows.map fun row => ⟨old.table, write, .row row⟩)
            (if rest = [] then .finished (.ok ()) else .sending other rest)
            (.inr (by
              by_cases last : rest = []
              · simp [Task.promised, Task.remaining, phase, last, Function.comp_def]
              · simp [Task.promised, Task.remaining, phase, last, Function.comp_def]))
          rw [inFlight_queued, ← List.append_assoc]
          exact balanced.congr rfl
      · intro _ none
        exact (none (workers_modifyWorker.mpr (.inr ⟨rfl, worker', spawned, rfl⟩)) onTable status).elim
  | @unsent write index task subBatches worker found phase spawned status =>
      obtain ⟨worker', spawned', attached, notOk⟩ := sound.attached found phase
      obtain rfl := Option.some.inj (spawned'.symm.trans spawned)
      have failed : worker'.status.failed = true := by
        cases isStatus : worker'.status with
        | running => exact absurd isStatus status
        | stopping message => rfl
        | ended result =>
            cases result with
            | ok value => exact absurd isStatus notOk
            | error message => rfl
      have located : (state.setPhase write (.failing index)).workers[index]? = some worker' := spawned
      exact .of_failed_worker located (attached.trans (mine rfl found)) failed
  | @performed write task around found phase =>
      have isTable := mine rfl found
      have absent := placed.place found isTable
      have carried := sound.carried found
      rw [phase] at absent carried
      have active : task.phase.isFinished = false := by simp [phase, Phase.isFinished]
      have none : ∀ {index : Nat} {worker : Worker Schema Row}, state.workers[index]? = some worker →
          worker.table = table → worker.status ≠ .running :=
        fun located onTable => placed.none_running found isTable active (by simp [phase, Phase.awaits]) absent
          (sound.idle found active) located onTable
      cases result : (sink.perform around task.call).1 with
      | error message => exact .of_failed (.of_finished found isTable)
      | ok value =>
          rw [result] at before
          refine ⟨fun _ _ _ located onTable running => absurd running (none located onTable), ?_⟩
          intro unfailed _
          have balanced := (faithful.settled (before unfailed) none).setPhase placed found isTable active
            ((sink.perform around task.call).2.map fun event => ⟨table, write, event⟩) (.finished (.ok ()))
            (.inl ⟨by simp [Task.remaining, phase], by simp [Task.promised, phase], by
              simp [Task.remaining, Task.promised, Function.comp_def, perform_expected carried result]⟩)
          rw [← tableLog_record, ← isTable] at balanced
          exact isTable ▸ balanced.congr rfl
  | @received index worker item rest spawned status queued =>
      refine ⟨?_, ?_⟩
      · intro unfailed other result located onTable running
        rcases workers_modifyWorker.mp located with ⟨_, stays⟩ | ⟨rfl, old, stays, rfl⟩
        · exact (faithful.flying (before unfailed) stays onTable running).congr rfl
        · obtain rfl := Option.some.inj (stays.symm.trans spawned)
          rw [inFlight_received queued]
          exact (faithful.flying (before unfailed) stays onTable running).congr rfl
      · intro _ none
        have onTable := worked rfl spawned
        exact (none (workers_modifyWorker.mpr (.inr ⟨rfl, worker, spawned, rfl⟩)) onTable status).elim
  | @applied index worker item rest spawned status queued =>
      have isTable := worked rfl spawned
      rw [isTable] at before ⊢
      refine ⟨?_, ?_⟩
      · intro unfailed other result located onTable running
        rcases workers_modifyWorker.mp located with ⟨apart, stays⟩ | ⟨rfl, old, stays, rfl⟩
        · exact absurd (placed.alone spawned isTable status stays onTable running) apart
        · obtain rfl := Option.some.inj (stays.symm.trans spawned)
          have balanced := faithful.flying (before unfailed) spawned isTable status
          rw [inFlight_pending queued] at balanced
          rw [tableLog_record]
          have moved : Balanced sink table state ((state.tableLog table ++
              (item.2.rows.map Event.row).map fun event => ⟨table, item.1, event⟩) ++
              ({ old with pending := rest } : Worker Schema Row).inFlight) := by
            simpa [Function.comp_def, isTable] using balanced
          exact moved.congr rfl
      · intro _ none
        exact (none (workers_modifyWorker.mpr (.inr ⟨rfl, worker, spawned, rfl⟩)) isTable status).elim
  | @completed index worker spawned status queue pending closed =>
      have isTable := worked rfl spawned
      refine ⟨?_, ?_⟩
      · intro unfailed other result located onTable running
        rcases workers_modifyWorker.mp located with ⟨apart, stays⟩ | ⟨rfl, old, stays, rfl⟩
        · exact absurd (placed.alone spawned isTable status stays onTable running) apart
        · cases running
      · intro unfailed _
        have balanced := faithful.flying (before unfailed) spawned isTable status
        have nothing : worker.inFlight = [] := by simp [Worker.inFlight, queue, pending]
        rw [nothing, List.append_nil] at balanced
        exact balanced.congr rfl
  | @aborted index worker message spawned status =>
      have onTable := worked rfl spawned
      exact .of_failed_worker (workers_modifyWorker.mpr (.inr ⟨rfl, worker, spawned, rfl⟩)) onTable rfl
  | @stopped index worker message spawned status =>
      have onTable := worked rfl spawned
      exact .of_failed_worker (workers_modifyWorker.mpr (.inr ⟨rfl, worker, spawned, rfl⟩)) onTable rfl
  | drained => exact faithful.congr rfl rfl rfl
  | undrained => exact faithful.congr rfl rfl rfl
  | returned => exact faithful.congr rfl rfl rfl
  | returnedFailed => exact faithful.congr rfl rfl rfl
  | @flushed name index rest firstErr worker flushing spawned status =>
      have joined : Faithful sink table (state.join index) := faithful.frame sameView_join
      exact joined.congr rfl rfl rfl
  | @flushedFailed name message index rest firstErr worker flushing spawned status =>
      have joined : Faithful sink table (state.join index) := faithful.frame sameView_join
      exact joined.congr rfl rfl rfl

end Balanced

end Spicebench.Sink
