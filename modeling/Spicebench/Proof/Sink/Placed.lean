import Spicebench.Proof.Sink.Sound

namespace Spicebench.Sink
open Library Etl AdbcSink AdbcTarget

variable {Schema Row : Type} {sink : AdbcSink Schema Row} {state next : State Schema Row}

section Placed

variable {table : String}

/-- Some write to the table has failed. -/
def TableFailed (table : String) (state : State Schema Row) : Prop :=
  ∃ (write : Nat) (task : Task Schema Row) (message : String), state.writes[write]? = some task ∧
    task.call.table = table ∧ task.phase = .finished (.error message)

/-- A worker of the table is in the map, with a write or with the flush, or its error was reported. -/
def Referenced (table : String) (state : State Schema Row) (index : Nat) (worker : Worker Schema Row) : Prop :=
  (∃ stream, state.streams.get? table = some stream ∧ stream.worker = index) ∨
  (∃ (write : Nat) (task : Task Schema Row), state.writes[write]? = some task ∧ task.call.table = table ∧
    task.phase.awaits = some index) ∨
  (∃ streams firstErr, state.flush = .closing streams firstErr ∧ index ∈ streams.map Prod.snd) ∨
  ((∃ message, worker.status = .ended (.error message)) ∧ (TableFailed table state ∨ state.flush.failed = true))

/-- Where the stream of the table is, phase by phase of its write. -/
def Phase.Place (stream : Option (TableBulkIngestStream Schema)) : Phase Schema Row → Prop
  | .closing _ _ => stream = none
  | .spawning _ => stream = none
  | .surfacing _ _ => stream = none
  | .performing => stream = none
  | .sending index _ => stream.map (·.worker) = some index
  | .failing index => stream.map (·.worker) = some index
  | _ => True

/-- One write to the table is on its way at a time, and one of its workers runs. -/
structure Placed (table : String) (state : State Schema Row) : Prop where
  single : ∀ {write : Nat} {task : Task Schema Row}, state.writes[write]? = some task → task.call.table = table →
    task.phase.isFinished = false → ∀ {other : Nat} {result : Task Schema Row}, state.writes[other]? = some result →
    result.call.table = table → other ≠ write → result.phase.isFinished = true ∧ other < write
  place : ∀ {write : Nat} {task : Task Schema Row}, state.writes[write]? = some task → task.call.table = table →
    task.phase.Place (state.streams.get? table)
  referenced : ∀ {index : Nat} {worker : Worker Schema Row}, state.workers[index]? = some worker →
    worker.table = table → worker.status ≠ .ended (.ok ()) → Referenced table state index worker
  alone : ∀ {index other : Nat} {worker second : Worker Schema Row}, state.workers[index]? = some worker →
    worker.table = table → worker.status = .running → state.workers[other]? = some second →
    second.table = table → second.status = .running → other = index

theorem TableFailed.frame (failed : TableFailed table state) (same : SameView table state next) :
    TableFailed table next := by
  obtain ⟨write, task, message, found, isTable, phase⟩ := failed
  exact ⟨write, task, message, (same.writes isTable).mpr found, isTable, phase⟩

theorem Placed.frame (placed : Placed table state) (same : SameView table state next) : Placed table next where
  single found isTable active other result found' isTable' := by
    exact placed.single ((same.writes isTable).mp found) isTable active ((same.writes isTable').mp found') isTable'
  place found isTable := by
    rw [same.stream]
    exact placed.place ((same.writes isTable).mp found) isTable
  referenced located isTable status := by
    obtain ⟨worker, before, alike⟩ := same.known located isTable
    have old := placed.referenced before (alike.table.symm.trans isTable) (alike.status ▸ status)
    rcases old with stored | ⟨write, task, found, onTable, waits⟩ | flushing | ⟨⟨message, ended⟩, failed⟩
    · exact .inl (same.stream ▸ stored)
    · exact .inr (.inl ⟨write, task, (same.writes onTable).mpr found, onTable, waits⟩)
    · exact .inr (.inr (.inl (same.flush ▸ flushing)))
    · refine .inr (.inr (.inr ⟨⟨message, alike.status.trans ended⟩, ?_⟩))
      exact failed.imp (fun failed => failed.frame same) fun failed => same.flush ▸ failed
  alone located isTable running located' isTable' running' := by
    obtain ⟨worker, before, alike⟩ := same.known located isTable
    obtain ⟨other, before', alike'⟩ := same.known located' isTable'
    exact placed.alone before (alike.table.symm.trans isTable) (alike.status.symm.trans running) before'
      (alike'.table.symm.trans isTable') (alike'.status.symm.trans running')

/-- No worker of the table runs while its write holds no stream and the map has none. -/
theorem Placed.none_running (placed : Placed table state) {write : Nat} {task : Task Schema Row}
    (found : state.writes[write]? = some task) (isTable : task.call.table = table)
    (active : task.phase.isFinished = false) (free : task.phase.awaits = none)
    (absent : state.streams.get? table = none) (idle : state.flush = .idle) {index : Nat}
    {worker : Worker Schema Row} (located : state.workers[index]? = some worker) (onTable : worker.table = table) :
    worker.status ≠ .running := by
  intro running
  rcases placed.referenced located onTable (by simp [running]) with
    ⟨stream, stored, _⟩ | ⟨other, result, found', isTable', waits⟩ | ⟨_, _, flushing, _⟩ | ⟨⟨message, ended⟩, _⟩
  · rw [absent] at stored
    cases stored
  · by_cases here : other = write
    · subst here
      obtain rfl := Option.some.inj (found'.symm.trans found)
      rw [free] at waits
      cases waits
    · have finished := (placed.single found isTable active found' isTable' here).1
      rw [Phase.awaits_of_isFinished finished] at waits
      cases waits
  · rw [idle] at flushing
    cases flushing
  · rw [running] at ended
    cases ended

theorem TableFailed.setPhase {write : Nat} {task : Task Schema Row} {phase : Phase Schema Row}
    (failed : TableFailed table state) (found : state.writes[write]? = some task)
    (active : task.phase.isFinished = false) : TableFailed table (state.setPhase write phase) := by
  obtain ⟨other, result, message, found', isTable, finished⟩ := failed
  have differs : other ≠ write := by
    rintro rfl
    obtain rfl := Option.some.inj (found'.symm.trans found)
    simp [finished, Phase.isFinished] at active
  exact ⟨other, result, message, writes_setPhase.mpr (.inl ⟨differs, found'⟩), isTable, finished⟩

/-- A write that takes a step keeps the references to the workers that it does not await. -/
theorem Referenced.setPhase {write index : Nat} {task : Task Schema Row} {phase : Phase Schema Row}
    {worker : Worker Schema Row} (referenced : Referenced table state index worker)
    (found : state.writes[write]? = some task) (active : task.phase.isFinished = false)
    (moved : task.phase.awaits ≠ some index) : Referenced table (state.setPhase write phase) index worker := by
  rcases referenced with stored | ⟨other, result, found', isTable, waits⟩ | flushing | ⟨ended, failed⟩
  · exact .inl stored
  · have differs : other ≠ write := by
      rintro rfl
      obtain rfl := Option.some.inj (found'.symm.trans found)
      exact moved waits
    exact .inr (.inl ⟨other, result, writes_setPhase.mpr (.inl ⟨differs, found'⟩), isTable, waits⟩)
  · exact .inr (.inr (.inl flushing))
  · exact .inr (.inr (.inr ⟨ended, failed.imp_left fun failed => failed.setPhase found active⟩))

/-- The write of the table takes a step, and the map and the workers may change with it. -/
theorem Placed.setPhase (placed : Placed table state) {base : State Schema Row} {write : Nat} {task : Task Schema Row}
    {phase : Phase Schema Row} (found : state.writes[write]? = some task) (isTable : task.call.table = table)
    (active : task.phase.isFinished = false) (writes : base.writes = state.writes)
    (place : phase.Place (base.streams.get? table))
    (referenced : ∀ {index : Nat} {worker : Worker Schema Row}, base.workers[index]? = some worker →
      worker.table = table → worker.status ≠ .ended (.ok ()) → Referenced table (base.setPhase write phase) index worker)
    (alone : ∀ {index other : Nat} {worker second : Worker Schema Row}, base.workers[index]? = some worker →
      worker.table = table → worker.status = .running → base.workers[other]? = some second →
      second.table = table → second.status = .running → other = index) : Placed table (base.setPhase write phase) where
  single {one first} located onTable isActive other result found' onTable' differs := by
    rcases writes_setPhase.mp located with ⟨apart, stays⟩ | ⟨rfl, old, here, rfl⟩
    · rw [writes] at stays
      have finished := (placed.single found isTable active stays onTable apart).1
      rw [isActive] at finished
      cases finished
    · rcases writes_setPhase.mp found' with ⟨_, stays⟩ | ⟨rfl, _⟩
      · rw [writes] at stays
        exact placed.single found isTable active stays onTable' differs
      · exact absurd rfl differs
  place {other result} located onTable := by
    rcases writes_setPhase.mp located with ⟨apart, stays⟩ | ⟨rfl, old, here, rfl⟩
    · rw [writes] at stays
      have finished := (placed.single found isTable active stays onTable apart).1
      revert finished
      cases result.phase with
      | finished _ => exact fun _ => trivial
      | _ => exact fun finished => absurd finished (by simp [Phase.isFinished])
    · exact place
  referenced := referenced
  alone := alone

/-- The write of the table takes a step of its own. -/
theorem Placed.move (placed : Placed table state) {write : Nat} {task : Task Schema Row} {phase : Phase Schema Row}
    (found : state.writes[write]? = some task) (isTable : task.call.table = table)
    (active : task.phase.isFinished = false) (free : task.phase.awaits = none)
    (place : phase.Place (state.streams.get? table)) : Placed table (state.setPhase write phase) := by
  refine placed.setPhase found isTable active rfl place ?_ placed.alone
  intro index worker located onTable status
  exact (placed.referenced located onTable status).setPhase found active (by simp [free])

/-- The write of the table has awaited a worker. -/
theorem Placed.join (placed : Placed table state) {write index : Nat} {task : Task Schema Row}
    {phase : Phase Schema Row} {worker : Worker Schema Row} (found : state.writes[write]? = some task)
    (isTable : task.call.table = table) (active : task.phase.isFinished = false)
    (awaits : task.phase.awaits = some index) (spawned : state.workers[index]? = some worker)
    (status : worker.status = .ended (.ok ()) ∨
      (∃ message, worker.status = .ended (.error message)) ∧ ∃ message, phase = .finished (.error message))
    (place : phase.Place (state.streams.get? table)) : Placed table ((state.join index).setPhase write phase) := by
  have joined : Placed table (state.join index) := placed.frame sameView_join
  refine joined.setPhase found isTable active rfl place ?_ joined.alone
  intro other result located onTable notOk
  by_cases here : other = index
  · subst here
    rcases workers_modifyWorker.mp located with ⟨apart, _⟩ | ⟨_, old, before, rfl⟩
    · exact absurd rfl apart
    · obtain rfl := Option.some.inj (before.symm.trans spawned)
      rcases status with ok | ⟨failed, message, rfl⟩
      · exact absurd ok notOk
      · refine .inr (.inr (.inr ⟨failed, .inl ⟨write, { task with phase := .finished (.error message) }, message,
          ?_, isTable, rfl⟩⟩))
        exact writes_setPhase.mpr (.inr ⟨rfl, task, found, rfl⟩)
  · have before := joined.referenced located onTable notOk
    have apart : task.phase.awaits ≠ some other := by
      rw [awaits]
      simpa using Ne.symm here
    exact before.setPhase found active apart

/-- The write of the table takes the stream out of the map. -/
theorem Placed.take (placed : Placed table state) {write : Nat} {task : Task Schema Row} {phase : Phase Schema Row}
    {stream : TableBulkIngestStream Schema} (found : state.writes[write]? = some task)
    (isTable : task.call.table = table) (active : task.phase.isFinished = false) (free : task.phase.awaits = none)
    (stored : state.streams.get? table = some stream) (awaits : phase.awaits = some stream.worker)
    (place : phase.Place none) : Placed table ((state.removeStream table).setPhase write phase) := by
  have absent : (state.removeStream table).streams.get? table = none := OrderedMap.get?_alter_self _ _ _
  refine placed.setPhase found isTable active rfl (absent ▸ place) ?_ placed.alone
  intro index worker located onTable notOk
  rcases placed.referenced located onTable notOk with ⟨other, isStored, rfl⟩ | others
  · obtain rfl := Option.some.inj (stored.symm.trans isStored)
    refine .inr (.inl ⟨write, _, writes_setPhase.mpr (.inr ⟨rfl, task, found, rfl⟩), isTable, awaits⟩)
  · have before : Referenced table (state.removeStream table) index worker := .inr others
    exact before.setPhase found active (by simp [free])

/-- The write of the table spawns a worker when none runs. -/
theorem Placed.spawn (placed : Placed table state) {write : Nat} {task : Task Schema Row} {schema : Schema}
    {subBatches : List (RecordBatch Schema Row)} (found : state.writes[write]? = some task)
    (isTable : task.call.table = table) (active : task.phase.isFinished = false) (free : task.phase.awaits = none)
    (absent : state.streams.get? table = none) (idle : state.flush = .idle) :
    Placed table ((state.insertStream table schema).setPhase write (.sending state.workers.length subBatches)) := by
  rw [insertStream_of_absent absent]
  have stored : (state.streams.alter table fun _ => some (⟨schema, state.workers.length⟩ :
      TableBulkIngestStream Schema)).get? table = some ⟨schema, state.workers.length⟩ := OrderedMap.get?_alter_self _ _ _
  have none : ∀ {index : Nat} {worker : Worker Schema Row}, state.workers[index]? = some worker →
      worker.table = table → worker.status ≠ .running :=
    fun located onTable => placed.none_running found isTable active free absent idle located onTable
  refine placed.setPhase found isTable active rfl ?_ ?_ ?_
  · dsimp only
    rw [stored]
    rfl
  · intro index worker located onTable notOk
    rcases getElem?_append_singleton_eq_some.mp located with stays | ⟨rfl, _⟩
    · rcases placed.referenced stays onTable notOk with ⟨stream, isStored, _⟩ | others
      · rw [absent] at isStored
        cases isStored
      · refine @Referenced.setPhase _ _ _ table write index task _ worker (.inr others) found active (by simp [free])
    · exact .inl ⟨_, stored, rfl⟩
  · intro index other worker second located onTable running located' onTable' running'
    rcases getElem?_append_singleton_eq_some.mp located with stays | ⟨rfl, _⟩
    · exact absurd running (none stays onTable)
    · rcases getElem?_append_singleton_eq_some.mp located' with stays | ⟨rfl, _⟩
      · exact absurd running' (none stays onTable')
      · rfl

/-- A worker of the table takes a step: it does not start to run, and only goes through or on to its end. -/
theorem Placed.modifyWorker (placed : Placed table state) {index : Nat} {worker : Worker Schema Row}
    {change : Worker Schema Row → Worker Schema Row} (spawned : state.workers[index]? = some worker)
    (isTable : (change worker).table = worker.table)
    (running : (change worker).status = .running → worker.status = .running)
    (unfinished : (change worker).status ≠ .ended (.ok ()) → worker.status ≠ .ended (.ok ()))
    (reported : ∀ message, worker.status = .ended (.error message) → (change worker).status = worker.status) :
    Placed table (state.modifyWorker index change) where
  single := placed.single
  place := placed.place
  referenced {other result} located onTable notOk := by
    rcases workers_modifyWorker.mp located with ⟨_, stays⟩ | ⟨rfl, old, stays, rfl⟩
    · exact placed.referenced stays onTable notOk
    · obtain rfl := Option.some.inj (stays.symm.trans spawned)
      rcases placed.referenced stays (isTable.symm.trans onTable) (unfinished notOk) with
        stored | waits | flushing | ⟨⟨message, ended⟩, failed⟩
      · exact .inl stored
      · exact .inr (.inl waits)
      · exact .inr (.inr (.inl flushing))
      · exact .inr (.inr (.inr ⟨⟨message, (reported message ended).trans ended⟩, failed⟩))
  alone {one other first second} located onTable isRunning located' onTable' isRunning' := by
    have before : ∀ {place : Nat} {result : Worker Schema Row},
        (state.modifyWorker index change).workers[place]? = some result → result.table = table →
        result.status = .running → ∃ old : Worker Schema Row, state.workers[place]? = some old ∧ old.table = table ∧
          old.status = .running := by
      intro place result located onTable isRunning
      rcases workers_modifyWorker.mp located with ⟨_, stays⟩ | ⟨rfl, old, stays, rfl⟩
      · exact ⟨result, stays, onTable, isRunning⟩
      · obtain rfl := Option.some.inj (stays.symm.trans spawned)
        exact ⟨old, stays, isTable.symm.trans onTable, running isRunning⟩
    obtain ⟨_, was, wasTable, wasRunning⟩ := before located onTable isRunning
    obtain ⟨_, was', wasTable', wasRunning'⟩ := before located' onTable' isRunning'
    exact placed.alone was wasTable wasRunning was' wasTable' wasRunning'

theorem Placed.record (placed : Placed table state) {name : String} {write : Nat} {events : List (Event Row)} :
    Placed table (state.record name write events) :=
  ⟨placed.single, placed.place, placed.referenced, placed.alone⟩

/-- The flush takes a step. -/
theorem Placed.setFlush (placed : Placed table state) {streams : OrderedMap String (TableBulkIngestStream Schema)}
    {flush : FlushPhase} (quiet : ∀ task ∈ state.writes, task.phase.isFinished = true)
    (moved : ∀ {index : Nat} {worker : Worker Schema Row}, state.workers[index]? = some worker →
      worker.status ≠ .ended (.ok ()) → Referenced table state index worker →
      Referenced table { state with streams, flush } index worker) :
    Placed table { state with streams, flush } where
  single := placed.single
  place {write task} found isTable := by
    have finished := quiet task (List.mem_of_getElem? found)
    revert finished
    cases task.phase with
    | finished _ => exact fun _ => trivial
    | _ => exact fun finished => absurd finished (by simp [Phase.isFinished])
  referenced located onTable notOk := moved located notOk (placed.referenced located onTable notOk)
  alone := placed.alone

/-- The flush has awaited a worker. -/
theorem Placed.joinFlush (placed : Placed table state) {name : String} {index : Nat} {rest : List (String × Nat)}
    {firstErr error : Option String} {worker : Worker Schema Row}
    (quiet : ∀ task ∈ state.writes, task.phase.isFinished = true)
    (flushing : state.flush = .closing ((name, index) :: rest) firstErr)
    (spawned : state.workers[index]? = some worker)
    (status : worker.status = .ended (.ok ()) ∨
      (∃ message, worker.status = .ended (.error message)) ∧ error.isSome = true)
    (kept : firstErr.isSome = true → error.isSome = true) :
    Placed table { state.join index with flush := .closing rest error } := by
  have isFailed : ∀ streams error, (FlushPhase.closing streams error).failed = error.isSome := by
    intro streams error
    cases error <;> rfl
  have joined : Placed table (state.join index) := placed.frame sameView_join
  refine joined.setFlush quiet ?_
  rintro other result located notOk (stored | waits | ⟨streams, firstErr', same, member⟩ | ⟨ended, failed | failed⟩)
  · exact .inl stored
  · exact .inr (.inl waits)
  · obtain ⟨rfl, rfl⟩ := FlushPhase.closing.inj (flushing.symm.trans same)
    rcases List.mem_cons.mp member with rfl | later
    · rcases workers_modifyWorker.mp located with ⟨apart, _⟩ | ⟨_, old, before, rfl⟩
      · exact absurd rfl apart
      · obtain rfl := Option.some.inj (before.symm.trans spawned)
        rcases status with ok | ⟨ended, some⟩
        · exact absurd ok notOk
        · exact .inr (.inr (.inr ⟨ended, .inr ((isFailed _ _).trans some)⟩))
    · exact .inr (.inr (.inl ⟨rest, error, rfl, later⟩))
  · exact .inr (.inr (.inr ⟨ended, .inl failed⟩))
  · have before : firstErr.isSome = true := by
      rw [← isFailed, ← flushing]
      exact failed
    exact .inr (.inr (.inr ⟨ended, .inr ((isFailed _ _).trans (kept before))⟩))

/-- A write to the table is called when all earlier ones have returned. -/
def sequential (table : String) (state : State Schema Row) : Action Schema Row → Bool
  | .call call => call.table ≠ table ||
      state.writes.all fun task => task.call.table ≠ table || task.phase.isFinished
  | _ => true

theorem Placed.call (placed : Placed table state) {call : WriteCall Schema Row} (isOpen : state.flush.isOpen = true)
    (allowed : sequential table state (.call call) = true) :
    Placed table { state with writes := state.writes ++ [⟨call, .started⟩], flush := .idle } := by
  have returned : call.table = table → ∀ {write : Nat} {task : Task Schema Row}, state.writes[write]? = some task →
      task.call.table = table → task.phase.isFinished = true := by
    intro mine write task found isTable
    simp only [sequential, mine, ne_eq, not_true_eq_false, decide_false, Bool.false_or, List.all_eq_true] at allowed
    simpa [isTable] using allowed task (List.mem_of_getElem? found)
  refine ⟨?_, ?_, ?_, placed.alone⟩
  · intro write task found isTable active other result found' isTable' differs
    rcases getElem?_append_singleton_eq_some.mp found with stays | ⟨rfl, rfl⟩
    · rcases getElem?_append_singleton_eq_some.mp found' with stays' | ⟨_, rfl⟩
      · exact placed.single stays isTable active stays' isTable' differs
      · rw [returned isTable' stays isTable] at active
        cases active
    · rcases getElem?_append_singleton_eq_some.mp found' with stays' | ⟨rfl, _⟩
      · exact ⟨returned isTable stays' isTable', (List.getElem?_eq_some_iff.mp stays').1⟩
      · exact absurd rfl differs
  · intro write task found isTable
    rcases getElem?_append_singleton_eq_some.mp found with stays | ⟨_, rfl⟩
    · exact placed.place stays isTable
    · trivial
  · intro index worker located onTable notOk
    have earlier : ∀ {write : Nat} {task : Task Schema Row}, state.writes[write]? = some task →
        (state.writes ++ [⟨call, .started⟩])[write]? = some task :=
      fun found => getElem?_append_singleton_eq_some.mpr (.inl found)
    rcases placed.referenced located onTable notOk with
      stored | ⟨write, task, found, isTable, waits⟩ | ⟨_, _, flushing, _⟩ | ⟨ended, ⟨write, task, message, found, rest⟩ | failed⟩
    · exact .inl stored
    · exact .inr (.inl ⟨write, task, earlier found, isTable, waits⟩)
    · simp [flushing, FlushPhase.isOpen] at isOpen
    · exact .inr (.inr (.inr ⟨ended, .inl ⟨write, task, message, earlier found, rest⟩⟩))
    · rw [FlushPhase.failed_of_isOpen isOpen] at failed
      cases failed

theorem reuse_of_startPhase {call : WriteCall Schema Row} (performs : sink.startPhase call = .performing) :
    sink.reuseBulkIngestStreams = false := by
  unfold startPhase at performs
  split_ifs at performs with empty flushes streams
  · split at performs <;> cases performs
  · revert flushes streams
    unfold shouldFlush usesStream
    cases sink.reuseBulkIngestStreams with
    | false => exact fun _ _ => rfl
    | true =>
        cases call.op with
        | insert => simp
        | delete keyColumns => simp
        | update keyColumns =>
            cases sink.flushStreamBeforeUpsert <;> simp +contextual

/-- A write that starts to perform its own effects does so without any stream. -/
theorem startPhase_place {call : WriteCall Schema Row} (sound : Sound sink state) :
    (sink.startPhase call).Place (state.streams.get? table) := by
  have performs := @reuse_of_startPhase _ _ sink call
  unfold startPhase at performs ⊢
  split_ifs with empty flushes streams
  · trivial
  · trivial
  · split <;> trivial
  · refine (sound.reused (performs ?_)).2 table
    rw [if_neg empty, if_neg flushes, if_neg streams]

theorem afterEnding_place {subBatches : Option (List (RecordBatch Schema Row))}
    {stream : Option (TableBulkIngestStream Schema)} (absent : stream = none) :
    (Phase.afterEnding subBatches).Place stream := by
  cases subBatches <;> exact absent

/-- Every sequential step keeps the writes and workers of the table in their places. -/
theorem Placed.stepped (placed : Placed table state) (sound : Sound sink state) {action : Action Schema Row}
    (allowed : sequential table state action = true) (stepped : Stepped sink state action next) :
    Placed table next := by
  by_cases elsewhere : Elsewhere table state action
  · exact placed.frame (sound.sameView stepped elsewhere)
  have mine : ∀ {write : Nat} {task : Task Schema Row} {move : WriteMove Schema Row}, action = .write write move →
      state.writes[write]? = some task → task.call.table = table := by
    rintro write task move rfl found
    by_contra other
    refine elsewhere fun result located => ?_
    obtain rfl := Option.some.inj (located.symm.trans found)
    exact other
  cases stepped with
  | called isOpen => exact placed.call isOpen allowed
  | started found phase =>
      exact placed.move found (mine rfl found) (by simp [phase, Phase.isFinished]) (by simp [phase, Phase.awaits])
        (startPhase_place sound)
  | joined found phase stored =>
      rw [mine rfl found] at stored
      refine placed.move found (mine rfl found) (by simp [phase, Phase.isFinished]) (by simp [phase, Phase.awaits]) ?_
      rw [stored]
      rfl
  | missed found phase =>
      exact placed.move found (mine rfl found) (by simp [phase, Phase.isFinished]) (by simp [phase, Phase.awaits]) trivial
  | taken found phase stored =>
      have isTable := mine rfl found
      rw [isTable] at stored ⊢
      exact placed.take found isTable (by simp [phase, Phase.isFinished]) (by simp [phase, Phase.awaits]) stored rfl rfl
  | absent found phase stored =>
      rw [mine rfl found] at stored
      exact placed.move found (mine rfl found) (by simp [phase, Phase.isFinished]) (by simp [phase, Phase.awaits])
        (afterEnding_place stored)
  | takenFailing found phase stored =>
      have isTable := mine rfl found
      rw [isTable] at stored ⊢
      exact placed.take found isTable (by simp [phase, Phase.isFinished]) (by simp [phase, Phase.awaits]) stored rfl rfl
  | absentFailing found phase =>
      exact placed.move found (mine rfl found) (by simp [phase, Phase.isFinished]) (by simp [phase, Phase.awaits]) trivial
  | closed found phase spawned status =>
      have place := placed.place found (mine rfl found)
      rw [phase] at place
      exact placed.join found (mine rfl found) (by simp [phase, Phase.isFinished]) (by simp [phase, Phase.awaits]) spawned
        (.inl status) (afterEnding_place place)
  | closedFailed found phase spawned status =>
      exact placed.join found (mine rfl found) (by simp [phase, Phase.isFinished]) (by simp [phase, Phase.awaits]) spawned
        (.inr ⟨⟨_, status⟩, _, rfl⟩) trivial
  | @surfaced write own index task worker result message found phase spawned status =>
      refine placed.join found (mine rfl found) (by simp [phase, Phase.isFinished]) (by simp [phase, Phase.awaits]) spawned
        ?_ trivial
      cases result with
      | ok value => exact .inl status
      | error reason => exact .inr ⟨⟨reason, status⟩, _, rfl⟩
  | spawned found phase =>
      have isTable := mine rfl found
      have place := placed.place found isTable
      rw [phase] at place
      rw [isTable]
      exact placed.spawn found isTable (by simp [phase, Phase.isFinished]) (by simp [phase, Phase.awaits]) place
        (sound.idle found (by simp [phase, Phase.isFinished]))
  | @sent write index task batch rest worker found phase spawned status =>
      have place := placed.place found (mine rfl found)
      rw [phase] at place
      have pushed : Placed table (state.modifyWorker index fun worker =>
          { worker with queue := worker.queue ++ [(write, batch)] }) :=
        placed.modifyWorker spawned rfl id id fun _ _ => rfl
      refine pushed.move found (mine rfl found) (by simp [phase, Phase.isFinished]) (by simp [phase, Phase.awaits]) ?_
      split_ifs
      · trivial
      · exact place
  | unsent found phase =>
      have place := placed.place found (mine rfl found)
      rw [phase] at place
      exact placed.move found (mine rfl found) (by simp [phase, Phase.isFinished]) (by simp [phase, Phase.awaits]) place
  | performed found phase =>
      exact placed.record.move found (mine rfl found) (by simp [phase, Phase.isFinished]) (by simp [phase, Phase.awaits])
        trivial
  | received spawned status => exact placed.modifyWorker spawned rfl id id fun _ _ => rfl
  | applied spawned status =>
      apply Placed.record
      exact placed.modifyWorker spawned rfl id id fun _ _ => rfl
  | completed spawned status => exact placed.modifyWorker spawned rfl (by simp) (by simp) (by simp [status])
  | aborted spawned status => exact placed.modifyWorker spawned rfl (by simp) (by simp [status]) (by simp [status])
  | stopped spawned status => exact placed.modifyWorker spawned rfl (by simp) (by simp [status]) (by simp [status])
  | @drained order isOpen quiet reuse permuted =>
      refine placed.setFlush quiet ?_
      rintro index worker located notOk
        (⟨stream, stored, rfl⟩ | ⟨write, task, found, _, waits⟩ | ⟨_, _, flushing, _⟩ | ⟨ended, failed | failed⟩)
      · refine .inr (.inr (.inl ⟨order, none, rfl, List.mem_map.mpr ⟨(table, stream.worker), ?_, rfl⟩⟩))
        exact permuted.mem_iff.mpr (List.mem_map.mpr ⟨_, OrderedMap.get?_eq_some_iff.mp stored, rfl⟩)
      · simp [Phase.awaits_of_isFinished (quiet task (List.mem_of_getElem? found))] at waits
      · simp [flushing, FlushPhase.isOpen] at isOpen
      · exact .inr (.inr (.inr ⟨ended, .inl failed⟩))
      · simp [FlushPhase.failed_of_isOpen isOpen] at failed
  | undrained isOpen quiet reuse =>
      refine placed.setFlush quiet ?_
      rintro index worker located notOk (stored | waits | ⟨_, _, flushing, _⟩ | ⟨ended, failed | failed⟩)
      · exact .inl stored
      · exact .inr (.inl waits)
      · simp [flushing, FlushPhase.isOpen] at isOpen
      · exact .inr (.inr (.inr ⟨ended, .inl failed⟩))
      · simp [FlushPhase.failed_of_isOpen isOpen] at failed
  | returned flushing =>
      refine placed.setFlush (sound.quiet (by simp [flushing])).1 ?_
      rintro index worker located notOk (stored | waits | ⟨streams, firstErr, same, member⟩ | ⟨ended, failed | failed⟩)
      · exact .inl stored
      · exact .inr (.inl waits)
      · rw [flushing] at same
        obtain ⟨rfl, rfl⟩ := FlushPhase.closing.inj same
        cases member
      · exact .inr (.inr (.inr ⟨ended, .inl failed⟩))
      · simp [flushing, FlushPhase.failed] at failed
  | returnedFailed flushing =>
      refine placed.setFlush (sound.quiet (by simp [flushing])).1 ?_
      rintro index worker located notOk (stored | waits | ⟨streams, firstErr, same, member⟩ | ⟨ended, failed⟩)
      · exact .inl stored
      · exact .inr (.inl waits)
      · rw [flushing] at same
        obtain ⟨rfl, rfl⟩ := FlushPhase.closing.inj same
        cases member
      · exact .inr (.inr (.inr ⟨ended, .inr rfl⟩))
  | flushed flushing spawned status =>
      exact placed.joinFlush (sound.quiet (by simp [flushing])).1 flushing spawned (.inl status) id
  | flushedFailed flushing spawned status =>
      exact placed.joinFlush (sound.quiet (by simp [flushing])).1 flushing spawned (.inr ⟨⟨_, status⟩, rfl⟩) fun _ => rfl

end Placed

end Spicebench.Sink
