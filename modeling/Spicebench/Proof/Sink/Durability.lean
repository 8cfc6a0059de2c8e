import Spicebench.Proof.Sink.Streams

namespace Spicebench.Sink
open Library Etl AdbcSink

variable {Schema Row : Type} {sink : AdbcSink Schema Row} {state next : State Schema Row}

section Sent

variable {workers others : List (Worker Schema Row)} {write : Nat}

/-- The batches of a write that reached the channel of a worker. -/
def Worker.sentBy (worker : Worker Schema Row) (write : Nat) : List (RecordBatch Schema Row) :=
  ((worker.received ++ worker.queue).filter fun item => item.1 = write).map Prod.snd

def Unsent (workers : List (Worker Schema Row)) (write : Nat) : Prop := ∀ worker ∈ workers, worker.sentBy write = []

/-- Two lists of workers agree on what a write has sent. -/
structure SameSent (write : Nat) (workers others : List (Worker Schema Row)) : Prop where
  kept : ∀ {index : Nat} {worker : Worker Schema Row}, workers[index]? = some worker →
    ∃ other : Worker Schema Row, others[index]? = some other ∧ other.sentBy write = worker.sentBy write
  unsent : Unsent workers write → Unsent others write

theorem SameSent.refl (write : Nat) (workers : List (Worker Schema Row)) : SameSent write workers workers :=
  ⟨fun found => ⟨_, found, rfl⟩, id⟩

theorem SameSent.trans {middle : List (Worker Schema Row)} (first : SameSent write workers middle)
    (second : SameSent write middle others) : SameSent write workers others where
  kept found := by
    obtain ⟨worker, inMiddle, same⟩ := first.kept found
    obtain ⟨other, inOthers, again⟩ := second.kept inMiddle
    exact ⟨other, inOthers, again.trans same⟩
  unsent nothing := second.unsent (first.unsent nothing)

theorem sameSent_modify {index : Nat} {change : Worker Schema Row → Worker Schema Row}
    (same : ∀ worker, workers[index]? = some worker → (change worker).sentBy write = worker.sentBy write) :
    SameSent write workers (workers.modify index change) where
  kept {other worker} found := by
    by_cases here : other = index
    · subst here
      exact ⟨change worker, getElem?_modify_eq_some.mpr (.inr ⟨rfl, worker, found, rfl⟩), same worker found⟩
    · exact ⟨worker, getElem?_modify_eq_some.mpr (.inl ⟨here, found⟩), rfl⟩
  unsent nothing := by
    intro worker member
    obtain ⟨other, listed⟩ := List.mem_iff_getElem?.mp member
    rcases getElem?_modify_eq_some.mp listed with ⟨_, found⟩ | ⟨rfl, old, found, rfl⟩
    · exact nothing worker (List.mem_of_getElem? found)
    · rw [same old found]
      exact nothing old (List.mem_of_getElem? found)

theorem sameSent_spawned (table : String) : SameSent write workers (workers ++ [.spawned table]) where
  kept {index worker} found := ⟨worker, getElem?_append_singleton_eq_some.mpr (.inl found), rfl⟩
  unsent nothing := by
    intro worker member
    rcases List.mem_append.mp member with member | member
    · exact nothing worker member
    · rw [List.mem_singleton.mp member]
      rfl

/-- What the sink knows of a write that goes through a stream, phase by phase. -/
def Phase.Accounted (sink : AdbcSink Schema Row) (workers : List (Worker Schema Row)) (write : Nat)
    (call : WriteCall Schema Row) : Phase Schema Row → Prop
  | .started => Unsent workers write
  | .lookup subBatches => sink.splitInsertBatchForIngest call.batch = .ok subBatches ∧ Unsent workers write
  | .ending (some subBatches) => sink.splitInsertBatchForIngest call.batch = .ok subBatches ∧ Unsent workers write
  | .closing _ (some subBatches) => sink.splitInsertBatchForIngest call.batch = .ok subBatches ∧ Unsent workers write
  | .spawning subBatches => sink.splitInsertBatchForIngest call.batch = .ok subBatches ∧ Unsent workers write
  | .ending none => sink.usesStream call.op = false
  | .closing _ none => sink.usesStream call.op = false
  | .performing => sink.usesStream call.op = false
  | .sending index subBatches => ∃ worker : Worker Schema Row, workers[index]? = some worker ∧
      sink.splitInsertBatchForIngest call.batch = .ok (worker.sentBy write ++ subBatches)
  | .finished (.ok ()) => call.batch.numRows = 0 ∨ sink.usesStream call.op = false ∨
      ∃ (index : Nat) (worker : Worker Schema Row), workers[index]? = some worker ∧
        sink.splitInsertBatchForIngest call.batch = .ok (worker.sentBy write)
  | _ => True

theorem Phase.Accounted.frame {call : WriteCall Schema Row} {phase : Phase Schema Row}
    (accounted : phase.Accounted sink workers write call) (same : SameSent write workers others) :
    phase.Accounted sink others write call := by
  cases phase with
  | started => exact same.unsent accounted
  | lookup subBatches => exact ⟨accounted.1, same.unsent accounted.2⟩
  | ending subBatches =>
      cases subBatches with
      | none => exact accounted
      | some subBatches => exact ⟨accounted.1, same.unsent accounted.2⟩
  | closing index subBatches =>
      cases subBatches with
      | none => exact accounted
      | some subBatches => exact ⟨accounted.1, same.unsent accounted.2⟩
  | spawning subBatches => exact ⟨accounted.1, same.unsent accounted.2⟩
  | sending index subBatches =>
      obtain ⟨worker, found, split⟩ := accounted
      obtain ⟨other, stays, sent⟩ := same.kept found
      exact ⟨other, stays, by rw [sent, split]⟩
  | failing index => trivial
  | surfacing own removed => trivial
  | performing => exact accounted
  | finished result =>
      cases result with
      | error message => trivial
      | ok value =>
          rcases accounted with empty | direct | ⟨index, worker, found, split⟩
          · exact .inl empty
          · exact .inr (.inl direct)
          · obtain ⟨other, stays, sent⟩ := same.kept found
            exact .inr (.inr ⟨index, other, stays, by rw [sent, split]⟩)

end Sent

section Accounts

/-- All writes are accounted for, and those to come have sent nothing. -/
structure Accounts (sink : AdbcSink Schema Row) (state : State Schema Row) : Prop where
  accounted : ∀ {write : Nat} {task : Task Schema Row}, state.writes[write]? = some task →
    task.phase.Accounted sink state.workers write task.call
  future : ∀ write, state.writes.length ≤ write → Unsent state.workers write

/-- The workers may change as long as all others agree on what was sent. -/
theorem Accounts.setPhase (accounts : Accounts sink state) {base : State Schema Row} {write : Nat}
    {task : Task Schema Row} {phase : Phase Schema Row} (found : state.writes[write]? = some task)
    (writes : base.writes = state.writes) (same : ∀ other ≠ write, SameSent other state.workers base.workers)
    (own : phase.Accounted sink base.workers write task.call) : Accounts sink (base.setPhase write phase) where
  accounted {other result} found' := by
    rcases writes_setPhase.mp found' with ⟨differs, stays⟩ | ⟨rfl, old, here, rfl⟩
    · rw [writes] at stays
      exact (accounts.accounted stays).frame (same other differs)
    · rw [writes, found] at here
      obtain rfl := Option.some.inj here
      exact own
  future other beyond := by
    have inside := (List.getElem?_eq_some_iff.mp found).1
    simp only [State.setPhase, writes, List.length_modify] at beyond
    exact (same other (by omega)).unsent (accounts.future other beyond)

/-- A change of the workers that keeps what was sent keeps the accounts. -/
theorem Accounts.frame (accounts : Accounts sink state) (writes : next.writes = state.writes)
    (same : ∀ write, SameSent write state.workers next.workers) : Accounts sink next where
  accounted {write _} found := (accounts.accounted (writes ▸ found)).frame (same write)
  future write beyond := (same write).unsent (accounts.future write (writes ▸ beyond))

/-- Only the queues and the received batches say what was sent. -/
theorem sentBy_congr {worker other : Worker Schema Row} {write : Nat}
    (same : worker.received ++ worker.queue = other.received ++ other.queue) :
    worker.sentBy write = other.sentBy write := by
  simp only [Worker.sentBy, same]

theorem sentBy_queued {worker : Worker Schema Row} {write other : Nat} {batch : RecordBatch Schema Row} :
    ({ worker with queue := worker.queue ++ [(write, batch)] } : Worker Schema Row).sentBy other =
      worker.sentBy other ++ if write = other then [batch] else [] := by
  unfold Worker.sentBy
  rw [← List.append_assoc, List.filter_append, List.map_append]
  split_ifs with same
  · simp [same]
  · simp [same]

theorem sameSent_modifyWorker {index write : Nat} {change : Worker Schema Row → Worker Schema Row}
    (same : ∀ worker, (change worker).received ++ (change worker).queue = worker.received ++ worker.queue) :
    SameSent write state.workers (state.modifyWorker index change).workers :=
  sameSent_modify fun worker _ => sentBy_congr (same worker)

theorem sameSent_insertStream {table : String} {schema : Schema} {write : Nat} :
    SameSent write state.workers (state.insertStream table schema).workers := by
  unfold State.insertStream
  split
  · refine SameSent.trans ?_ (sameSent_spawned table)
    exact sameSent_modifyWorker fun _ => rfl
  · exact sameSent_spawned table

/-- The first phase of a write is accounted for. -/
theorem startPhase_accounted {workers : List (Worker Schema Row)} {write : Nat} {call : WriteCall Schema Row}
    (unsent : Unsent workers write) : (sink.startPhase call).Accounted sink workers write call := by
  unfold startPhase
  split_ifs with empty flushes streams
  · exact .inl empty
  · have direct : sink.usesStream call.op = false := by
      revert flushes
      unfold shouldFlush usesStream
      cases call.op <;> cases sink.reuseBulkIngestStreams <;> cases sink.flushStreamBeforeUpsert <;> simp
    exact direct
  · split
    · trivial
    · trivial
    · rename_i split
      exact ⟨split, unsent⟩
  · exact Bool.eq_false_iff.mpr streams

theorem afterEnding_accounted {workers : List (Worker Schema Row)} {write : Nat} {call : WriteCall Schema Row}
    {subBatches : Option (List (RecordBatch Schema Row))}
    (ending : (Phase.ending subBatches).Accounted sink workers write call) :
    (Phase.afterEnding subBatches).Accounted sink workers write call := by
  cases subBatches with
  | none => exact ending
  | some subBatches => exact ending

/-- Every step keeps the accounts. -/
theorem Accounts.stepped (accounts : Accounts sink state) {action : Action Schema Row}
    (stepped : Stepped sink state action next) : Accounts sink next := by
  have same : ∀ write, SameSent write state.workers state.workers := fun write => .refl write _
  have join : ∀ index write, SameSent write state.workers (state.join index).workers :=
    fun index write => sameSent_modifyWorker fun _ => rfl
  cases stepped with
  | @called call _ =>
      refine ⟨?_, ?_⟩
      · intro write task found
        rcases getElem?_append_singleton_eq_some.mp found with stays | ⟨rfl, rfl⟩
        · exact accounts.accounted stays
        · exact accounts.future _ le_rfl
      · intro write beyond
        exact accounts.future write (by simp at beyond; omega)
  | started found phase =>
      have own := accounts.accounted found
      rw [phase] at own
      exact accounts.setPhase found rfl (fun other _ => same other) (startPhase_accounted own)
  | @joined write _ subBatches stream worker found phase _ spawned =>
      have own := accounts.accounted found
      rw [phase] at own
      refine accounts.setPhase found rfl (fun other _ => same other) ⟨worker, spawned, ?_⟩
      rw [own.2 worker (List.mem_of_getElem? spawned), List.nil_append]
      exact own.1
  | missed found phase =>
      have own := accounts.accounted found
      rw [phase] at own
      exact accounts.setPhase found rfl (fun other _ => same other) own
  | @taken write _ subBatches stream found phase stored =>
      have own := accounts.accounted found
      rw [phase] at own
      refine accounts.setPhase found rfl (fun other _ => same other) ?_
      cases subBatches with
      | none => exact own
      | some subBatches => exact own
  | absent found phase =>
      have own := accounts.accounted found
      rw [phase] at own
      exact accounts.setPhase found rfl (fun other _ => same other) (afterEnding_accounted own)
  | takenFailing found phase => exact accounts.setPhase found rfl (fun other _ => same other) trivial
  | absentFailing found phase => exact accounts.setPhase found rfl (fun other _ => same other) trivial
  | @closed write index _ subBatches worker found phase spawned status =>
      have own := (accounts.accounted found).frame (join index write)
      rw [phase] at own
      refine accounts.setPhase found rfl (fun other _ => join index other) (afterEnding_accounted ?_)
      cases subBatches with
      | none => exact own
      | some subBatches => exact own
  | closedFailed found phase => exact accounts.setPhase found rfl (fun other _ => join _ other) trivial
  | surfaced found phase => exact accounts.setPhase found rfl (fun other _ => join _ other) trivial
  | @spawned write task schema subBatches found phase =>
      have own := accounts.accounted found
      rw [phase] at own
      exact accounts.setPhase found insertStream_writes (fun other _ => sameSent_insertStream)
        ⟨_, insertStream_spawned, own.1⟩
  | @sent write index task batch rest worker found phase spawned status =>
      have own := accounts.accounted found
      rw [phase] at own
      obtain ⟨worker', spawned', split⟩ := own
      obtain rfl := Option.some.inj (spawned'.symm.trans spawned)
      have pushed : (state.modifyWorker index fun worker =>
          { worker with queue := worker.queue ++ [(write, batch)] }).workers[index]? =
          some { worker' with queue := worker'.queue ++ [(write, batch)] } :=
        workers_modifyWorker.mpr (.inr ⟨rfl, worker', spawned, rfl⟩)
      refine accounts.setPhase found rfl ?_ ?_
      · intro other differs
        refine sameSent_modify fun worker _ => ?_
        rw [sentBy_queued, if_neg differs.symm, List.append_nil]
      · split_ifs with last
        · refine .inr (.inr ⟨index, _, pushed, ?_⟩)
          rw [sentBy_queued, if_pos rfl, split, last]
        · refine ⟨_, pushed, ?_⟩
          rw [sentBy_queued, if_pos rfl, split, List.append_assoc]
          rfl
  | unsent found phase => exact accounts.setPhase found rfl (fun other _ => same other) trivial
  | @performed write task around found phase =>
      have own := accounts.accounted found
      rw [phase] at own
      refine accounts.setPhase found rfl (fun other _ => same other) ?_
      cases (sink.perform around task.call).1 with
      | error message => trivial
      | ok value => exact .inr (.inl own)
  | @received index worker item rest spawned status queued =>
      refine accounts.frame rfl fun write => sameSent_modify ?_
      intro worker' spawned'
      obtain rfl := Option.some.inj (spawned'.symm.trans spawned)
      exact sentBy_congr (by simp [queued])
  | applied => exact accounts.frame rfl fun write => sameSent_modifyWorker fun _ => rfl
  | completed => exact accounts.frame rfl fun write => sameSent_modifyWorker fun _ => rfl
  | aborted => exact accounts.frame rfl fun write => sameSent_modifyWorker fun _ => rfl
  | stopped => exact accounts.frame rfl fun write => sameSent_modifyWorker fun _ => rfl
  | drained => exact accounts.frame rfl same
  | undrained => exact accounts.frame rfl same
  | returned => exact accounts.frame rfl same
  | returnedFailed => exact accounts.frame rfl same
  | flushed => exact accounts.frame rfl fun write => join _ write
  | flushedFailed => exact accounts.frame rfl fun write => join _ write

end Accounts

section Handles

/-- The worker whose end a write awaits. -/
def Phase.awaits : Phase Schema Row → Option Nat
  | .closing index _ => some index
  | .surfacing _ index => some index
  | _ => none

/-- The flush has met an error. -/
def FlushPhase.failed : FlushPhase → Bool
  | .closing _ (some _) => true
  | .returned (.error _) => true
  | _ => false

def WorkerStatus.failed : WorkerStatus → Bool
  | .stopping _ => true
  | .ended (.error _) => true
  | _ => false

/-- A worker is awaited while its handle is in the map, with a write or with the flush. -/
def State.Awaits (state : State Schema Row) (index : Nat) : Prop :=
  (∃ table stream, state.streams.get? table = some stream ∧ stream.worker = index) ∨
  (∃ (write : Nat) (task : Task Schema Row), state.writes[write]? = some task ∧ task.phase.awaits = some index) ∨
  ∃ streams firstErr, state.flush = .closing streams firstErr ∧ index ∈ streams.map Prod.snd

/-- A stream is only created when the map has none for its table, and no write awaits a worker that
failed. -/
def careful (state : State Schema Row) : Action Schema Row → Bool
  | .write write .spawn =>
      (state.writes[write]?).all fun task => (state.streams.get? task.call.table).isNone
  | .write write .await =>
      (state.writes[write]?).all fun task => task.phase.awaits.all fun index =>
        (state.workers[index]?).all fun worker => !worker.status.failed
  | _ => true

/-- No handle is dropped, and the workers that were awaited went through, unless the flush reports an
error. -/
structure Handled (sink : AdbcSink Schema Row) (state : State Schema Row) : Prop where
  held : ∀ {index : Nat} {worker : Worker Schema Row}, state.workers[index]? = some worker →
    worker.handle = .held → state.Awaits index
  kept : ∀ worker ∈ state.workers, worker.handle ≠ .dropped
  joined : ∀ worker ∈ state.workers, worker.handle = .joined →
    worker.status = .ended (.ok ()) ∨ state.flush.failed = true
  complete : ∀ worker ∈ state.workers, worker.status = .ended (.ok ()) → worker.queue = []
  quiet : sink.reuseBulkIngestStreams = true → state.flush ≠ .idle →
    (∀ task ∈ state.writes, task.phase.isFinished = true) ∧ ∀ table, state.streams.get? table = none

theorem State.Awaits.setPhase {index write : Nat} {task : Task Schema Row} {phase : Phase Schema Row}
    (awaits : state.Awaits index) (found : state.writes[write]? = some task)
    (moved : task.phase.awaits ≠ some index) : (state.setPhase write phase).Awaits index := by
  rcases awaits with stored | ⟨other, holder, isHolder, isAwaited⟩ | flushing
  · exact .inl stored
  · have differs : other ≠ write := by
      rintro rfl
      obtain rfl := Option.some.inj (isHolder.symm.trans found)
      exact moved isAwaited
    exact .inr (.inl ⟨other, holder, writes_setPhase.mpr (.inl ⟨differs, isHolder⟩), isAwaited⟩)
  · exact .inr (.inr flushing)

/-- Workers that keep their handles, and their queues when they went through, are still handled. -/
theorem Handled.modifyWorker (handled : Handled sink state) {index : Nat}
    {change : Worker Schema Row → Worker Schema Row} {worker : Worker Schema Row}
    (found : state.workers[index]? = some worker) (running : worker.status ≠ .ended (.ok ()))
    (handle : (change worker).handle = worker.handle)
    (queue : (change worker).status = .ended (.ok ()) → (change worker).queue = []) :
    Handled sink (state.modifyWorker index change) where
  held {other result} located isHeld := by
    rcases workers_modifyWorker.mp located with ⟨_, stays⟩ | ⟨rfl, old, stays, rfl⟩
    · exact handled.held stays isHeld
    · obtain rfl := Option.some.inj (stays.symm.trans found)
      exact handled.held found (handle ▸ isHeld)
  kept result member := by
    obtain ⟨other, located⟩ := List.mem_iff_getElem?.mp member
    rcases workers_modifyWorker.mp located with ⟨_, stays⟩ | ⟨rfl, old, stays, rfl⟩
    · exact handled.kept result (List.mem_of_getElem? stays)
    · obtain rfl := Option.some.inj (stays.symm.trans found)
      rw [handle]
      exact handled.kept old (List.mem_of_getElem? found)
  joined result member isJoined := by
    obtain ⟨other, located⟩ := List.mem_iff_getElem?.mp member
    rcases workers_modifyWorker.mp located with ⟨_, stays⟩ | ⟨rfl, old, stays, rfl⟩
    · exact handled.joined result (List.mem_of_getElem? stays) isJoined
    · obtain rfl := Option.some.inj (stays.symm.trans found)
      rw [handle] at isJoined
      exact .inr ((handled.joined old (List.mem_of_getElem? found) isJoined).resolve_left running)
  complete result member ended := by
    obtain ⟨other, located⟩ := List.mem_iff_getElem?.mp member
    rcases workers_modifyWorker.mp located with ⟨_, stays⟩ | ⟨rfl, old, stays, rfl⟩
    · exact handled.complete result (List.mem_of_getElem? stays) ended
    · obtain rfl := Option.some.inj (stays.symm.trans found)
      exact queue ended
  quiet := handled.quiet

/-- While a write is on its way, no flush is. -/
theorem Handled.idle (handled : Handled sink state) {write : Nat} {task : Task Schema Row}
    (found : state.writes[write]? = some task) (active : task.phase.isFinished = false)
    (reuse : sink.reuseBulkIngestStreams = true) : state.flush = .idle := by
  by_contra flushing
  have finished := (handled.quiet reuse flushing).1 task (List.mem_of_getElem? found)
  rw [active] at finished
  cases finished

theorem Handled.setPhase (handled : Handled sink state) {write : Nat} {task : Task Schema Row}
    {phase : Phase Schema Row} (found : state.writes[write]? = some task) (active : task.phase.isFinished = false)
    (free : task.phase.awaits = none) : Handled sink (state.setPhase write phase) where
  held located isHeld := (handled.held located isHeld).setPhase found (by simp [free])
  kept := handled.kept
  joined := handled.joined
  complete := handled.complete
  quiet reuse flushing := absurd (handled.idle found active reuse) flushing

/-- A write takes the stream of its table out of the map. -/
theorem Handled.take (handled : Handled sink state) {write : Nat} {task : Task Schema Row}
    {phase : Phase Schema Row} {stream : TableBulkIngestStream Schema} (found : state.writes[write]? = some task)
    (active : task.phase.isFinished = false) (free : task.phase.awaits = none)
    (stored : state.streams.get? task.call.table = some stream) (awaits : phase.awaits = some stream.worker) :
    Handled sink ((state.removeStream task.call.table).setPhase write phase) where
  held {index worker} located isHeld := by
    by_cases here : stream.worker = index
    · refine .inr (.inl ⟨write, { task with phase }, ?_, here ▸ awaits⟩)
      exact writes_setPhase.mpr (.inr ⟨rfl, task, found, rfl⟩)
    · have before : (state.removeStream task.call.table).Awaits index := by
        rcases handled.held located isHeld with ⟨table, other, isStored, rfl⟩ | others
        · have differs : table ≠ task.call.table := by
            rintro rfl
            exact here (congrArg _ (Option.some.inj (stored.symm.trans isStored)))
          refine .inl ⟨table, other, ?_, rfl⟩
          rw [State.removeStream, OrderedMap.get?_alter_ne _ differs]
          exact isStored
        · exact .inr others
      exact before.setPhase found (by simp [free])
  kept := handled.kept
  joined := handled.joined
  complete := handled.complete
  quiet reuse flushing := absurd (handled.idle found active reuse) flushing

/-- A worker that is awaited and went through is handled, whoever held its handle. -/
theorem Handled.join (handled : Handled sink state) {index : Nat} {worker : Worker Schema Row}
    {writes : List (Task Schema Row)}
    {flush : FlushPhase} (found : state.workers[index]? = some worker)
    (status : worker.status = .ended (.ok ()) ∨ flush.failed = true)
    (moved : ∀ other, other ≠ index → state.Awaits other →
      ({ state.join index with writes, flush } : State Schema Row).Awaits other)
    (failed : state.flush.failed = true → flush.failed = true)
    (quiet : sink.reuseBulkIngestStreams = true → flush ≠ .idle →
      (∀ task ∈ writes, task.phase.isFinished = true) ∧ ∀ table, state.streams.get? table = none) :
    Handled sink { state.join index with writes, flush } where
  held {other result} located isHeld := by
    rcases workers_modifyWorker.mp located with ⟨differs, stays⟩ | ⟨rfl, old, stays, rfl⟩
    · exact moved other differs (handled.held stays isHeld)
    · cases isHeld
  kept result member := by
    obtain ⟨other, located⟩ := List.mem_iff_getElem?.mp member
    rcases workers_modifyWorker.mp located with ⟨_, stays⟩ | ⟨rfl, old, stays, rfl⟩
    · exact handled.kept result (List.mem_of_getElem? stays)
    · simp
  joined result member isJoined := by
    obtain ⟨other, located⟩ := List.mem_iff_getElem?.mp member
    rcases workers_modifyWorker.mp located with ⟨_, stays⟩ | ⟨rfl, old, stays, rfl⟩
    · exact (handled.joined result (List.mem_of_getElem? stays) isJoined).imp_right failed
    · obtain rfl := Option.some.inj (stays.symm.trans found)
      exact status
  complete result member ended := by
    obtain ⟨other, located⟩ := List.mem_iff_getElem?.mp member
    rcases workers_modifyWorker.mp located with ⟨_, stays⟩ | ⟨rfl, old, stays, rfl⟩
    · exact handled.complete result (List.mem_of_getElem? stays) ended
    · exact handled.complete old (List.mem_of_getElem? stays) ended
  quiet := quiet

/-- A write has awaited a worker that went through. -/
theorem Handled.joinWrite (handled : Handled sink state) {write index : Nat} {task : Task Schema Row}
    {phase : Phase Schema Row} {worker : Worker Schema Row} (found : state.writes[write]? = some task)
    (active : task.phase.isFinished = false) (awaits : task.phase.awaits = some index)
    (spawned : state.workers[index]? = some worker) (status : worker.status = .ended (.ok ())) :
    Handled sink ((state.join index).setPhase write phase) := by
  refine handled.join spawned (.inl status) ?_ id ?_
  · intro other differs isAwaited
    have before : (state.join index).Awaits other := isAwaited
    exact before.setPhase found (by simpa [awaits] using differs.symm)
  · intro reuse flushing
    exact absurd (handled.idle found active reuse) flushing

/-- The flush has awaited a worker. -/
theorem Handled.joinFlush (handled : Handled sink state) {table : String} {index : Nat} {rest : List (String × Nat)}
    {firstErr error : Option String} {worker : Worker Schema Row}
    (flushing : state.flush = .closing ((table, index) :: rest) firstErr)
    (spawned : state.workers[index]? = some worker) (status : worker.status = .ended (.ok ()) ∨ error.isSome)
    (kept : firstErr.isSome → error.isSome) :
    Handled sink { state.join index with flush := .closing rest error } := by
  have isFailed : ∀ streams error, (FlushPhase.closing streams error).failed = error.isSome := by
    intro streams error
    cases error <;> rfl
  refine handled.join spawned ?_ ?_ ?_ ?_
  · rw [isFailed]
    exact status
  · intro other differs isAwaited
    rcases isAwaited with stored | waits | ⟨streams, firstErr', same, member⟩
    · exact .inl stored
    · exact .inr (.inl waits)
    · rw [flushing] at same
      obtain ⟨rfl, rfl⟩ := FlushPhase.closing.inj same
      refine .inr (.inr ⟨rest, error, rfl, ?_⟩)
      exact (List.mem_cons.mp member).resolve_left differs
  · rw [flushing, isFailed, isFailed]
    exact kept
  · intro reuse _
    exact handled.quiet reuse (by simp [flushing])

/-- A stream is created where the map has none. -/
theorem Handled.spawn (handled : Handled sink state) {write : Nat} {task : Task Schema Row} {schema : Schema}
    {phase : Phase Schema Row} (found : state.writes[write]? = some task) (active : task.phase.isFinished = false)
    (free : task.phase.awaits = none) (absent : state.streams.get? task.call.table = none) :
    Handled sink ((state.insertStream task.call.table schema).setPhase write phase) := by
  rw [insertStream_of_absent absent]
  refine ⟨?_, ?_, ?_, ?_, ?_⟩
  · intro index worker located isHeld
    refine @State.Awaits.setPhase _ _ _ index write task phase ?_ found (by simp [free])
    rcases getElem?_append_singleton_eq_some.mp located with stays | ⟨rfl, _⟩
    · rcases handled.held stays isHeld with ⟨table, stream, isStored, rfl⟩ | others
      · have differs : table ≠ task.call.table := by
          rintro rfl
          rw [absent] at isStored
          cases isStored
        exact .inl ⟨table, stream, (OrderedMap.get?_alter_ne _ differs _).trans isStored, rfl⟩
      · exact .inr others
    · exact .inl ⟨task.call.table, ⟨schema, state.workers.length⟩, OrderedMap.get?_alter_self _ _ _, rfl⟩
  · intro worker member
    rcases List.mem_append.mp member with member | member
    · exact handled.kept worker member
    · rw [List.mem_singleton.mp member]
      simp [Worker.spawned]
  · intro worker member isJoined
    rcases List.mem_append.mp member with member | member
    · exact handled.joined worker member isJoined
    · rw [List.mem_singleton.mp member] at isJoined
      cases isJoined
  · intro worker member ended
    rcases List.mem_append.mp member with member | member
    · exact handled.complete worker member ended
    · rw [List.mem_singleton.mp member]
      rfl
  · intro reuse flushing
    exact absurd (handled.idle found active reuse) flushing

theorem FlushPhase.failed_of_isOpen {flush : FlushPhase} (isOpen : flush.isOpen = true) : flush.failed = false := by
  cases flush with
  | idle => rfl
  | closing streams firstErr => cases isOpen
  | returned result =>
      cases result with
      | ok value => rfl
      | error message => cases isOpen

theorem Phase.awaits_of_isFinished {phase : Phase Schema Row} (finished : phase.isFinished = true) :
    phase.awaits = none := by
  cases phase with
  | finished result => rfl
  | _ => cases finished

/-- What happened on the target does not matter for the handles. -/
theorem Handled.record (handled : Handled sink state) {table : String} {write : Nat} {events : List (Event Row)} :
    Handled sink (state.record table write events) :=
  ⟨handled.held, handled.kept, handled.joined, handled.complete, handled.quiet⟩

/-- The flush may take over the streams. -/
theorem Handled.setFlush (handled : Handled sink state)
    {streams : OrderedMap String (TableBulkIngestStream Schema)} {flush : FlushPhase}
    (moved : ∀ index, state.Awaits index → ({ state with streams, flush } : State Schema Row).Awaits index)
    (failed : state.flush.failed = true → flush.failed = true)
    (quiet : sink.reuseBulkIngestStreams = true → flush ≠ .idle →
      (∀ task ∈ state.writes, task.phase.isFinished = true) ∧ ∀ table, streams.get? table = none) :
    Handled sink { state with streams, flush } :=
  ⟨fun located isHeld => moved _ (handled.held located isHeld), handled.kept,
    fun worker member isJoined => (handled.joined worker member isJoined).imp_right failed, handled.complete, quiet⟩

theorem State.Awaits.returned {index : Nat} {firstErr : Option String} {result : Except String Unit}
    (awaits : state.Awaits index) (flushing : state.flush = .closing [] firstErr) :
    ({ state with flush := .returned result } : State Schema Row).Awaits index := by
  rcases awaits with stored | waits | ⟨streams, firstErr', same, member⟩
  · exact .inl stored
  · exact .inr (.inl waits)
  · rw [flushing] at same
    obtain ⟨rfl, rfl⟩ := FlushPhase.closing.inj same
    cases member

/-- Every careful step keeps the handles. -/
theorem Handled.stepped (handled : Handled sink state) {action : Action Schema Row}
    (allowed : careful state action = true) (stepped : Stepped sink state action next) : Handled sink next := by
  cases stepped with
  | @called call isOpen =>
      have sound := FlushPhase.failed_of_isOpen isOpen
      refine ⟨?_, handled.kept, ?_, handled.complete, ?_⟩
      · intro index worker located isHeld
        rcases handled.held located isHeld with stored | ⟨write, task, found, waits⟩ | ⟨streams, firstErr, flushing, _⟩
        · exact .inl stored
        · exact .inr (.inl ⟨write, task, getElem?_append_singleton_eq_some.mpr (.inl found), waits⟩)
        · simp [flushing, FlushPhase.isOpen] at isOpen
      · intro worker member isJoined
        left
        simpa [sound] using handled.joined worker member isJoined
      · intro _ flushing
        exact absurd rfl flushing
  | started found phase => exact handled.setPhase found (by simp [phase, Phase.isFinished]) (by simp [phase, Phase.awaits])
  | joined found phase => exact handled.setPhase found (by simp [phase, Phase.isFinished]) (by simp [phase, Phase.awaits])
  | missed found phase => exact handled.setPhase found (by simp [phase, Phase.isFinished]) (by simp [phase, Phase.awaits])
  | taken found phase stored =>
      exact handled.take found (by simp [phase, Phase.isFinished]) (by simp [phase, Phase.awaits]) stored rfl
  | absent found phase => exact handled.setPhase found (by simp [phase, Phase.isFinished]) (by simp [phase, Phase.awaits])
  | takenFailing found phase stored =>
      exact handled.take found (by simp [phase, Phase.isFinished]) (by simp [phase, Phase.awaits]) stored rfl
  | absentFailing found phase =>
      exact handled.setPhase found (by simp [phase, Phase.isFinished]) (by simp [phase, Phase.awaits])
  | closed found phase spawned status =>
      exact handled.joinWrite found (by simp [phase, Phase.isFinished]) (by simp [phase, Phase.awaits]) spawned status
  | closedFailed found phase spawned status =>
      simp [careful, found, phase, Phase.awaits, spawned, status, WorkerStatus.failed] at allowed
  | @surfaced write own index task worker result message found phase spawned status =>
      cases result with
      | error _ => simp [careful, found, phase, Phase.awaits, spawned, status, WorkerStatus.failed] at allowed
      | ok value =>
          exact handled.joinWrite found (by simp [phase, Phase.isFinished]) (by simp [phase, Phase.awaits]) spawned status
  | spawned found phase =>
      refine handled.spawn found (by simp [phase, Phase.isFinished]) (by simp [phase, Phase.awaits]) ?_
      simpa [careful, found] using allowed
  | @sent write index task batch rest worker found phase spawned status =>
      have pushed : Handled sink (state.modifyWorker index fun worker =>
          { worker with queue := worker.queue ++ [(write, batch)] }) :=
        handled.modifyWorker spawned (by simp [status]) rfl (by simp [status])
      exact pushed.setPhase found (by simp [phase, Phase.isFinished]) (by simp [phase, Phase.awaits])
  | unsent found phase => exact handled.setPhase found (by simp [phase, Phase.isFinished]) (by simp [phase, Phase.awaits])
  | performed found phase =>
      exact handled.record.setPhase found (by simp [phase, Phase.isFinished]) (by simp [phase, Phase.awaits])
  | received spawned status => exact handled.modifyWorker spawned (by simp [status]) rfl (by simp [status])
  | applied spawned status =>
      apply Handled.record
      exact handled.modifyWorker spawned (by simp [status]) rfl (by simp [status])
  | completed spawned status queue =>
      exact handled.modifyWorker spawned (by simp [status]) rfl (fun _ => queue)
  | aborted spawned status => exact handled.modifyWorker spawned (by simp [status]) rfl (by simp)
  | stopped spawned status => exact handled.modifyWorker spawned (by simp [status]) rfl (by simp)
  | @drained order isOpen quiet reuse permuted =>
      refine handled.setFlush ?_ ?_ fun _ _ => ⟨quiet, fun _ => rfl⟩
      · rintro index (⟨table, stream, stored, rfl⟩ | ⟨write, task, found, waits⟩ | ⟨streams, firstErr, flushing, _⟩)
        · refine .inr (.inr ⟨order, none, rfl, List.mem_map.mpr ⟨(table, stream.worker), ?_, rfl⟩⟩)
          exact permuted.mem_iff.mpr (List.mem_map.mpr ⟨_, OrderedMap.get?_eq_some_iff.mp stored, rfl⟩)
        · exact absurd waits (Phase.awaits_of_isFinished (quiet task (List.mem_of_getElem? found)) ▸ by simp)
        · simp [flushing, FlushPhase.isOpen] at isOpen
      · simp [FlushPhase.failed_of_isOpen isOpen]
  | undrained isOpen quiet reuse =>
      refine handled.setFlush ?_ ?_ ?_
      · rintro index (stored | waits | ⟨streams, firstErr, flushing, _⟩)
        · exact .inl stored
        · exact .inr (.inl waits)
        · simp [flushing, FlushPhase.isOpen] at isOpen
      · simp [FlushPhase.failed_of_isOpen isOpen]
      · intro isReuse
        rw [reuse] at isReuse
        cases isReuse
  | returned flushing =>
      refine handled.setFlush ?_ ?_ fun reuse _ => handled.quiet reuse (by simp [flushing])
      · exact fun index awaits => awaits.returned flushing
      · simp [flushing, FlushPhase.failed]
  | returnedFailed flushing =>
      refine handled.setFlush ?_ ?_ fun reuse _ => handled.quiet reuse (by simp [flushing])
      · exact fun index awaits => awaits.returned flushing
      · simp [FlushPhase.failed]
  | flushed flushing spawned status => exact handled.joinFlush flushing spawned (.inl status) id
  | flushedFailed flushing spawned status => exact handled.joinFlush flushing spawned (.inr rfl) fun _ => rfl

theorem initial_accounts : Accounts sink .initial where
  accounted found := by simp [State.initial] at found
  future write _ := by simp [State.initial, Unsent]

theorem initial_handled : Handled sink .initial where
  held located := by simp [State.initial] at located
  kept worker member := by simp [State.initial] at member
  joined worker member := by simp [State.initial] at member
  complete worker member := by simp [State.initial] at member
  quiet _ flushing := absurd rfl flushing

end Handles

section Flush

/-- The batches of a write that a worker has received. -/
def Worker.receivedFrom (worker : Worker Schema Row) (write : Nat) : List (RecordBatch Schema Row) :=
  (worker.received.filter fun item => item.1 = write).map Prod.snd

/-- After a flush that went through, all workers were awaited and ended without an error. -/
theorem Handled.all_joined (handled : Handled sink state) (reuse : sink.reuseBulkIngestStreams = true)
    (flushed : state.flush = .returned (.ok ())) {worker : Worker Schema Row} (member : worker ∈ state.workers) :
    worker.handle = .joined ∧ worker.status = .ended (.ok ()) := by
  obtain ⟨finished, empty⟩ := handled.quiet reuse (by simp [flushed])
  obtain ⟨index, located⟩ := List.mem_iff_getElem?.mp member
  have joined : worker.handle = .joined := by
    cases handle : worker.handle with
    | joined => rfl
    | dropped => exact absurd handle (handled.kept worker member)
    | held =>
        rcases handled.held located handle with
          ⟨table, stream, stored, _⟩ | ⟨write, task, found, waits⟩ | ⟨_, _, flushing, _⟩
        · simp [empty] at stored
        · simp [Phase.awaits_of_isFinished (finished task (List.mem_of_getElem? found))] at waits
        · simp [flushed] at flushing
  exact ⟨joined, (handled.joined worker member joined).resolve_right (by simp [flushed, FlushPhase.failed])⟩

variable [DecidableEq Schema]

theorem invariants_of_reaches (reached : sink.machine.ReachesWhen careful .initial state) :
    Accounts sink state ∧ Handled sink state := by
  refine reached.invariant (fun state => Accounts sink state ∧ Handled sink state) ?_
    ⟨initial_accounts, initial_handled⟩
  rintro state next ⟨accounts, handled⟩ ⟨action, _, allowed, stepped⟩
  have described := stepped_of_step stepped
  exact ⟨accounts.stepped described, handled.stepped allowed described⟩

/-- In every run in which no stream is created over another one and no write awaits a worker that
failed, a flush that goes through has awaited a worker without an error for each batch whose write
went through, and no handle was dropped. -/
theorem flush_durable (sink : AdbcSink Schema Row) {state : State Schema Row}
    (reached : sink.machine.ReachesWhen careful .initial state) (flushed : state.flush = .returned (.ok ())) :
    (∀ worker ∈ state.workers, worker.handle ≠ .dropped) ∧
    ∀ (write : Nat) (task : Task Schema Row), state.writes[write]? = some task →
      sink.usesStream task.call.op = true → task.phase = .finished (.ok ()) → task.call.batch.numRows ≠ 0 →
      ∃ worker ∈ state.workers, worker.handle = .joined ∧ worker.status = .ended (.ok ()) ∧
        (worker.receivedFrom write).flatMap (·.rows) = task.call.batch.rows := by
  obtain ⟨accounts, handled⟩ := invariants_of_reaches reached
  refine ⟨handled.kept, ?_⟩
  intro write task found streams phase rows
  have reuse : sink.reuseBulkIngestStreams = true := by
    simp only [usesStream, Bool.and_eq_true] at streams
    exact streams.1
  have own := accounts.accounted found
  rw [phase] at own
  rcases own with empty | direct | ⟨index, worker, located, split⟩
  · exact absurd empty rows
  · rw [streams] at direct
    cases direct
  · have member := List.mem_of_getElem? located
    obtain ⟨joined, ended⟩ := handled.all_joined reuse flushed member
    refine ⟨worker, member, joined, ended, ?_⟩
    have sent : worker.sentBy write = worker.receivedFrom write := by
      simp [Worker.sentBy, Worker.receivedFrom, handled.complete worker member ended]
    rw [← sent]
    exact splitInsertBatchForIngest_rows split

/-- The sample has small batches, and channels with room for one batch. -/
def sampleSink : AdbcSink Unit Nat where
  target := ⟨none, none, 1024⟩
  sizes := ⟨fun _ => 0, fun _ => .ok 0⟩
  updateStrategy := .statement
  reuseBulkIngestStreams := true
  flushStreamBeforeUpsert := false
  bulkIngestStreamBuffer := 1
  stagingAdapter := false
  deleteSqlStatements := fun table _ _ => .ok ["DELETE FROM " ++ table]
  updateSqlStatements := fun table _ _ => .ok ["UPDATE " ++ table]
  stagingMergeSql := fun _ _ _ _ => .error "Update requires at least one key column"

def sampleInsert (table : String) (rows : List Nat) : WriteCall Unit Nat := ⟨table, ⟨(), rows⟩, .insert, 0⟩

/-- The second write uses the stream of the first one. -/
def carefulRun : List (Action Unit Nat) :=
  [.call (sampleInsert "orders" [1, 2]), .call (sampleInsert "orders" [3]),
   .write 0 .start, .write 0 .lookUp, .write 0 .remove, .write 0 .spawn, .write 0 .send,
   .write 1 .start, .write 1 .lookUp, .worker 0 .receive, .write 1 .send,
   .drain [("orders", 0)], .worker 0 .receive, .worker 0 .apply, .worker 0 .apply, .worker 0 .complete,
   .awaitFlush, .awaitFlush]

/-- Both writes find no stream, and the stream of the second one takes the place of the first. -/
def racingRun : List (Action Unit Nat) :=
  [.call (sampleInsert "orders" [1, 2]), .call (sampleInsert "orders" [3]),
   .write 0 .start, .write 0 .lookUp, .write 1 .start, .write 1 .lookUp, .write 0 .remove, .write 1 .remove,
   .write 0 .spawn, .write 1 .spawn, .write 0 .send, .write 1 .send,
   .worker 1 .receive, .worker 1 .apply,
   .drain [("orders", 1)], .worker 1 .complete, .awaitFlush, .awaitFlush]

/-- This reads off a state whether its flush went through, which rows were written without an error,
what became of the handles, and how many batches each worker received from the first write. -/
def summary (state : State Unit Nat) : Bool × List (Option (List Nat)) × List (Handle × Nat) :=
  (match state.flush with
    | .returned (.ok ()) => true
    | _ => false,
   state.writes.map fun task => match task.phase with
    | .finished (.ok ()) => some task.call.batch.rows
    | _ => none,
   state.workers.map fun worker => (worker.handle, (worker.receivedFrom 0).length))

theorem flushed_of_summary {others : List (Option (List Nat)) × List (Handle × Nat)} {state : State Unit Nat}
    (isSummary : summary state = (true, others)) : state.flush = .returned (.ok ()) := by
  have first := congrArg Prod.fst isSummary
  simp only [summary] at first
  split at first
  · assumption
  · cases first

theorem flush_durable_sample : ∃ state, sampleSink.machine.ReachesWhen careful .initial state ∧
    state.flush = .returned (.ok ()) ∧ (∀ worker ∈ state.workers, worker.handle ≠ .dropped) ∧
    ∀ (write : Nat) (task : Task Unit Nat), state.writes[write]? = some task →
      sampleSink.usesStream task.call.op = true → task.phase = .finished (.ok ()) → task.call.batch.numRows ≠ 0 →
      ∃ worker ∈ state.workers, worker.handle = .joined ∧ worker.status = .ended (.ok ()) ∧
        (worker.receivedFrom write).flatMap (·.rows) = task.call.batch.rows := by
  have ran : (sampleSink.machine.runWhen careful .initial carefulRun).map summary =
      some (true, [some [1, 2], some [3]], [(.joined, 1)]) := by decide
  obtain ⟨state, isState, isSummary⟩ := Option.map_eq_some_iff.mp ran
  have reached := sampleSink.machine.reachesWhen_of_runWhen (fun _ _ => trivial) isState
  have flushed := flushed_of_summary isSummary
  exact ⟨state, reached, flushed, flush_durable sampleSink reached flushed⟩

/-- The batch of the first write is lost in a stream that was replaced. -/
theorem racing_streams_lose_batch : ∃ state, sampleSink.machine.Reaches .initial state ∧
    state.flush = .returned (.ok ()) ∧
    (∃ task, state.writes[0]? = some task ∧ task.phase = .finished (.ok ()) ∧ task.call.batch.rows = [1, 2]) ∧
    (∀ worker ∈ state.workers, worker.receivedFrom 0 = []) ∧ ∃ worker ∈ state.workers, worker.handle = .dropped := by
  have ran : (sampleSink.machine.run .initial racingRun).map summary =
      some (true, [some [1, 2], some [3]], [(.dropped, 0), (.joined, 0)]) := by decide
  obtain ⟨state, isState, isSummary⟩ := Option.map_eq_some_iff.mp ran
  have reached := sampleSink.machine.reaches_of_run (fun _ _ => trivial) isState
  have writes := congrArg (fun whole => whole.2.1) isSummary
  have workers := congrArg (fun whole => whole.2.2) isSummary
  simp only [summary] at writes workers
  obtain ⟨task, _, isTask, finished, _⟩ := List.map_eq_cons_iff.mp writes
  obtain ⟨replaced, _, isReplaced, dropped, later⟩ := List.map_eq_cons_iff.mp workers
  obtain ⟨joined, _, rfl, ended, none⟩ := List.map_eq_cons_iff.mp later
  obtain rfl := List.map_eq_nil_iff.mp none
  refine ⟨state, reached, flushed_of_summary isSummary, ⟨task, by simp [isTask], ?_⟩, ?_, ?_⟩
  · split at finished
    · rename_i phase
      exact ⟨phase, Option.some.inj finished⟩
    · cases finished
  · have first := congrArg Prod.snd dropped
    have second := congrArg Prod.snd ended
    rw [isReplaced]
    simpa using ⟨List.length_eq_zero_iff.mp first, List.length_eq_zero_iff.mp second⟩
  · exact ⟨replaced, by simp [isReplaced], congrArg Prod.fst dropped⟩

end Flush

end Spicebench.Sink
