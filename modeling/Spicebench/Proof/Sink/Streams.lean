import Spicebench.Construction.Sink.Streams
import Spicebench.Proof.Sink.Ingest

namespace Spicebench.Sink
open Library Etl AdbcSink

variable {Schema Row : Type} {sink : AdbcSink Schema Row} {state next : State Schema Row}

section Updates

theorem getElem?_modify_eq_some {Item : Type} {items : List Item} {change : Item → Item} {index other : Nat} {item : Item} :
    (items.modify index change)[other]? = some item ↔
      (other ≠ index ∧ items[other]? = some item) ∨
      (other = index ∧ ∃ old, items[index]? = some old ∧ change old = item) := by
  rw [List.getElem?_modify]
  by_cases same : index = other
  · subst same
    simp
  · simp [same, Ne.symm same]

theorem getElem?_append_singleton_eq_some {Item : Type} {items : List Item} {last : Item} {index : Nat} {item : Item} :
    (items ++ [last])[index]? = some item ↔ items[index]? = some item ∨ (index = items.length ∧ last = item) := by
  rw [List.getElem?_append]
  split_ifs with inside
  · constructor
    · exact .inl
    · rintro (found | ⟨rfl, _⟩)
      · exact found
      · exact absurd inside (lt_irrefl _)
  · rw [List.getElem?_eq_none (Nat.le_of_not_lt inside)]
    by_cases here : index = items.length
    · subst here
      simp
    · have beyond : ¬ index - items.length = 0 := by omega
      simp [here, beyond]

/-- A write in a state after a change of phase is the changed one, or another one. -/
theorem writes_setPhase {write other : Nat} {phase : Phase Schema Row} {task : Task Schema Row} :
    (state.setPhase write phase).writes[other]? = some task ↔
      (other ≠ write ∧ state.writes[other]? = some task) ∨
      (other = write ∧ ∃ old, state.writes[write]? = some old ∧ { old with phase } = task) :=
  getElem?_modify_eq_some

theorem workers_modifyWorker {index other : Nat} {change : Worker Schema Row → Worker Schema Row}
    {worker : Worker Schema Row} :
    (state.modifyWorker index change).workers[other]? = some worker ↔
      (other ≠ index ∧ state.workers[other]? = some worker) ∨
      (other = index ∧ ∃ old, state.workers[index]? = some old ∧ change old = worker) :=
  getElem?_modify_eq_some

theorem insertStream_writes {table : String} {schema : Schema} :
    (state.insertStream table schema).writes = state.writes := by
  unfold State.insertStream
  split <;> rfl

/-- The new worker comes last. -/
theorem insertStream_spawned {table : String} {schema : Schema} :
    (state.insertStream table schema).workers[state.workers.length]? = some (.spawned table) := by
  unfold State.insertStream
  split
  · exact getElem?_append_singleton_eq_some.mpr (.inr ⟨by simp [State.modifyWorker], rfl⟩)
  · exact getElem?_append_singleton_eq_some.mpr (.inr ⟨rfl, rfl⟩)

/-- Without a stream in its place, a new one is just added. -/
theorem insertStream_of_absent {table : String} {schema : Schema} (absent : state.streams.get? table = none) :
    state.insertStream table schema =
      { state with
        workers := state.workers ++ [.spawned table]
        streams := state.streams.alter table fun _ => some ⟨schema, state.workers.length⟩ } := by
  simp only [State.insertStream, absent]

end Updates

/-- The batches that are sent have the rows of the batch that was written. -/
theorem splitInsertBatchForIngest_rows {batch : RecordBatch Schema Row} {subBatches : List (RecordBatch Schema Row)}
    (split : sink.splitInsertBatchForIngest batch = .ok subBatches) : subBatches.flatMap (·.rows) = batch.rows := by
  unfold splitInsertBatchForIngest at split
  dsimp only at split
  split_ifs at split
  · obtain rfl := Except.ok.inj split
    simp
  · exact splitForSize_rows split
  · split at split
    · cases split
    · split_ifs at split
      · obtain rfl := Except.ok.inj split
        simp
      · exact splitForSize_rows split

/-- This says all that a step can do. -/
inductive Stepped (sink : AdbcSink Schema Row) (state : State Schema Row) :
    Action Schema Row → State Schema Row → Prop
  | called {call : WriteCall Schema Row} (isOpen : state.flush.isOpen = true) :
      Stepped sink state (.call call) { state with writes := state.writes ++ [⟨call, .started⟩], flush := .idle }
  | started {write : Nat} {task : Task Schema Row} (found : state.writes[write]? = some task)
      (phase : task.phase = .started) :
      Stepped sink state (.write write .start) (state.setPhase write (sink.startPhase task.call))
  | joined {write : Nat} {task : Task Schema Row} {subBatches : List (RecordBatch Schema Row)}
      {stream : TableBulkIngestStream Schema} {worker : Worker Schema Row}
      (found : state.writes[write]? = some task) (phase : task.phase = .lookup subBatches)
      (stored : state.streams.get? task.call.table = some stream)
      (spawned : state.workers[stream.worker]? = some worker) (schema : subBatches.head?.map (·.schema) = some stream.schema)
      (unfinished : worker.isFinished = false) :
      Stepped sink state (.write write .lookUp) (state.setPhase write (.sending stream.worker subBatches))
  | missed {write : Nat} {task : Task Schema Row} {subBatches : List (RecordBatch Schema Row)}
      (found : state.writes[write]? = some task) (phase : task.phase = .lookup subBatches) :
      Stepped sink state (.write write .lookUp) (state.setPhase write (.ending (some subBatches)))
  | taken {write : Nat} {task : Task Schema Row} {subBatches : Option (List (RecordBatch Schema Row))}
      {stream : TableBulkIngestStream Schema}
      (found : state.writes[write]? = some task) (phase : task.phase = .ending subBatches)
      (stored : state.streams.get? task.call.table = some stream) :
      Stepped sink state (.write write .remove)
        ((state.removeStream task.call.table).setPhase write (.closing stream.worker subBatches))
  | absent {write : Nat} {task : Task Schema Row} {subBatches : Option (List (RecordBatch Schema Row))}
      (found : state.writes[write]? = some task) (phase : task.phase = .ending subBatches)
      (stored : state.streams.get? task.call.table = none) :
      Stepped sink state (.write write .remove) (state.setPhase write (.afterEnding subBatches))
  | takenFailing {write own : Nat} {task : Task Schema Row} {stream : TableBulkIngestStream Schema}
      (found : state.writes[write]? = some task) (phase : task.phase = .failing own)
      (stored : state.streams.get? task.call.table = some stream) :
      Stepped sink state (.write write .remove)
        ((state.removeStream task.call.table).setPhase write (.surfacing own stream.worker))
  | absentFailing {write own : Nat} {task : Task Schema Row} {message : String}
      (found : state.writes[write]? = some task) (phase : task.phase = .failing own)
      (stored : state.streams.get? task.call.table = none) :
      Stepped sink state (.write write .remove) (state.setPhase write (.finished (.error message)))
  | closed {write index : Nat} {task : Task Schema Row} {subBatches : Option (List (RecordBatch Schema Row))}
      {worker : Worker Schema Row} (found : state.writes[write]? = some task)
      (phase : task.phase = .closing index subBatches) (spawned : state.workers[index]? = some worker)
      (status : worker.status = .ended (.ok ())) :
      Stepped sink state (.write write .await) ((state.join index).setPhase write (.afterEnding subBatches))
  | closedFailed {write index : Nat} {task : Task Schema Row} {subBatches : Option (List (RecordBatch Schema Row))}
      {worker : Worker Schema Row} {message : String} (found : state.writes[write]? = some task)
      (phase : task.phase = .closing index subBatches) (spawned : state.workers[index]? = some worker)
      (status : worker.status = .ended (.error message)) :
      Stepped sink state (.write write .await) ((state.join index).setPhase write (.finished (.error message)))
  | surfaced {write own index : Nat} {task : Task Schema Row} {worker : Worker Schema Row}
      {result : Except String Unit} {message : String} (found : state.writes[write]? = some task)
      (phase : task.phase = .surfacing own index) (spawned : state.workers[index]? = some worker)
      (status : worker.status = .ended result) :
      Stepped sink state (.write write .await) ((state.join index).setPhase write (.finished (.error message)))
  | spawned {write : Nat} {task : Task Schema Row} {schema : Schema} {subBatches : List (RecordBatch Schema Row)}
      (found : state.writes[write]? = some task) (phase : task.phase = .spawning subBatches) :
      Stepped sink state (.write write .spawn)
        ((state.insertStream task.call.table schema).setPhase write (.sending state.workers.length subBatches))
  | sent {write index : Nat} {task : Task Schema Row} {batch : RecordBatch Schema Row}
      {rest : List (RecordBatch Schema Row)} {worker : Worker Schema Row}
      (found : state.writes[write]? = some task) (phase : task.phase = .sending index (batch :: rest))
      (spawned : state.workers[index]? = some worker) (status : worker.status = .running) :
      Stepped sink state (.write write .send)
        ((state.modifyWorker index fun worker => { worker with queue := worker.queue ++ [(write, batch)] }).setPhase
          write (if rest = [] then .finished (.ok ()) else .sending index rest))
  | unsent {write index : Nat} {task : Task Schema Row} {subBatches : List (RecordBatch Schema Row)}
      {worker : Worker Schema Row} (found : state.writes[write]? = some task)
      (phase : task.phase = .sending index subBatches) (spawned : state.workers[index]? = some worker)
      (status : worker.status ≠ .running) :
      Stepped sink state (.write write .send) (state.setPhase write (.failing index))
  | performed {write : Nat} {task : Task Schema Row} {around : Surroundings Schema Row}
      (found : state.writes[write]? = some task) (phase : task.phase = .performing) :
      Stepped sink state (.write write (.perform around))
        ((state.record task.call.table write (sink.perform around task.call).2).setPhase write
          (.finished (sink.perform around task.call).1))
  | received {index : Nat} {worker : Worker Schema Row} {item : Nat × RecordBatch Schema Row}
      {rest : List (Nat × RecordBatch Schema Row)} (spawned : state.workers[index]? = some worker)
      (status : worker.status = .running) (queued : worker.queue = item :: rest) :
      Stepped sink state (.worker index .receive) (state.modifyWorker index fun worker =>
        { worker with queue := rest, received := worker.received ++ [item], pending := worker.pending ++ [item] })
  | applied {index : Nat} {worker : Worker Schema Row} {item : Nat × RecordBatch Schema Row}
      {rest : List (Nat × RecordBatch Schema Row)} (spawned : state.workers[index]? = some worker)
      (status : worker.status = .running) (queued : worker.pending = item :: rest) :
      Stepped sink state (.worker index .apply)
        ((state.modifyWorker index fun worker => { worker with pending := rest }).record worker.table item.1
          (item.2.rows.map .row))
  | completed {index : Nat} {worker : Worker Schema Row} (spawned : state.workers[index]? = some worker)
      (status : worker.status = .running) (queue : worker.queue = []) (pending : worker.pending = [])
      (closed : state.senderAlive index = false) :
      Stepped sink state (.worker index .complete)
        (state.modifyWorker index fun worker => { worker with status := .ended (.ok ()) })
  | aborted {index : Nat} {worker : Worker Schema Row} {message : String}
      (spawned : state.workers[index]? = some worker) (status : worker.status = .running) :
      Stepped sink state (.worker index (.abort message))
        (state.modifyWorker index fun worker => { worker with status := .stopping message })
  | stopped {index : Nat} {worker : Worker Schema Row} {message : String}
      (spawned : state.workers[index]? = some worker) (status : worker.status = .stopping message) :
      Stepped sink state (.worker index .finish)
        (state.modifyWorker index fun worker => { worker with status := .ended (.error message) })
  | drained {order : List (String × Nat)} (isOpen : state.flush.isOpen = true)
      (quiet : ∀ task ∈ state.writes, task.phase.isFinished = true) (reuse : sink.reuseBulkIngestStreams = true)
      (permuted : order.Perm (state.streams.entries.map fun entry => (entry.1, entry.2.worker))) :
      Stepped sink state (.drain order) { state with streams := .empty, flush := .closing order none }
  | undrained {order : List (String × Nat)} (isOpen : state.flush.isOpen = true)
      (quiet : ∀ task ∈ state.writes, task.phase.isFinished = true) (reuse : sink.reuseBulkIngestStreams = false) :
      Stepped sink state (.drain order) { state with flush := .returned (.ok ()) }
  | returned (flushing : state.flush = .closing [] none) :
      Stepped sink state .awaitFlush { state with flush := .returned (.ok ()) }
  | returnedFailed {message : String} (flushing : state.flush = .closing [] (some message)) :
      Stepped sink state .awaitFlush { state with flush := .returned (.error message) }
  | flushed {table : String} {index : Nat} {rest : List (String × Nat)} {firstErr : Option String}
      {worker : Worker Schema Row} (flushing : state.flush = .closing ((table, index) :: rest) firstErr)
      (spawned : state.workers[index]? = some worker) (status : worker.status = .ended (.ok ())) :
      Stepped sink state .awaitFlush { state.join index with flush := .closing rest firstErr }
  | flushedFailed {table message : String} {index : Nat} {rest : List (String × Nat)} {firstErr : Option String}
      {worker : Worker Schema Row} (flushing : state.flush = .closing ((table, index) :: rest) firstErr)
      (spawned : state.workers[index]? = some worker) (status : worker.status = .ended (.error message)) :
      Stepped sink state .awaitFlush
        { state.join index with flush := .closing rest (some (firstErr.getD message)) }

theorem status_of_map_eq_some {index : Nat} {status : WorkerStatus}
    (found : (state.workers[index]?).map Worker.status = some status) :
    ∃ worker, state.workers[index]? = some worker ∧ worker.status = status := by
  obtain ⟨worker, spawned, same⟩ := Option.map_eq_some_iff.mp found
  exact ⟨worker, spawned, same⟩

theorem removeStep_cases {write : Nat} {task : Task Schema Row} (found : state.writes[write]? = some task)
    (stepped : removeStep state write task = some next) : Stepped sink state (.write write .remove) next := by
  unfold removeStep at stepped
  split at stepped
  · rename_i phase stored
    obtain rfl := Option.some.inj stepped
    exact .taken found phase stored
  · rename_i phase stored
    obtain rfl := Option.some.inj stepped
    exact .absent found phase stored
  · rename_i phase stored
    obtain rfl := Option.some.inj stepped
    exact .takenFailing found phase stored
  · rename_i phase stored
    obtain rfl := Option.some.inj stepped
    exact .absentFailing found phase stored
  · cases stepped

theorem awaitStep_cases {write : Nat} {task : Task Schema Row} (found : state.writes[write]? = some task)
    (stepped : awaitStep state write task = some next) : Stepped sink state (.write write .await) next := by
  unfold awaitStep at stepped
  split at stepped
  · rename_i phase
    split at stepped
    · rename_i ended
      obtain ⟨worker, spawned, status⟩ := status_of_map_eq_some ended
      obtain rfl := Option.some.inj stepped
      exact .closed found phase spawned status
    · rename_i ended
      obtain ⟨worker, spawned, status⟩ := status_of_map_eq_some ended
      obtain rfl := Option.some.inj stepped
      exact .closedFailed found phase spawned status
    · cases stepped
  · rename_i phase
    split at stepped
    · rename_i ended
      obtain ⟨worker, spawned, status⟩ := status_of_map_eq_some ended
      obtain rfl := Option.some.inj stepped
      exact .surfaced found phase spawned status
    · rename_i ended
      obtain ⟨worker, spawned, status⟩ := status_of_map_eq_some ended
      obtain rfl := Option.some.inj stepped
      exact .surfaced found phase spawned status
    · cases stepped
  · cases stepped

theorem sendStep_cases {write : Nat} {task : Task Schema Row} (found : state.writes[write]? = some task)
    (stepped : sink.sendStep state write task = some next) : Stepped sink state (.write write .send) next := by
  unfold sendStep at stepped
  split at stepped
  · rename_i phase
    split at stepped
    · rename_i worker spawned
      split at stepped
      · rename_i status
        rw [Option.ite_none_right_eq_some] at stepped
        obtain rfl := Option.some.inj stepped.2
        exact .sent found phase spawned status
      · rename_i status
        obtain rfl := Option.some.inj stepped
        exact .unsent found phase spawned status
    · cases stepped
  · cases stepped

theorem workerStep_cases {index : Nat} {worker : Worker Schema Row} {move : WorkerMove}
    (spawned : state.workers[index]? = some worker) (stepped : workerStep state index worker move = some next) :
    Stepped sink state (.worker index move) next := by
  cases move with
  | receive =>
      dsimp only [workerStep] at stepped
      split at stepped
      · rename_i status queued
        obtain rfl := Option.some.inj stepped
        exact .received spawned status queued
      · cases stepped
  | apply =>
      dsimp only [workerStep] at stepped
      split at stepped
      · rename_i status queued
        obtain rfl := Option.some.inj stepped
        exact .applied spawned status queued
      · cases stepped
  | complete =>
      dsimp only [workerStep] at stepped
      split at stepped
      · rename_i status queue pending
        split_ifs at stepped with alive
        obtain rfl := Option.some.inj stepped
        exact .completed spawned status queue pending (by simpa using alive)
      · cases stepped
  | abort message =>
      dsimp only [workerStep] at stepped
      split at stepped
      · rename_i status
        obtain rfl := Option.some.inj stepped
        exact .aborted spawned status
      · cases stepped
  | finish =>
      dsimp only [workerStep] at stepped
      split at stepped
      · rename_i status
        obtain rfl := Option.some.inj stepped
        exact .stopped spawned status
      · cases stepped

theorem drainStep_cases {order : List (String × Nat)} (stepped : sink.drainStep state order = some next) :
    Stepped sink state (.drain order) next := by
  unfold drainStep at stepped
  split_ifs at stepped with ready reuse permuted
  · obtain rfl := Option.some.inj stepped
    exact .drained ready.1 (List.all_eq_true.mp ready.2) reuse (List.isPerm_iff.mp permuted)
  · obtain rfl := Option.some.inj stepped
    exact .undrained ready.1 (List.all_eq_true.mp ready.2) (by simpa using reuse)

theorem awaitFlushStep_cases (stepped : awaitFlushStep state = some next) :
    Stepped sink state .awaitFlush next := by
  unfold awaitFlushStep at stepped
  split at stepped
  · rename_i firstErr flushing
    obtain rfl := Option.some.inj stepped
    cases firstErr with
    | none => exact .returned flushing
    | some message => exact .returnedFailed flushing
  · rename_i flushing
    split at stepped
    · rename_i ended
      obtain ⟨worker, spawned, status⟩ := status_of_map_eq_some ended
      obtain rfl := Option.some.inj stepped
      exact .flushed flushing spawned status
    · rename_i ended
      obtain ⟨worker, spawned, status⟩ := status_of_map_eq_some ended
      obtain rfl := Option.some.inj stepped
      exact .flushedFailed flushing spawned status
    · cases stepped
  · cases stepped

variable [DecidableEq Schema]

theorem lookUp_cases {write : Nat} {task : Task Schema Row} {first : RecordBatch Schema Row}
    {rest : List (RecordBatch Schema Row)} (found : state.writes[write]? = some task)
    (phase : task.phase = .lookup (first :: rest)) :
    Stepped sink state (.write write .lookUp)
      (state.setPhase write (lookUpPhase state task.call.table first.schema (first :: rest))) := by
  unfold lookUpPhase
  split
  · rename_i stream stored
    split
    · rename_i worker spawned
      split_ifs with usable
      · exact .joined found phase stored spawned (by simp [usable.1]) (by simpa using usable.2)
      · exact .missed found phase
    · exact .missed found phase
  · exact .missed found phase

theorem writeStep_cases {write : Nat} {task : Task Schema Row} {move : WriteMove Schema Row}
    (found : state.writes[write]? = some task) (stepped : sink.writeStep state write task move = some next) :
    Stepped sink state (.write write move) next := by
  cases move with
  | start =>
      dsimp only [writeStep] at stepped
      split at stepped
      · rename_i phase
        obtain rfl := Option.some.inj stepped
        exact .started found phase
      · cases stepped
  | lookUp =>
      dsimp only [writeStep] at stepped
      split at stepped
      · rename_i phase
        obtain rfl := Option.some.inj stepped
        exact lookUp_cases found phase
      · cases stepped
  | remove => exact removeStep_cases found stepped
  | await => exact awaitStep_cases found stepped
  | spawn =>
      dsimp only [writeStep] at stepped
      split at stepped
      · rename_i phase
        obtain rfl := Option.some.inj stepped
        exact .spawned found phase
      · cases stepped
  | send => exact sendStep_cases found stepped
  | perform around =>
      dsimp only [writeStep] at stepped
      split at stepped
      · rename_i phase
        obtain rfl := Option.some.inj stepped
        exact .performed found phase
      · cases stepped

/-- Every step is one of those that are described. -/
theorem stepped_of_step {action : Action Schema Row} (stepped : sink.step state action = some next) :
    Stepped sink state action next := by
  cases action with
  | call call =>
      simp only [step] at stepped
      split_ifs at stepped with isOpen
      obtain rfl := Option.some.inj stepped
      exact .called isOpen
  | write write move =>
      obtain ⟨task, found, stepped⟩ := Option.bind_eq_some_iff.mp stepped
      exact writeStep_cases found stepped
  | worker index move =>
      obtain ⟨worker, spawned, stepped⟩ := Option.bind_eq_some_iff.mp stepped
      exact workerStep_cases spawned stepped
  | drain order => exact drainStep_cases stepped
  | awaitFlush => exact awaitFlushStep_cases stepped

end Spicebench.Sink
