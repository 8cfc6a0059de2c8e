import Spicebench.Proof.Sink.Durability
import Spicebench.Proof.Sink.Effects

namespace Spicebench.Sink
open Library Etl AdbcSink AdbcTarget

variable {Schema Row : Type} {sink : AdbcSink Schema Row} {state next : State Schema Row}

section Sound

/-- What a phase says about the way that its write takes. -/
def Phase.Carried (sink : AdbcSink Schema Row) (call : WriteCall Schema Row) : Phase Schema Row → Prop
  | .lookup subBatches => sink.usesStream call.op = true ∧ call.batch.numRows ≠ 0 ∧
      sink.splitInsertBatchForIngest call.batch = .ok subBatches
  | .ending (some subBatches) => sink.usesStream call.op = true ∧ call.batch.numRows ≠ 0 ∧
      sink.splitInsertBatchForIngest call.batch = .ok subBatches
  | .closing _ (some subBatches) => sink.usesStream call.op = true ∧ call.batch.numRows ≠ 0 ∧
      sink.splitInsertBatchForIngest call.batch = .ok subBatches
  | .spawning subBatches => sink.usesStream call.op = true ∧ call.batch.numRows ≠ 0 ∧
      sink.splitInsertBatchForIngest call.batch = .ok subBatches
  | .ending none => call.batch.numRows ≠ 0
  | .closing _ none => call.batch.numRows ≠ 0
  | .performing => call.batch.numRows ≠ 0
  | .sending _ _ => sink.usesStream call.op = true ∧ call.batch.numRows ≠ 0
  | _ => True

theorem startPhase_carried (call : WriteCall Schema Row) : (sink.startPhase call).Carried sink call := by
  unfold startPhase
  split_ifs with empty flushes streams
  · trivial
  · exact empty
  · split
    · trivial
    · trivial
    · rename_i split
      exact ⟨streams, empty, split⟩
  · exact empty

/-- The map, the writes and the workers fit together, whatever the order of the calls. -/
structure Sound (sink : AdbcSink Schema Row) (state : State Schema Row) : Prop where
  carried : ∀ {write : Nat} {task : Task Schema Row}, state.writes[write]? = some task →
    task.phase.Carried sink task.call
  attached : ∀ {write index : Nat} {task : Task Schema Row} {subBatches : List (RecordBatch Schema Row)},
    state.writes[write]? = some task → task.phase = .sending index subBatches →
    ∃ worker, state.workers[index]? = some worker ∧ worker.table = task.call.table ∧
      worker.status ≠ .ended (.ok ())
  stored : ∀ {table : String} {stream : TableBulkIngestStream Schema}, state.streams.get? table = some stream →
    ∃ worker, state.workers[stream.worker]? = some worker ∧ worker.table = table
  reused : sink.reuseBulkIngestStreams = false → state.workers = [] ∧ ∀ table, state.streams.get? table = none
  quiet : state.flush ≠ .idle →
    (∀ task ∈ state.writes, task.phase.isFinished = true) ∧ ∀ table, state.streams.get? table = none
  complete : ∀ worker ∈ state.workers, worker.status = .ended (.ok ()) → worker.queue = [] ∧ worker.pending = []

theorem Sound.idle (sound : Sound sink state) {write : Nat} {task : Task Schema Row}
    (found : state.writes[write]? = some task) (active : task.phase.isFinished = false) : state.flush = .idle := by
  by_contra flushing
  have finished := (sound.quiet flushing).1 task (List.mem_of_getElem? found)
  rw [active] at finished
  cases finished

theorem initial_sound : Sound sink .initial where
  carried found := by simp [State.initial] at found
  attached found := by simp [State.initial] at found
  stored found := by simp [State.initial, OrderedMap.empty, OrderedMap.get?] at found
  reused _ := ⟨rfl, fun _ => rfl⟩
  quiet flushing := absurd rfl flushing
  complete worker member := by simp [State.initial] at member

/-- A write takes a step that leaves the workers and the map alone. -/
theorem Sound.setPhase (sound : Sound sink state) {write : Nat} {task : Task Schema Row}
    {phase : Phase Schema Row} (found : state.writes[write]? = some task) (active : task.phase.isFinished = false)
    (carried : phase.Carried sink task.call)
    (attached : ∀ index subBatches, phase = .sending index subBatches →
      ∃ worker, state.workers[index]? = some worker ∧ worker.table = task.call.table ∧
        worker.status ≠ .ended (.ok ())) : Sound sink (state.setPhase write phase) where
  carried {other result} located := by
    rcases writes_setPhase.mp located with ⟨_, stays⟩ | ⟨rfl, old, here, rfl⟩
    · exact sound.carried stays
    · obtain rfl := Option.some.inj (here.symm.trans found)
      exact carried
  attached {other index result subBatches} located isPhase := by
    rcases writes_setPhase.mp located with ⟨_, stays⟩ | ⟨rfl, old, here, rfl⟩
    · exact sound.attached stays isPhase
    · obtain rfl := Option.some.inj (here.symm.trans found)
      exact attached index subBatches isPhase
  stored := sound.stored
  reused := sound.reused
  quiet flushing := absurd (sound.idle found active) flushing
  complete := sound.complete

/-- Workers may change as long as they stay on their tables and none that is sent to goes through. -/
theorem Sound.modifyWorker (sound : Sound sink state) {index : Nat} {worker : Worker Schema Row}
    {change : Worker Schema Row → Worker Schema Row} (spawned : state.workers[index]? = some worker)
    (table : (change worker).table = worker.table)
    (used : (change worker).status = .ended (.ok ()) → worker.status ≠ .ended (.ok ()) →
      state.senderAlive index = false)
    (complete : (change worker).status = .ended (.ok ()) → (change worker).queue = [] ∧ (change worker).pending = []) :
    Sound sink (state.modifyWorker index change) where
  carried := sound.carried
  attached {write other task subBatches} found phase := by
    obtain ⟨old, located, isTable, status⟩ := sound.attached found phase
    by_cases here : other = index
    · subst here
      obtain rfl := Option.some.inj (located.symm.trans spawned)
      refine ⟨change old, workers_modifyWorker.mpr (.inr ⟨rfl, old, located, rfl⟩), table.trans isTable, ?_⟩
      intro ended
      have alive : state.senderAlive other = true := by
        simp only [State.senderAlive, Bool.or_eq_true, List.any_eq_true]
        exact .inl (.inr ⟨task, List.mem_of_getElem? found, by simp [phase, Phase.keepsSender]⟩)
      rw [used ended status] at alive
      cases alive
    · exact ⟨old, workers_modifyWorker.mpr (.inl ⟨here, located⟩), isTable, status⟩
  stored {name stream} found := by
    obtain ⟨old, located, isTable⟩ := sound.stored found
    by_cases here : stream.worker = index
    · rw [here] at located ⊢
      obtain rfl := Option.some.inj (located.symm.trans spawned)
      exact ⟨change old, workers_modifyWorker.mpr (.inr ⟨rfl, old, located, rfl⟩), table.trans isTable⟩
    · exact ⟨old, workers_modifyWorker.mpr (.inl ⟨here, located⟩), isTable⟩
  reused reuse := by
    have none := (sound.reused reuse).1
    rw [none] at spawned
    cases spawned
  quiet := sound.quiet
  complete result member ended := by
    obtain ⟨other, located⟩ := List.mem_iff_getElem?.mp member
    rcases workers_modifyWorker.mp located with ⟨_, stays⟩ | ⟨rfl, old, stays, rfl⟩
    · exact sound.complete result (List.mem_of_getElem? stays) ended
    · obtain rfl := Option.some.inj (stays.symm.trans spawned)
      exact complete ended

theorem Sound.removeStream (sound : Sound sink state) (table : String) : Sound sink (state.removeStream table) := by
  have fewer : ∀ {name stream}, (state.removeStream table).streams.get? name = some stream →
      state.streams.get? name = some stream := by
    intro name stream found
    by_cases here : name = table
    · subst here
      simp [State.removeStream] at found
    · rwa [State.removeStream, OrderedMap.get?_alter_ne _ here] at found
  have none : ∀ {name}, state.streams.get? name = none → (state.removeStream table).streams.get? name = none := by
    intro name absent
    by_contra present
    obtain ⟨stream, found⟩ := Option.ne_none_iff_exists'.mp present
    rw [fewer found] at absent
    cases absent
  exact ⟨sound.carried, sound.attached, fun found => sound.stored (fewer found),
    fun reuse => ⟨(sound.reused reuse).1, fun name => none ((sound.reused reuse).2 name)⟩,
    fun flushing => ⟨(sound.quiet flushing).1, fun name => none ((sound.quiet flushing).2 name)⟩, sound.complete⟩

theorem Sound.record (sound : Sound sink state) {table : String} {write : Nat} {events : List (Event Row)} :
    Sound sink (state.record table write events) :=
  ⟨sound.carried, sound.attached, sound.stored, sound.reused, sound.quiet, sound.complete⟩

/-- A new worker gets the stream of its table. -/
theorem Sound.append (sound : Sound sink state) (reuse : sink.reuseBulkIngestStreams = true)
    (idle : state.flush = .idle) (table : String) (schema : Schema) :
    Sound sink { state with
      workers := state.workers ++ [.spawned table]
      streams := state.streams.alter table fun _ => some ⟨schema, state.workers.length⟩ } where
  carried := sound.carried
  attached found phase := by
    obtain ⟨worker, located, others⟩ := sound.attached found phase
    exact ⟨worker, getElem?_append_singleton_eq_some.mpr (.inl located), others⟩
  stored {name stream} found := by
    by_cases here : name = table
    · subst here
      rw [OrderedMap.get?_alter_self] at found
      obtain rfl := Option.some.inj found
      exact ⟨.spawned name, getElem?_append_singleton_eq_some.mpr (.inr ⟨rfl, rfl⟩), rfl⟩
    · rw [OrderedMap.get?_alter_ne _ here] at found
      obtain ⟨worker, located, isTable⟩ := sound.stored found
      exact ⟨worker, getElem?_append_singleton_eq_some.mpr (.inl located), isTable⟩
  reused isReuse := by
    rw [reuse] at isReuse
    cases isReuse
  quiet flushing := absurd idle flushing
  complete worker member ended := by
    rcases List.mem_append.mp member with member | member
    · exact sound.complete worker member ended
    · rw [List.mem_singleton.mp member]
      exact ⟨rfl, rfl⟩

theorem Sound.insertStream (sound : Sound sink state) (reuse : sink.reuseBulkIngestStreams = true)
    (idle : state.flush = .idle) (table : String) (schema : Schema) :
    Sound sink (state.insertStream table schema) := by
  cases stored : state.streams.get? table with
  | none =>
      have inserted := sound.append reuse idle table schema
      simpa only [State.insertStream, stored] using inserted
  | some stream =>
      obtain ⟨worker, located, isTable⟩ := sound.stored stored
      have replaced : Sound sink (state.modifyWorker stream.worker fun worker => { worker with handle := .dropped }) :=
        sound.modifyWorker located rfl (fun ended running => absurd ended running)
          (sound.complete worker (List.mem_of_getElem? located))
      have inserted := replaced.append reuse idle table schema
      simpa only [State.insertStream, stored, State.modifyWorker, List.length_modify] using inserted

theorem Sound.join (sound : Sound sink state) {index : Nat} {worker : Worker Schema Row}
    (spawned : state.workers[index]? = some worker) : Sound sink (state.join index) :=
  sound.modifyWorker spawned rfl (fun ended running => absurd ended running)
    (sound.complete worker (List.mem_of_getElem? spawned))

theorem Sound.setFlush (sound : Sound sink state) {flush : FlushPhase}
    (quiet : (∀ task ∈ state.writes, task.phase.isFinished = true) ∧ ∀ table, state.streams.get? table = none) :
    Sound sink { state with flush } :=
  ⟨sound.carried, sound.attached, sound.stored, sound.reused, fun _ => quiet, sound.complete⟩

theorem reuse_of_usesStream {op : InsertOp} (streams : sink.usesStream op = true) :
    sink.reuseBulkIngestStreams = true := by
  simp only [usesStream, Bool.and_eq_true] at streams
  exact streams.1

theorem afterEnding_ne_sending {subBatches : Option (List (RecordBatch Schema Row))} {index : Nat}
    {others : List (RecordBatch Schema Row)} : Phase.afterEnding subBatches ≠ .sending index others := by
  cases subBatches <;> simp [Phase.afterEnding]

theorem afterEnding_carried {call : WriteCall Schema Row} {subBatches : Option (List (RecordBatch Schema Row))}
    (carried : (Phase.ending subBatches).Carried sink call) : (Phase.afterEnding subBatches).Carried sink call := by
  cases subBatches with
  | none => exact carried
  | some subBatches => exact carried

theorem startPhase_ne_sending {call : WriteCall Schema Row} {index : Nat}
    {subBatches : List (RecordBatch Schema Row)} : sink.startPhase call ≠ .sending index subBatches := by
  unfold startPhase
  split_ifs
  · simp
  · simp
  · split <;> simp
  · simp

/-- Every step keeps the sink sound. -/
theorem Sound.stepped (sound : Sound sink state) {action : Action Schema Row}
    (stepped : Stepped sink state action next) : Sound sink next := by
  cases stepped with
  | @called call _ =>
      refine ⟨?_, ?_, sound.stored, sound.reused, fun flushing => absurd rfl flushing, sound.complete⟩
      · intro write task found
        rcases getElem?_append_singleton_eq_some.mp found with stays | ⟨_, rfl⟩
        · exact sound.carried stays
        · trivial
      · intro write index task subBatches found phase
        rcases getElem?_append_singleton_eq_some.mp found with stays | ⟨_, rfl⟩
        · exact sound.attached stays phase
        · cases phase
  | started found phase =>
      refine sound.setPhase found (by simp [phase, Phase.isFinished]) (startPhase_carried _) ?_
      intro index subBatches same
      exact absurd same startPhase_ne_sending
  | @joined write task subBatches stream worker found phase stored spawned schema unfinished =>
      have own := sound.carried found
      rw [phase] at own
      refine sound.setPhase found (by simp [phase, Phase.isFinished]) ⟨own.1, own.2.1⟩ ?_
      intro index others same
      obtain ⟨rfl, rfl⟩ := Phase.sending.inj same
      obtain ⟨worker', spawned', table⟩ := sound.stored stored
      obtain rfl := Option.some.inj (spawned'.symm.trans spawned)
      refine ⟨worker', spawned, table, ?_⟩
      intro ended
      simp [Worker.isFinished, ended] at unfinished
  | missed found phase =>
      have own := sound.carried found
      rw [phase] at own
      exact sound.setPhase found (by simp [phase, Phase.isFinished]) own (by simp)
  | @taken write task subBatches stream found phase stored =>
      have own := sound.carried found
      rw [phase] at own
      refine (sound.removeStream task.call.table).setPhase found (by simp [phase, Phase.isFinished]) ?_ (by simp)
      cases subBatches with
      | none => exact own
      | some subBatches => exact own
  | absent found phase =>
      have own := sound.carried found
      rw [phase] at own
      refine sound.setPhase found (by simp [phase, Phase.isFinished]) (afterEnding_carried own) ?_
      intro index others same
      exact absurd same afterEnding_ne_sending
  | @takenFailing write own task stream found phase stored =>
      exact (sound.removeStream task.call.table).setPhase found (by simp [phase, Phase.isFinished]) trivial (by simp)
  | absentFailing found phase =>
      exact sound.setPhase found (by simp [phase, Phase.isFinished]) trivial (by simp)
  | @closed write index task subBatches worker found phase spawned status =>
      have own := sound.carried found
      rw [phase] at own
      refine (sound.join spawned).setPhase found (by simp [phase, Phase.isFinished]) ?_ ?_
      · apply afterEnding_carried
        cases subBatches with
        | none => exact own
        | some subBatches => exact own
      · intro index others same
        exact absurd same afterEnding_ne_sending
  | closedFailed found phase spawned status =>
      exact (sound.join spawned).setPhase found (by simp [phase, Phase.isFinished]) trivial (by simp)
  | surfaced found phase spawned status =>
      exact (sound.join spawned).setPhase found (by simp [phase, Phase.isFinished]) trivial (by simp)
  | @spawned write task schema subBatches found phase =>
      have own := sound.carried found
      rw [phase] at own
      have active : task.phase.isFinished = false := by simp [phase, Phase.isFinished]
      have inserted := sound.insertStream (reuse_of_usesStream own.1) (sound.idle found active) task.call.table schema
      have writes : (state.insertStream task.call.table schema).writes = state.writes := insertStream_writes
      refine inserted.setPhase (writes ▸ found) active ⟨own.1, own.2.1⟩ ?_
      intro index others same
      obtain ⟨rfl, rfl⟩ := Phase.sending.inj same
      exact ⟨_, insertStream_spawned, rfl, by simp [Worker.spawned]⟩
  | @sent write index task batch rest worker found phase spawned status =>
      have own := sound.carried found
      rw [phase] at own
      have pushed : Sound sink (state.modifyWorker index fun worker =>
          { worker with queue := worker.queue ++ [(write, batch)] }) :=
        sound.modifyWorker spawned rfl (by simp [status]) (by simp [status])
      refine pushed.setPhase found (by simp [phase, Phase.isFinished]) ?_ ?_
      · split_ifs
        · trivial
        · exact own
      · intro other others same
        split_ifs at same
        obtain ⟨rfl, rfl⟩ := Phase.sending.inj same
        exact pushed.attached found phase
  | unsent found phase =>
      exact sound.setPhase found (by simp [phase, Phase.isFinished]) trivial (by simp)
  | performed found phase =>
      exact sound.record.setPhase found (by simp [phase, Phase.isFinished]) trivial (by simp)
  | received spawned status => exact sound.modifyWorker spawned rfl (by simp [status]) (by simp [status])
  | applied spawned status =>
      apply Sound.record
      exact sound.modifyWorker spawned rfl (by simp [status]) (by simp [status])
  | completed spawned status queue pending closed =>
      exact sound.modifyWorker spawned rfl (fun _ _ => closed) (fun _ => ⟨queue, pending⟩)
  | aborted spawned status => exact sound.modifyWorker spawned rfl (by simp) (by simp)
  | stopped spawned status => exact sound.modifyWorker spawned rfl (by simp) (by simp)
  | drained isOpen quiet reuse =>
      refine ⟨sound.carried, sound.attached, ?_, fun isReuse => ⟨(sound.reused isReuse).1, fun _ => rfl⟩,
        fun _ => ⟨quiet, fun _ => rfl⟩, sound.complete⟩
      intro table stream found
      cases found
  | undrained isOpen quiet reuse => exact sound.setFlush ⟨quiet, (sound.reused reuse).2⟩
  | returned flushing => exact sound.setFlush (sound.quiet (by simp [flushing]))
  | returnedFailed flushing => exact sound.setFlush (sound.quiet (by simp [flushing]))
  | flushed flushing spawned status => exact (sound.join spawned).setFlush (sound.quiet (by simp [flushing]))
  | flushedFailed flushing spawned status => exact (sound.join spawned).setFlush (sound.quiet (by simp [flushing]))

end Sound

section View

variable {table : String}

/-- The events on a table. -/
def State.tableLog (state : State Schema Row) (table : String) : List (LogEntry Row) :=
  state.log.filter fun entry => entry.table = table

/-- The writes to a table. -/
def State.tableWrites (state : State Schema Row) (table : String) : List (Task Schema Row) :=
  state.writes.filter fun task => task.call.table = table

/-- Only the handles of two workers differ. -/
structure SameWorker (worker other : Worker Schema Row) : Prop where
  table : other.table = worker.table
  queue : other.queue = worker.queue
  pending : other.pending = worker.pending
  status : other.status = worker.status

/-- Two states agree on all that concerns a table. -/
structure SameView (table : String) (state next : State Schema Row) : Prop where
  stream : next.streams.get? table = state.streams.get? table
  writes : ∀ {write : Nat} {task : Task Schema Row}, task.call.table = table →
    (next.writes[write]? = some task ↔ state.writes[write]? = some task)
  listed : next.tableWrites table = state.tableWrites table
  kept : ∀ {index : Nat} {worker : Worker Schema Row}, state.workers[index]? = some worker → worker.table = table →
    ∃ other, next.workers[index]? = some other ∧ SameWorker worker other
  known : ∀ {index : Nat} {other : Worker Schema Row}, next.workers[index]? = some other → other.table = table →
    ∃ worker, state.workers[index]? = some worker ∧ SameWorker worker other
  log : next.tableLog table = state.tableLog table
  flush : next.flush = state.flush

theorem SameWorker.refl (worker : Worker Schema Row) : SameWorker worker worker := ⟨rfl, rfl, rfl, rfl⟩

theorem SameView.refl (table : String) (state : State Schema Row) : SameView table state state :=
  ⟨rfl, fun _ => Iff.rfl, rfl, fun found _ => ⟨_, found, .refl _⟩, fun found _ => ⟨_, found, .refl _⟩, rfl, rfl⟩

theorem SameView.trans {middle : State Schema Row} (first : SameView table state middle)
    (second : SameView table middle next) : SameView table state next where
  stream := second.stream.trans first.stream
  writes isTable := (second.writes isTable).trans (first.writes isTable)
  listed := second.listed.trans first.listed
  kept found isTable := by
    obtain ⟨worker, inMiddle, same⟩ := first.kept found isTable
    obtain ⟨other, inNext, again⟩ := second.kept inMiddle (same.table.trans isTable)
    exact ⟨other, inNext, again.table.trans same.table, again.queue.trans same.queue,
      again.pending.trans same.pending, again.status.trans same.status⟩
  known found isTable := by
    obtain ⟨worker, inMiddle, same⟩ := second.known found isTable
    obtain ⟨other, inState, again⟩ := first.known inMiddle (same.table.symm.trans isTable)
    exact ⟨other, inState, same.table.trans again.table, same.queue.trans again.queue,
      same.pending.trans again.pending, same.status.trans again.status⟩
  log := second.log.trans first.log
  flush := second.flush.trans first.flush

theorem filter_modify_of_not {Item : Type} {keep : Item → Bool} {change : Item → Item} {items : List Item} {index : Nat}
    (dropped : ∀ item, items[index]? = some item → keep item = false ∧ keep (change item) = false) :
    (items.modify index change).filter keep = items.filter keep := by
  induction items generalizing index with
  | nil => simp
  | cons item items same =>
      cases index with
      | zero =>
          obtain ⟨before, after⟩ := dropped item rfl
          simp [before, after]
      | succ index =>
          rw [List.modify_succ_cons, List.filter_cons, List.filter_cons, same]
          intro other found
          exact dropped other found

/-- A write to another table takes a step. -/
theorem sameView_setPhase {write : Nat} {task : Task Schema Row} {phase : Phase Schema Row}
    (found : state.writes[write]? = some task) (other : task.call.table ≠ table) :
    SameView table state (state.setPhase write phase) where
  stream := rfl
  writes {index result} isTable := by
    rw [writes_setPhase]
    constructor
    · rintro (⟨_, stays⟩ | ⟨rfl, old, here, rfl⟩)
      · exact stays
      · obtain rfl := Option.some.inj (here.symm.trans found)
        exact absurd isTable other
    · intro stays
      refine .inl ⟨?_, stays⟩
      rintro rfl
      obtain rfl := Option.some.inj (stays.symm.trans found)
      exact other isTable
  listed := by
    apply filter_modify_of_not
    intro old here
    obtain rfl := Option.some.inj (here.symm.trans found)
    simp [other]
  kept located _ := ⟨_, located, .refl _⟩
  known located _ := ⟨_, located, .refl _⟩
  log := rfl
  flush := rfl

/-- A worker of another table takes a step, or only a handle changes. -/
theorem sameView_modifyWorker {index : Nat} {change : Worker Schema Row → Worker Schema Row}
    (same : ∀ worker, state.workers[index]? = some worker →
      SameWorker worker (change worker) ∨ (worker.table ≠ table ∧ (change worker).table ≠ table)) :
    SameView table state (state.modifyWorker index change) where
  stream := rfl
  writes _ := Iff.rfl
  listed := rfl
  kept {place worker} located isTable := by
    by_cases here : place = index
    · subst here
      refine ⟨change worker, workers_modifyWorker.mpr (.inr ⟨rfl, worker, located, rfl⟩), ?_⟩
      exact (same worker located).resolve_right fun others => others.1 isTable
    · exact ⟨worker, workers_modifyWorker.mpr (.inl ⟨here, located⟩), .refl _⟩
  known {place worker} located isTable := by
    rcases workers_modifyWorker.mp located with ⟨_, stays⟩ | ⟨rfl, old, stays, rfl⟩
    · exact ⟨worker, stays, .refl _⟩
    · exact ⟨old, stays, (same old stays).resolve_right fun others => others.2 isTable⟩
  log := rfl
  flush := rfl

theorem sameView_join {index : Nat} : SameView table state (state.join index) :=
  sameView_modifyWorker fun _ _ => .inl ⟨rfl, rfl, rfl, rfl⟩

theorem sameView_removeStream {name : String} (other : name ≠ table) :
    SameView table state (state.removeStream name) :=
  ⟨OrderedMap.get?_alter_ne _ other.symm _, fun _ => Iff.rfl, rfl, fun located _ => ⟨_, located, .refl _⟩,
    fun located _ => ⟨_, located, .refl _⟩, rfl, rfl⟩

theorem sameView_record {name : String} {write : Nat} {events : List (Event Row)} (other : name ≠ table) :
    SameView table state (state.record name write events) := by
  refine ⟨rfl, fun _ => Iff.rfl, rfl, fun located _ => ⟨_, located, .refl _⟩, fun located _ => ⟨_, located, .refl _⟩,
    ?_, rfl⟩
  have none : (events.map fun event => (⟨name, write, event⟩ : LogEntry Row)).filter
      (fun entry => entry.table = table) = [] := by
    rw [List.filter_eq_nil_iff]
    intro entry member
    obtain ⟨event, _, rfl⟩ := List.mem_map.mp member
    simpa using other
  simp only [State.tableLog, State.record, List.filter_append, none, List.append_nil]

theorem sameView_append {name : String} {schema : Schema} {worker : Nat} (other : name ≠ table) :
    SameView table state { state with
      workers := state.workers ++ [.spawned name]
      streams := state.streams.alter name fun _ => some ⟨schema, worker⟩ } where
  stream := OrderedMap.get?_alter_ne _ other.symm _
  writes _ := Iff.rfl
  listed := rfl
  kept located _ := ⟨_, getElem?_append_singleton_eq_some.mpr (.inl located), .refl _⟩
  known located isTable := by
    rcases getElem?_append_singleton_eq_some.mp located with stays | ⟨_, rfl⟩
    · exact ⟨_, stays, .refl _⟩
    · exact absurd isTable other
  log := rfl
  flush := rfl

theorem sameView_insertStream {name : String} {schema : Schema} (other : name ≠ table) :
    SameView table state (state.insertStream name schema) := by
  unfold State.insertStream
  split
  · refine SameView.trans (sameView_modifyWorker ?_) (sameView_append other)
    · exact fun _ _ => .inl ⟨rfl, rfl, rfl, rfl⟩
  · exact sameView_append other

/-- The action is one of a write to another table, or of a worker of another table. -/
def Elsewhere (table : String) (state : State Schema Row) : Action Schema Row → Prop
  | .write write _ => ∀ task, state.writes[write]? = some task → task.call.table ≠ table
  | .worker index _ => ∀ worker, state.workers[index]? = some worker → worker.table ≠ table
  | _ => False

/-- A step elsewhere leaves all that concerns the table as it is. -/
theorem Sound.sameView (sound : Sound sink state) {action : Action Schema Row}
    (stepped : Stepped sink state action next) (elsewhere : Elsewhere table state action) :
    SameView table state next := by
  cases stepped with
  | called => exact elsewhere.elim
  | started found phase => exact sameView_setPhase found (elsewhere _ found)
  | joined found phase => exact sameView_setPhase found (elsewhere _ found)
  | missed found phase => exact sameView_setPhase found (elsewhere _ found)
  | @taken write task subBatches stream found phase stored =>
      exact (sameView_removeStream (elsewhere _ found)).trans (sameView_setPhase found (elsewhere _ found))
  | absent found phase => exact sameView_setPhase found (elsewhere _ found)
  | @takenFailing write own task stream found phase stored =>
      exact (sameView_removeStream (elsewhere _ found)).trans (sameView_setPhase found (elsewhere _ found))
  | absentFailing found phase => exact sameView_setPhase found (elsewhere _ found)
  | closed found phase spawned status => exact sameView_join.trans (sameView_setPhase found (elsewhere _ found))
  | closedFailed found phase spawned status => exact sameView_join.trans (sameView_setPhase found (elsewhere _ found))
  | surfaced found phase spawned status => exact sameView_join.trans (sameView_setPhase found (elsewhere _ found))
  | @spawned write task schema subBatches found phase =>
      refine (sameView_insertStream (elsewhere _ found)).trans (sameView_setPhase ?_ (elsewhere _ found))
      rw [insertStream_writes]
      exact found
  | @sent write index task batch rest worker found phase spawned status =>
      obtain ⟨worker', spawned', isTable, _⟩ := sound.attached found phase
      refine SameView.trans (sameView_modifyWorker ?_) (sameView_setPhase found (elsewhere _ found))
      intro old here
      obtain rfl := Option.some.inj (here.symm.trans spawned')
      exact .inr ⟨isTable ▸ elsewhere _ found, isTable ▸ elsewhere _ found⟩
  | unsent found phase => exact sameView_setPhase found (elsewhere _ found)
  | performed found phase =>
      exact (sameView_record (elsewhere _ found)).trans (sameView_setPhase found (elsewhere _ found))
  | received spawned status => exact sameView_modifyWorker fun old here => .inr ⟨elsewhere old here, elsewhere old here⟩
  | applied spawned status =>
      refine SameView.trans (sameView_modifyWorker ?_) (sameView_record (elsewhere _ spawned))
      exact fun old here => .inr ⟨elsewhere old here, elsewhere old here⟩
  | completed spawned status => exact sameView_modifyWorker fun old here => .inr ⟨elsewhere old here, elsewhere old here⟩
  | aborted spawned status => exact sameView_modifyWorker fun old here => .inr ⟨elsewhere old here, elsewhere old here⟩
  | stopped spawned status => exact sameView_modifyWorker fun old here => .inr ⟨elsewhere old here, elsewhere old here⟩
  | drained => exact elsewhere.elim
  | undrained => exact elsewhere.elim
  | returned => exact elsewhere.elim
  | returnedFailed => exact elsewhere.elim
  | flushed => exact elsewhere.elim
  | flushedFailed => exact elsewhere.elim

end View

end Spicebench.Sink
