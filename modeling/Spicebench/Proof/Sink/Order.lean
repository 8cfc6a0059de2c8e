import Spicebench.Proof.Sink.Faithful

namespace Spicebench.Sink
open Library Etl AdbcSink AdbcTarget

variable {Schema Row : Type} {sink : AdbcSink Schema Row} {state next : State Schema Row}

section Program

variable {table : String}

theorem initial_placed : Placed table (.initial : State Schema Row) where
  single found := by simp [State.initial] at found
  place found := by simp [State.initial] at found
  referenced located := by simp [State.initial] at located
  alone located := by simp [State.initial] at located

theorem initial_lined : Lined table (.initial : State Schema Row) where
  logged := ⟨by simp [State.tableLog, State.initial], by simp [State.tableLog, State.initial]⟩
  flying located := by simp [State.initial] at located

theorem initial_faithful : Faithful sink table .initial where
  flying _ _ _ located := by simp [State.initial] at located
  settled _ _ := by simp [Balanced, State.tableLog, State.tableWrites, State.initial]

/-- What holds of a table whose writes are called one after the other. -/
structure Ordered (sink : AdbcSink Schema Row) (table : String) (state : State Schema Row) : Prop where
  sound : Sound sink state
  placed : Placed table state
  lined : Lined table state
  faithful : Faithful sink table state

theorem Ordered.of_reaches [DecidableEq Schema]
    (reached : sink.machine.ReachesWhen (sequential table) .initial state) :
    Ordered sink table state := by
  refine reached.invariant (Ordered sink table) ?_ ⟨initial_sound, initial_placed, initial_lined, initial_faithful⟩
  rintro state next ⟨sound, placed, lined, faithful⟩ ⟨action, _, allowed, isNext⟩
  have stepped := stepped_of_step isNext
  exact ⟨sound.stepped stepped, placed.stepped sound allowed stepped, lined.stepped placed sound stepped,
    faithful.stepped placed sound stepped⟩

/-- After a flush that went through, a worker of the table has ended well, or a write has failed. -/
theorem Ordered.ended (ordered : Ordered sink table state) (flushed : state.flush = .returned (.ok ()))
    (noFailure : ¬ TableFailed table state) {index : Nat} {worker : Worker Schema Row}
    (located : state.workers[index]? = some worker) (onTable : worker.table = table) :
    worker.status = .ended (.ok ()) := by
  obtain ⟨finished, absent⟩ := ordered.sound.quiet (by simp [flushed])
  by_contra notOk
  rcases ordered.placed.referenced located onTable notOk with
    ⟨stream, stored, _⟩ | ⟨write, task, found, _, waits⟩ | ⟨_, _, flushing, _⟩ | ⟨_, failed | failed⟩
  · rw [absent table] at stored
    cases stored
  · rw [Phase.awaits_of_isFinished (finished task (List.mem_of_getElem? found))] at waits
    cases waits
  · rw [flushed] at flushing
    cases flushing
  · exact noFailure failed
  · rw [flushed] at failed
    cases failed

/-- After a flush that went through, the events of the table are those of its writes. -/
theorem Ordered.complete (ordered : Ordered sink table state) (flushed : state.flush = .returned (.ok ()))
    (went : ∀ task ∈ state.tableWrites table, task.phase = .finished (.ok ())) :
    (state.tableLog table).map (·.event) =
      (state.tableWrites table).flatMap fun task => sink.expected task.call := by
  have noFailure : ¬ TableFailed table state := by
    rintro ⟨write, task, message, found, isTable, failed⟩
    have member : task ∈ state.tableWrites table :=
      List.mem_filter.mpr ⟨List.mem_of_getElem? found, decide_eq_true isTable⟩
    rw [went task member] at failed
    cases failed
  have unfailed : Unfailed table state := by
    refine ⟨noFailure, ?_⟩
    intro index worker located onTable
    rw [ordered.ended flushed noFailure located onTable]
    rfl
  have balanced := ordered.faithful.settled unfailed fun located onTable => by
    rw [ordered.ended flushed noFailure located onTable]
    simp
  have sent : (state.tableWrites table).flatMap Task.remaining = [] := by
    refine List.flatMap_eq_nil_iff.mpr fun task member => Task.remaining_of_isFinished ?_
    rw [went task member]
    rfl
  have promised : (state.tableWrites table).flatMap (Task.promised sink) =
      (state.tableWrites table).flatMap fun task => sink.expected task.call := by
    refine List.flatMap_congr fun task member => ?_
    simp [Task.promised, went task member]
  rw [Balanced, sent, List.append_nil, promised] at balanced
  exact balanced

/-- The writes to a table that are called one after the other take effect in the order of the calls,
and all of them are complete when a flush has gone through. -/
theorem program_order [DecidableEq Schema] (sink : AdbcSink Schema Row)
    (reached : sink.machine.ReachesWhen (sequential table) .initial state) :
    ((state.tableLog table).map (·.write)).Pairwise (· ≤ ·) ∧
    (state.flush = .returned (.ok ()) → (∀ task ∈ state.tableWrites table, task.phase = .finished (.ok ())) →
      (state.tableLog table).map (·.event) =
        (state.tableWrites table).flatMap fun task => sink.expected task.call) := by
  have ordered := Ordered.of_reaches reached
  exact ⟨ordered.lined.logged.ascending, fun flushed went => ordered.complete flushed went⟩

/-- The target takes over what it is given. -/
def willing : Surroundings Unit Nat where
  connection := .ok ()
  createStagingTable := .ok ()
  driver := fun _ _ _ => .ok ()
  execute := fun _ _ => .ok ()

/-- Two inserts go through one stream, which is ended before the rows are deleted. -/
def orderedRun : List (Action Unit Nat) :=
  [.call (sampleInsert "orders" [1, 2]), .write 0 .start, .write 0 .lookUp, .write 0 .remove, .write 0 .spawn,
   .write 0 .send, .worker 0 .receive, .call (sampleInsert "orders" [3]), .write 1 .start, .write 1 .lookUp,
   .write 1 .send, .call ⟨"orders", ⟨(), [1]⟩, .delete ["id"], 0⟩, .write 2 .start, .write 2 .remove,
   .worker 0 .apply, .worker 0 .receive, .worker 0 .apply, .worker 0 .complete, .write 2 .await,
   .write 2 (.perform willing), .drain [], .awaitFlush]

/-- The rows of a write that returned without an error. -/
def Task.written (task : Task Unit Nat) : Option (List Nat) :=
  match task.phase with
  | .finished (.ok ()) => some task.call.batch.rows
  | _ => none

theorem Task.finished_of_written {task : Task Unit Nat} {rows : List Nat} (written : task.written = some rows) :
    task.phase = .finished (.ok ()) := by
  unfold Task.written at written
  split at written
  · assumption
  · cases written

/-- This reads off a state whether its flush went through, which rows were written, and what happened. -/
def outcome (state : State Unit Nat) : Bool × List (Option (List Nat)) × List (Event Nat) :=
  (match state.flush with
    | .returned (.ok ()) => true
    | _ => false,
   (state.tableWrites "orders").map Task.written, (state.tableLog "orders").map (·.event))

theorem program_order_sample : ∃ state, sampleSink.machine.ReachesWhen (sequential "orders") .initial state ∧
    state.flush = .returned (.ok ()) ∧ (∀ task ∈ state.tableWrites "orders", task.phase = .finished (.ok ())) ∧
    ((state.tableLog "orders").map (·.write)).Pairwise (· ≤ ·) ∧
    ((state.tableWrites "orders").flatMap fun task => sampleSink.expected task.call) =
      [.row 1, .row 2, .row 3, .statement "DELETE FROM orders"] := by
  have ran : (sampleSink.machine.runWhen (sequential "orders") .initial orderedRun).map outcome =
      some (true, [some [1, 2], some [3], some [1]],
        [.row 1, .row 2, .row 3, .statement "DELETE FROM orders"]) := by decide
  obtain ⟨state, isState, isOutcome⟩ := Option.map_eq_some_iff.mp ran
  have reached := sampleSink.machine.reachesWhen_of_runWhen (fun _ _ => trivial) isState
  have flushed : state.flush = .returned (.ok ()) := by
    have first := congrArg Prod.fst isOutcome
    simp only [outcome] at first
    split at first
    · assumption
    · cases first
  have went : ∀ task ∈ state.tableWrites "orders", task.phase = .finished (.ok ()) := by
    intro task member
    have listed : task.written ∈ (state.tableWrites "orders").map Task.written := List.mem_map_of_mem member
    have writes : (state.tableWrites "orders").map Task.written = [some [1, 2], some [3], some [1]] :=
      congrArg (fun whole => whole.2.1) isOutcome
    rw [writes, List.mem_cons, List.mem_cons, List.mem_singleton] at listed
    rcases listed with first | second | third
    · exact Task.finished_of_written first
    · exact Task.finished_of_written second
    · exact Task.finished_of_written third
  obtain ⟨ascending, complete⟩ := program_order sampleSink reached
  refine ⟨state, reached, flushed, went, ascending, ?_⟩
  rw [← complete flushed went]
  exact congrArg (fun whole => whole.2.2) isOutcome

end Program

end Spicebench.Sink
