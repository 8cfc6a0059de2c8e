import Spicebench.Proof.Dataset.Changes

namespace Spicebench.DataGeneration

open Library

variable {Key Data : Type}

/-- The changes of a list of batches, in emission order. -/
def streamLog (batches : List (RecordBatch Key Data)) : KeyLog Key :=
  batches.flatMap fun batch => keyLog batch.rows

@[simp] theorem streamLog_nil : streamLog ([] : List (RecordBatch Key Data)) = [] := rfl

theorem streamLog_append (first second : List (RecordBatch Key Data)) :
    streamLog (first ++ second) = streamLog first ++ streamLog second := List.flatMap_append

@[simp] theorem streamLog_push (batches : List (RecordBatch Key Data)) (batch : RecordBatch Key Data) :
    streamLog (batches ++ [batch]) = streamLog batches ++ keyLog batch.rows := by
  simp [streamLog]

/-- The key and data of the rows that create, in emission order. -/
def createdRows (batches : List (RecordBatch Key Data)) : List (Key × Data) :=
  batches.flatMap fun batch => batch.rows.filterMap fun row =>
    if row.op = some .create then some (row.key, row.data) else none

theorem createdRows_append (first second : List (RecordBatch Key Data)) :
    createdRows (first ++ second) = createdRows first ++ createdRows second :=
  List.flatMap_append

theorem Changes.createdRows_batch (changes : Changes Key Data) (opBase : Int) :
    createdRows [changes.batch opBase] = changes.creates := by
  have tagged := changes.filterMap_rows
    (fun row => if row.op = some .create then some (row.key, row.data) else none)
    (fun entry => if entry.1 = .create then some entry.2 else none)
    (by intro op key data opIndex; simp) opBase
  simp only [createdRows, List.flatMap_singleton, Changes.batch, tagged]
  simp [Changes.tagged, List.filterMap_map, Function.comp_def]

theorem created_streamLog (batches : List (RecordBatch Key Data)) :
    (streamLog batches).created = (createdRows batches).map Prod.fst := by
  induction batches with
  | nil => rfl
  | cons batch rest ih =>
      have head : (keyLog batch.rows).created = (createdRows [batch]).map Prod.fst := by
        simp only [keyLog, KeyLog.created, createdRows, List.flatMap_singleton, List.map_filterMap,
          List.filterMap_filterMap]
        apply List.filterMap_congr
        intro row _
        unfold Row.change?
        split <;> simp_all [Change.createdKey?]
      calc (streamLog (batch :: rest)).created
          = (keyLog batch.rows).created ++ (streamLog rest).created := KeyLog.created_append _ _
        _ = (createdRows (batch :: rest)).map Prod.fst := by
            rw [head, ih, ← List.map_append, ← createdRows_append, List.singleton_append]

variable [DecidableEq Key]

/-- The emitted batches replay without a conflict to the live keys, and no batch has two mutations
of one key. -/
structure StreamValid (batches : List (RecordBatch Key Data)) (live : Finset Key) : Prop where
  valid : (streamLog batches).Valid ∅
  live : (streamLog batches).replay ∅ = live
  distinct : ∀ batch ∈ batches, (keyLog batch.rows).mutated.Nodup

theorem StreamValid.nil : StreamValid ([] : List (RecordBatch Key Data)) ∅ :=
  ⟨trivial, rfl, by simp⟩

/-- A batch of fitting changes extends a valid stream. -/
theorem StreamValid.push {batches : List (RecordBatch Key Data)} {live next : Finset Key}
    {changes : Changes Key Data} (stream : StreamValid batches live) (fit : changes.Fit live next)
    (opBase : Int) : StreamValid (batches ++ [changes.batch opBase]) next := by
  obtain ⟨valid, after⟩ := fit.valid opBase
  constructor
  · rw [streamLog_push, KeyLog.valid_append, stream.live]
    exact ⟨stream.valid, valid⟩
  · rw [streamLog_push, KeyLog.replay_append, stream.live]
    exact after
  · intro batch member
    rcases List.mem_append.mp member with earlier | last
    · exact stream.distinct batch earlier
    · rw [List.mem_singleton.mp last]
      exact (changes.mutated_keyLog opBase).symm ▸ fit.mutated

section Generator

variable {Table State Draws : Type} [DecidableEq Table]

/-- One call of the generation loop yields a batch, finishes its table or ends the generation. -/
inductive GeneratorMove (dataset : Dataset Table State Draws Key Data)
    (state : GeneratorState Table State Key Data) (table : Table) (draws : Draws) :
    GeneratorState Table State Key Data → Prop where
  | batch (batch : RecordBatch Key Data) (next : State)
      (called : dataset.rawNextBatch state.dataset table draws = (.ok (some batch), next)) :
      GeneratorMove dataset state table draws
        { state with
          dataset := next
          emitted := Function.update state.emitted table (state.emitted table ++ [batch]) }
  | finish (next : State)
      (called : dataset.rawNextBatch state.dataset table draws = (.ok none, next)) :
      GeneratorMove dataset state table draws
        { state with dataset := next, finished := Function.update state.finished table true }
  | fail (failure : Failure) (next : State)
      (called : dataset.rawNextBatch state.dataset table draws = (.error failure, next)) :
      GeneratorMove dataset state table draws { state with dataset := next, failed := true }

omit [DecidableEq Key] in
theorem generatorStep_moves {dataset : Dataset Table State Draws Key Data}
    {state next : GeneratorState Table State Key Data} {table : Table} {draws : Draws}
    (stepped : generatorStep dataset state (table, draws) = some next) :
    state.failed = false ∧ state.finished table = false ∧
      GeneratorMove dataset state table draws next := by
  unfold generatorStep at stepped
  split at stepped
  · exact nomatch stepped
  rename_i open_table
  rw [Bool.or_eq_true, not_or, Bool.not_eq_true, Bool.not_eq_true] at open_table
  refine ⟨open_table.1, open_table.2, ?_⟩
  split at stepped
  · rename_i batch after called
    cases stepped
    exact .batch batch after called
  · rename_i after called
    cases stepped
    exact .finish after called
  · rename_i failure after called
    cases stepped
    exact .fail failure after called

omit [DecidableEq Key] in
/-- What holds at the start and is kept by every call holds in every state of the generation. -/
theorem Generates.invariant {dataset : Dataset Table State Draws Key Data}
    {state : GeneratorState Table State Key Data} (generated : Generates dataset state)
    (Holds : GeneratorState Table State Key Data → Prop) (initial : Holds (generatorStart dataset))
    (kept : ∀ state table draws next, state.failed = false → state.finished table = false →
      GeneratorMove dataset state table draws next → Holds state → Holds next) : Holds state := by
  refine Machine.Reaches.invariant Holds ?_ generated initial
  rintro before after holds ⟨⟨table, draws⟩, _, stepped⟩
  obtain ⟨running, unfinished, move⟩ := generatorStep_moves stepped
  exact kept before table draws after running unfinished move holds

/-- The state after a list of calls. -/
def runCalls (dataset : Dataset Table State Draws Key Data) (calls : List (Table × Draws)) :
    Option (GeneratorState Table State Key Data) :=
  (generator dataset).run (generatorStart dataset) calls

omit [DecidableEq Key] in
theorem generates_of_runCalls {dataset : Dataset Table State Draws Key Data}
    {calls : List (Table × Draws)} {View : Type} {view : GeneratorState Table State Key Data → View}
    {final : View} (ran : (runCalls dataset calls).map view = some final) :
    ∃ state, Generates dataset state ∧ view state = final := by
  obtain ⟨state, reached, viewed⟩ := Option.map_eq_some_iff.mp ran
  exact ⟨state, Machine.reaches_of_run _ (fun _ _ => trivial) reached, viewed⟩

end Generator

end Spicebench.DataGeneration
