import Spicebench.Proof.Dataset.Tpch
import Mathlib.Data.List.Flatten

namespace Spicebench.DataGeneration

open Library Changes

variable {Key Data : Type} [DecidableEq Key]

omit [DecidableEq Key] in
theorem taken_sublist_flatten {Item : Type} (parts : List (List Item)) (size count : Nat) :
    ((parts.take count).flatMap (List.take size)).Sublist parts.flatten := by
  have taken : ((parts.take count).flatMap (List.take size)).Sublist ((parts.take count).flatMap id) :=
    .flatMap_right _ fun _ _ => List.take_sublist _ _
  rw [List.flatMap_id] at taken
  exact taken.trans (List.take_sublist count parts).flatten

namespace TpchDataset

variable (dataset : TpchDataset) (gen : TpchGen Key Data)

/-- What the batch of one step holds. -/
structure Emitted (table : TpchTable) (step : Nat) (batch : RecordBatch Key Data)
    (changes : Changes Key Data) (opBase : Int) : Prop where
  shape : batch = changes.batch opBase
  creates : changes.creates = dataset.createsOf gen table step
  base : dataset.inMutationPhase table step = false → changes.creates ≠ []
  calm : dataset.mutations.zeroRatios = true → dataset.inMutationPhase table step = false →
    changes.updates = [] ∧ changes.deletes = []
  nonempty : changes.tagged ≠ []

/-- The batches of a table come from consecutive steps, and it finishes at the end of its base
steps or at an empty part. -/
structure Steps (state : GeneratorState TpchTable (TpchState Key) Key Data) (table : TpchTable) :
    Prop where
  count : state.failed = false → state.finished table = false →
    (state.dataset.tables table).step.toNat = (state.emitted table).length
  bound : (state.emitted table).length ≤ dataset.totalSteps table
  batches : ∀ step batch, (state.emitted table)[step]? = some batch →
    ∃ changes opBase, dataset.Emitted gen table step batch changes opBase
  ended : state.finished table = true → dataset.baseSteps table ≤ (state.emitted table).length ∨
    dataset.createsOf gen table (state.emitted table).length = []

variable {dataset gen}

theorem rawNextBatch_some {state next : TpchState Key} {table : TpchTable}
    {draws : TpchDraws Data} {batch : RecordBatch Key Data}
    (called : dataset.rawNextBatch gen state table draws = (.ok (some batch), next)) :
    ∃ changes progress,
      dataset.NextChanges gen table (state.tables table) progress changes ∧
        batch = changes.batch state.opCounter ∧
        next.tables = Function.update state.tables table progress := by
  unfold rawNextBatch at called
  dsimp only at called
  injection called with outcome after
  cases result : (dataset.nextChanges gen table (state.tables table) draws).1 with
  | error failure =>
      rw [result] at outcome
      exact nomatch outcome
  | ok changes? =>
      cases changes? with
      | none =>
          rw [result] at outcome
          exact nomatch outcome
      | some changes =>
          rw [result] at outcome
          injection outcome with outcome
          injection outcome with outcome
          refine ⟨changes, (dataset.nextChanges gen table (state.tables table) draws).2, ?_,
            outcome.symm, ?_⟩
          · exact @nextChanges_some _ _ _ _ _ _ _ _ draws _ (by rw [← result])
          · rw [← after]

theorem rawNextBatch_none {state next : TpchState Key} {table : TpchTable} {draws : TpchDraws Data}
    (called : dataset.rawNextBatch gen state table draws = (.ok none, next)) :
    ∃ progress, dataset.NextNone gen table (state.tables table) progress ∧
      next.tables = Function.update state.tables table progress := by
  unfold rawNextBatch at called
  dsimp only at called
  injection called with outcome after
  cases result : (dataset.nextChanges gen table (state.tables table) draws).1 with
  | error failure =>
      rw [result] at outcome
      exact nomatch outcome
  | ok changes? =>
      cases changes? with
      | some changes =>
          rw [result] at outcome
          exact nomatch outcome
      | none =>
          refine ⟨(dataset.nextChanges gen table (state.tables table) draws).2, ?_, ?_⟩
          · exact @nextChanges_none _ _ _ _ _ _ _ _ draws (by rw [← result])
          · rw [← after]

/-- A call keeps the step count of its table, and touches no other table. -/
theorem Steps.move {state next : GeneratorState TpchTable (TpchState Key) Key Data}
    {called : TpchTable} {draws : TpchDraws Data} (running : state.failed = false)
    (unfinished : state.finished called = false)
    (move : GeneratorMove (dataset.tpch gen) state called draws next) (table : TpchTable)
    (steps : dataset.Steps gen state table) : dataset.Steps gen next table := by
  by_cases same : table = called
  · subst same
    have count := steps.count running unfinished
    cases move with
    | batch batch after call =>
        obtain ⟨changes, progress, spec, shape, tables⟩ := rawNextBatch_some call
        have below := dataset.totalSteps_lt table
        have within := spec.within
        constructor
        · intro _ _
          simp only [tables, Function.update_self, spec.step, List.length_append,
            List.length_singleton, UInt16.toNat_add, UInt16.toNat_one]
          omega
        · simp only [Function.update_self, List.length_append, List.length_singleton]
          omega
        · intro step other found
          simp only [Function.update_self, List.getElem?_append] at found
          split at found
          · exact steps.batches step other found
          · rw [List.getElem?_singleton] at found
            split at found
            · have here : step = (state.dataset.tables table).step.toNat := by omega
              injection found with found
              subst found here
              exact ⟨changes, state.dataset.opCounter, shape, spec.creates, spec.base, spec.calm,
                spec.nonempty⟩
            · exact nomatch found
        · intro finished
          rw [unfinished] at finished
          exact nomatch finished
    | finish after call =>
        obtain ⟨progress, spec, tables⟩ := rawNextBatch_none call
        constructor
        · intro _ finished
          simp at finished
        · exact steps.bound
        · exact steps.batches
        · intro _
          rw [← count]
          exact spec.reason
    | fail failure after call =>
        exact ⟨fun healthy => (nomatch healthy), steps.bound, steps.batches, steps.ended⟩
  · cases move with
    | batch batch after call =>
        obtain ⟨changes, progress, spec, shape, tables⟩ := rawNextBatch_some call
        constructor
        · simpa only [tables, Function.update_of_ne same] using steps.count
        · simpa only [Function.update_of_ne same] using steps.bound
        · simpa only [Function.update_of_ne same] using steps.batches
        · simpa only [Function.update_of_ne same] using steps.ended
    | finish after call =>
        obtain ⟨progress, spec, tables⟩ := rawNextBatch_none call
        constructor
        · simpa only [tables, Function.update_of_ne same] using steps.count
        · exact steps.bound
        · exact steps.batches
        · simpa only [Function.update_of_ne same] using steps.ended
    | fail failure after call =>
        exact ⟨fun healthy => (nomatch healthy), steps.bound, steps.batches, steps.ended⟩

theorem steps_of_generates {state : GeneratorState TpchTable (TpchState Key) Key Data}
    (generated : Generates (dataset.tpch gen) state) (table : TpchTable) :
    dataset.Steps gen state table := by
  refine generated.invariant (fun state => ∀ table, dataset.Steps gen state table) ?_ ?_ table
  · intro table
    refine ⟨fun _ _ => rfl, Nat.zero_le _, ?_, ?_⟩
    · intro step batch found
      exact nomatch found
    · intro finished
      exact nomatch finished
  · intro before called draws after running unfinished move steps table
    exact Steps.move running unfinished move table (steps table)

omit [DecidableEq Key] in
theorem createdRows_eq {table : TpchTable} {batches : List (RecordBatch Key Data)}
    (emitted : ∀ step batch, batches[step]? = some batch →
      ∃ changes opBase, dataset.Emitted gen table step batch changes opBase) :
    createdRows batches = (List.range batches.length).flatMap (dataset.createsOf gen table) := by
  induction batches using List.reverseRecOn with
  | nil => rfl
  | append_singleton batches batch ih =>
      obtain ⟨changes, opBase, last⟩ := emitted batches.length batch (by simp)
      have earlier : ∀ step batch, batches[step]? = some batch →
          ∃ changes opBase, dataset.Emitted gen table step batch changes opBase := by
        intro step other found
        apply emitted step other
        rw [List.getElem?_append_left (List.getElem?_eq_some_iff.mp found).1, found]
      rw [createdRows_append, ih earlier, List.length_append, List.length_singleton,
        List.range_succ, List.flatMap_append, List.flatMap_singleton, ← last.creates, last.shape]
      exact congrArg _ (changes.createdRows_batch opBase)

omit [DecidableEq Key] in
/-- A step emits creates from its own part only, and at most the expected rows of the table. -/
theorem createsOf_eq {table : TpchTable} {step : Nat} (within : step < dataset.totalSteps table) :
    dataset.createsOf gen table step = ((dataset.parts gen table)[step]?.toList).flatMap
      (List.take (table.totalRowsForTable dataset.scaleFactor)) := by
  have phase := dataset.inMutationPhase_iff within
  unfold createsOf
  split
  · rename_i mutating
    have beyond : (dataset.parts gen table)[step]? = none := by
      apply List.getElem?_eq_none
      simpa [parts] using phase.mp mutating
    rw [beyond]
    rfl
  · rename_i base
    have inside : step < dataset.baseSteps table := by
      rw [phase] at base
      omega
    simp only [parts, List.getElem?_map, List.getElem?_range inside, Option.map_some,
      Option.toList_some, List.flatMap_singleton]
    rfl

omit [DecidableEq Key] in
theorem flatMap_createsOf {table : TpchTable} {count : Nat}
    (bound : count ≤ dataset.totalSteps table) :
    (List.range count).flatMap (dataset.createsOf gen table) =
      ((dataset.parts gen table).take count).flatMap
        (List.take (table.totalRowsForTable dataset.scaleFactor)) := by
  induction count with
  | zero => rfl
  | succ count ih =>
      rw [List.range_succ, List.flatMap_append, List.flatMap_singleton, ih (by omega),
        createsOf_eq (by omega), List.take_add_one, List.flatMap_append]

end TpchDataset

end Spicebench.DataGeneration
