import Spicebench.Construction.Sink.StagingMerge
import Spicebench.Proof.Sink.Updates

namespace Spicebench.Sink

open Library

variable {Value : Type} {count : Nat}

/-- The name of a staging table is longer than that of its target. -/
theorem stagingTable_ne (tableName : String) (millis : Nat) : stagingTable tableName millis ≠ tableName := by
  intro same
  have longer := congrArg String.length same
  have separator : "_".length = 1 := rfl
  unfold stagingTable at longer
  generalize "_spicebench_stg_" = lead at longer
  rw [String.length_append, String.length_append, String.length_append] at longer
  change lead.length + tableName.length + "_".length + _ = tableName.length at longer
  omega

namespace StagingUpdate

variable (update : StagingUpdate Value count)

section Merges

/-- An update without key columns or without other columns is rejected. -/
def rejects (call : Fin count) : Bool :=
  update.keyColumns.isEmpty || (nonKeyNames (update.batches call) update.keyColumns).isEmpty

variable {update}

theorem mergeSql_rejects {call : Fin count} (rejected : update.rejects call = true) (staging : String) :
    ∃ message, update.mergeSql call staging = .error message := by
  rw [mergeSql]
  by_cases keyed : update.keyColumns = []
  · exact ⟨"Update requires at least one key column", by rw [keyed]; rfl⟩
  · rw [exists_error_iff]
    rintro ⟨merge, built⟩
    obtain ⟨other, -⟩ := (stagingMergeSql_eq_ok_iff keyed).mp built
    rw [← nonKeyNames_eq_nil_iff] at other
    simp [rejects, keyed, other] at rejected

theorem mergeSql_accepts {call : Fin count} (accepted : update.rejects call = false) (staging : String) :
    ∃ target source, update.mergeSql call staging =
      .ok (.mergeInto target source update.keyColumns (nonKeyNames (update.batches call) update.keyColumns)) := by
  rw [rejects, Bool.or_eq_false_iff, List.isEmpty_eq_false_iff, List.isEmpty_eq_false_iff] at accepted
  obtain ⟨keyed, other⟩ := accepted
  refine ⟨_, _, (stagingMergeSql_eq_ok_iff keyed).mpr ⟨?_, rfl⟩⟩
  rwa [← nonKeyNames_eq_nil_iff]

variable [DecidableEq Value]

/-- The merge of a call depends on its batch alone. -/
theorem mergeRows_eq (call : Fin count) (staging : String) (staged table : List (TableRow Value)) :
    update.mergeRows call staging staged table = if update.rejects call then none else
      Sql.mergeInto (sameKey update.keyColumns) (assignFrom (nonKeyNames (update.batches call) update.keyColumns))
        staged table := by
  cases rejected : update.rejects call with
  | true =>
      obtain ⟨message, failed⟩ := mergeSql_rejects rejected staging
      rw [mergeRows, failed, if_pos rfl]
  | false =>
      obtain ⟨target, source, built⟩ := mergeSql_accepts rejected staging
      rw [mergeRows, built, if_neg Bool.false_ne_true]
      exact if_neg (Bool.eq_false_iff.mp rejected)

theorem sameKey_assignFrom (keyColumns : List String) (batch : CellBatch Value) (row other later : TableRow Value) :
    sameKey keyColumns (assignFrom (nonKeyNames batch keyColumns) row other) later = sameKey keyColumns row later := by
  unfold sameKey
  refine congrArg Sql.Truth.all (List.map_congr_left fun key member => ?_)
  rw [assignFrom_key member]

variable (update) in
/-- The table after the merge of the whole batch of a call. -/
def mergeBatch (table : Option (List (TableRow Value))) (call : Fin count) : Option (List (TableRow Value)) :=
  table.bind (update.mergeRows call update.tableName (update.batches call).staged)

/-- Merges of batches without a common key can change places. -/
theorem mergeBatch_comm (disjoint : update.Disjoint) (table : Option (List (TableRow Value)))
    (one other : Fin count) :
    update.mergeBatch (update.mergeBatch table one) other = update.mergeBatch (update.mergeBatch table other) one := by
  by_cases same : one = other
  · rw [same]
  cases table with
  | none => rfl
  | some rows =>
      have apart : ∀ first ∈ (update.batches one).staged, ∀ second ∈ (update.batches other).staged, ∀ row,
          sameKey update.keyColumns row first = .yes → sameKey update.keyColumns row second ≠ .yes := by
        intro first inside second within row matched also
        apply disjoint one other same first inside second within
        apply List.map_congr_left
        intro key member
        rw [← (sameKey_eq_yes.mp matched key member).1, (sameKey_eq_yes.mp also key member).1]
      have swapped := Sql.mergeInto_comm (sameKey_assignFrom update.keyColumns (update.batches one))
        (sameKey_assignFrom update.keyColumns (update.batches other)) apart rows
      simp only [mergeBatch, Option.bind_some, funext (mergeRows_eq _ _ _)]
      cases update.rejects one <;> cases update.rejects other <;> simp [swapped]

/-- The order of merges without a common key does not matter. -/
theorem mergeBatch_perm (disjoint : update.Disjoint) {order other : List (Fin count)} (same : order.Perm other)
    (table : Option (List (TableRow Value))) :
    order.foldl update.mergeBatch table = other.foldl update.mergeBatch table :=
  same.foldl_eq' (fun one _ later _ table => mergeBatch_comm disjoint table one later) table

end Merges

section Runs

/-- The staging table and what is left of the batch make up the batch. -/
def Holds (staged : List (TableRow Value)) (table : Option (List (TableRow Value))) : MergePhase Value → Prop
  | .named _ => table = none
  | .ingesting _ rest => table.getD [] ++ rest = staged
  | _ => True

/-- Each running call has a staging table of its own, which is not the target. -/
structure Isolated (state : MergeState Value count) : Prop where
  apart : ∀ one other staging, (state.phases one).staging? = some staging →
    (state.phases other).staging? = some staging → one = other
  foreign : ∀ call staging, (state.phases call).staging? = some staging → staging ≠ update.tableName
  holds : ∀ call staging, (state.phases call).staging? = some staging →
    Holds (update.batches call).staged (state.database staging) (state.phases call)

variable {update}

/-- A call that touches only its own staging table and the target leaves the others alone. -/
theorem Isolated.move {state : MergeState Value count} (isolated : update.Isolated state) {call : Fin count}
    {phase : MergePhase Value} {database : Database Value}
    (own : ∀ staging, phase.staging? = some staging → (state.phases call).staging? = some staging ∨
      staging ≠ update.tableName ∧ ∀ other, (state.phases other).staging? ≠ some staging)
    (frame : ∀ name, (state.phases call).staging? ≠ some name → name ≠ update.tableName →
      database name = state.database name)
    (holds : ∀ staging, phase.staging? = some staging → Holds (update.batches call).staged (database staging) phase) :
    update.Isolated ⟨database, Function.update state.phases call phase⟩ := by
  have alone : ∀ other, other ≠ call → ∀ staging, (state.phases other).staging? = some staging →
      phase.staging? ≠ some staging := by
    intro other differ staging used also
    rcases own staging also with before | ⟨-, unused⟩
    · exact differ (isolated.apart other call staging used before)
    · exact unused other used
  constructor
  · intro one other staging used also
    dsimp only at used also
    by_cases first : one = call <;> by_cases second : other = call
    · rw [first, second]
    · rw [first, Function.update_self] at used
      rw [Function.update_of_ne second] at also
      exact absurd used (alone other second staging also)
    · rw [Function.update_of_ne first] at used
      rw [second, Function.update_self] at also
      exact absurd also (alone one first staging used)
    · rw [Function.update_of_ne first] at used
      rw [Function.update_of_ne second] at also
      exact isolated.apart one other staging used also
  · intro other staging used
    dsimp only at used
    by_cases same : other = call
    · rw [same, Function.update_self] at used
      rcases own staging used with before | ⟨foreign, -⟩
      · exact isolated.foreign call staging before
      · exact foreign
    · rw [Function.update_of_ne same] at used
      exact isolated.foreign other staging used
  · intro other staging used
    dsimp only at used ⊢
    by_cases same : other = call
    · subst same
      rw [Function.update_self] at used ⊢
      exact holds staging used
    · rw [Function.update_of_ne same] at used ⊢
      have others : (state.phases call).staging? ≠ some staging := by
        intro also
        exact same (isolated.apart other call staging used also)
      rw [frame staging others (isolated.foreign other staging used)]
      exact isolated.holds other staging used

variable [DecidableEq Value]

variable (update) in
/-- The target is what the merges have made of it in the order in which they went through. -/
def Ordered (database : Database Value) (state : MergeState Value count) : Prop :=
  ∃ order : List (Fin count), order.Nodup ∧ (∀ call, call ∈ order ↔ (state.phases call).merged = true) ∧
    order.foldl update.mergeBatch (database update.tableName) = state.database update.tableName ∧
    (order ≠ [] → (state.database update.tableName).isSome)

theorem Ordered.move {initial database : Database Value} {state : MergeState Value count}
    (ordered : update.Ordered initial state) {call : Fin count} {phase : MergePhase Value}
    (merged : phase.merged = (state.phases call).merged)
    (table : database update.tableName = state.database update.tableName) :
    update.Ordered initial ⟨database, Function.update state.phases call phase⟩ := by
  obtain ⟨order, distinct, members, made, present⟩ := ordered
  refine ⟨order, distinct, ?_, made.trans table.symm, ?_⟩
  · intro other
    rw [members]
    dsimp only
    by_cases same : other = call
    · rw [same, Function.update_self, merged]
    · rw [Function.update_of_ne same]
  · intro filled
    exact (congrArg Option.isSome table).trans (present filled)

/-- The merge of a call comes after all those that went through before. -/
theorem Ordered.merge {initial database : Database Value} {state : MergeState Value count}
    (ordered : update.Ordered initial state) {call : Fin count} {phase : MergePhase Value}
    (before : (state.phases call).merged = false) (after : phase.merged = true) {rows : List (TableRow Value)}
    (made : update.mergeBatch (state.database update.tableName) call = some rows)
    (table : database update.tableName = some rows) :
    update.Ordered initial ⟨database, Function.update state.phases call phase⟩ := by
  obtain ⟨order, distinct, members, earlier, -⟩ := ordered
  refine ⟨order ++ [call], ?_, ?_, ?_, ?_⟩
  · rw [List.nodup_append_comm, List.singleton_append, List.nodup_cons, members, before]
    exact ⟨Bool.false_ne_true, distinct⟩
  · intro other
    rw [List.mem_append, List.mem_singleton, members]
    by_cases same : other = call
    · simp [same, after]
    · simp [same]
  · rw [List.foldl_append, earlier, List.foldl_cons, List.foldl_nil, made]
    exact table.symm
  · intro _
    exact Option.isSome_of_eq_some table

end Runs

section Steps

variable [DecidableEq Value]

/-- What a step that takes a fresh name can do to the phase of a call and to the tables. -/
inductive CallStep (state : MergeState Value count) (call : Fin count) : MergePhase Value → Database Value → Prop
  | rejected (message : String) (before : state.phases call = .waiting) :
      CallStep state call (.returned (.error message)) state.database
  | named (staging : String) (before : state.phases call = .waiting) (foreign : staging ≠ update.tableName)
      (unused : state.database staging = none) (others : ∀ other, (state.phases other).staging? ≠ some staging) :
      CallStep state call (.named staging) state.database
  | started (staging : String) (before : state.phases call = .waiting) (foreign : staging ≠ update.tableName)
      (unused : state.database staging = none) (others : ∀ other, (state.phases other).staging? ≠ some staging) :
      CallStep state call (.ingesting staging (update.batches call).staged) state.database
  | created (staging : String) (emptied : Bool) (before : state.phases call = .named staging) :
      CallStep state call (.ingesting staging (update.batches call).staged)
        (if emptied then Function.update state.database staging (some []) else state.database)
  | notCreated (staging message : String) (emptied : Bool) (before : state.phases call = .named staging) :
      CallStep state call (.returned (.error message))
        (if emptied then Function.update state.database staging (some []) else state.database)
  | ingested (staging : String) (rest : List (TableRow Value)) (taken : Nat)
      (before : state.phases call = .ingesting staging rest) :
      CallStep state call (.ingesting staging (rest.drop taken))
        (Function.update state.database staging (some ((state.database staging).getD [] ++ rest.take taken)))
  | failed (staging message : String) (rest : List (TableRow Value))
      (before : state.phases call = .ingesting staging rest) :
      CallStep state call (.dropping staging (.error message)) state.database
  | merged (staging : String) (staged table rows : List (TableRow Value))
      (before : state.phases call = .ingesting staging []) (source : state.database staging = some staged)
      (target : state.database update.tableName = some table)
      (made : update.mergeRows call staging staged table = some rows) :
      CallStep state call (.dropping staging (.ok ())) (Function.update state.database update.tableName (some rows))
  | dropped (staging : String) (result : Except String Unit) (left : Bool)
      (before : state.phases call = .dropping staging result) :
      CallStep state call (.returned result)
        (if left then state.database else Function.update state.database staging none)

variable {update}

theorem step_cases {state next : MergeState Value count} {action : MergeAction count}
    (fresh : update.fresh state action = true) (stepped : update.step state action = some next) :
    ∃ call phase database, update.CallStep state call phase database ∧
      next = ⟨database, Function.update state.phases call phase⟩ := by
  cases action with
  | start call millis =>
      simp only [StagingUpdate.fresh, Bool.and_eq_true, List.all_eq_true, decide_eq_true_eq,
        Option.isNone_iff_eq_none] at fresh
      have others := fun other => fresh.2 other (List.mem_finRange other)
      simp only [step] at stepped
      split at stepped <;> try contradiction
      rename_i before
      split at stepped
      · exact ⟨call, _, _, .rejected _ before, (Option.some.inj stepped).symm⟩
      · split at stepped
        · exact ⟨call, _, _, .named _ before (stagingTable_ne _ _) fresh.1 others, (Option.some.inj stepped).symm⟩
        · exact ⟨call, _, _, .started _ before (stagingTable_ne _ _) fresh.1 others, (Option.some.inj stepped).symm⟩
  | create call emptied answer =>
      simp only [step] at stepped
      split at stepped <;> try contradiction
      rename_i staging before
      have made : ∀ phase : MergePhase Value,
          (if emptied then state.store staging (some []) else state).move call phase =
            ⟨if emptied then Function.update state.database staging (some []) else state.database,
              Function.update state.phases call phase⟩ := by
        intro phase
        cases emptied <;> rfl
      split at stepped
      · exact ⟨call, _, _, .created staging emptied before, (Option.some.inj stepped).symm.trans (made _)⟩
      · exact ⟨call, _, _, .notCreated staging _ emptied before, (Option.some.inj stepped).symm.trans (made _)⟩
  | ingest call taken =>
      simp only [step] at stepped
      split at stepped <;> try contradiction
      rename_i staging rest before
      exact ⟨call, _, _, .ingested staging rest taken before, (Option.some.inj stepped).symm⟩
  | failIngest call message =>
      simp only [step] at stepped
      split at stepped <;> try contradiction
      rename_i staging rest before
      exact ⟨call, _, _, .failed staging _ rest before, (Option.some.inj stepped).symm⟩
  | merge call answer =>
      simp only [step] at stepped
      split at stepped <;> try contradiction
      rename_i staging before
      split at stepped
      · exact ⟨call, _, _, .failed staging _ [] before, (Option.some.inj stepped).symm⟩
      · obtain ⟨staged, source, stepped⟩ := Option.bind_eq_some_iff.mp stepped
        obtain ⟨table, target, stepped⟩ := Option.bind_eq_some_iff.mp stepped
        obtain ⟨rows, made, stepped⟩ := Option.bind_eq_some_iff.mp stepped
        exact ⟨call, _, _, .merged staging staged table rows before source target made, (Option.some.inj stepped).symm⟩
  | drop call answer =>
      simp only [step] at stepped
      split at stepped <;> try contradiction
      rename_i staging result before
      split at stepped
      · exact ⟨call, _, _, .dropped staging result false before, (Option.some.inj stepped).symm⟩
      · exact ⟨call, _, _, .dropped staging result true before, (Option.some.inj stepped).symm⟩

namespace CallStep

variable {state : MergeState Value count} {call : Fin count} {phase : MergePhase Value} {database : Database Value}

theorem own (step : update.CallStep state call phase database) {staging : String}
    (used : phase.staging? = some staging) : (state.phases call).staging? = some staging ∨
      staging ≠ update.tableName ∧ ∀ other, (state.phases other).staging? ≠ some staging := by
  cases step with
  | rejected message before => cases used
  | named name before foreign unused others =>
      obtain rfl := Option.some.inj used
      exact Or.inr ⟨foreign, others⟩
  | started name before foreign unused others =>
      obtain rfl := Option.some.inj used
      exact Or.inr ⟨foreign, others⟩
  | created name emptied before => exact Or.inl (before ▸ used)
  | notCreated name message emptied before => cases used
  | ingested name rest taken before => exact Or.inl (before ▸ used)
  | failed name message rest before => exact Or.inl (before ▸ used)
  | merged name staged table rows before source target made => exact Or.inl (before ▸ used)
  | dropped name result left before => cases used

/-- The step touches only the staging table of the call and the target. -/
theorem frame (step : update.CallStep state call phase database) {name : String}
    (other : (state.phases call).staging? ≠ some name) (foreign : name ≠ update.tableName) :
    database name = state.database name := by
  have store {staging : String} (used : (state.phases call).staging? = some staging)
      (rows : Option (List (TableRow Value))) :
      Function.update state.database staging rows name = state.database name := by
    apply Function.update_of_ne
    rintro rfl
    exact other used
  cases step with
  | rejected message before => rfl
  | named staging before foreign unused others => rfl
  | started staging before foreign unused others => rfl
  | created staging emptied before =>
      cases emptied with
      | false => rfl
      | true => exact store (before ▸ rfl) _
  | notCreated staging message emptied before =>
      cases emptied with
      | false => rfl
      | true => exact store (before ▸ rfl) _
  | ingested staging rest taken before => exact store (before ▸ rfl) _
  | failed staging message rest before => rfl
  | merged staging staged table rows before source target made => exact Function.update_of_ne foreign _ _
  | dropped staging result left before =>
      cases left with
      | true => rfl
      | false => exact store (before ▸ rfl) _

theorem holds (step : update.CallStep state call phase database) (isolated : update.Isolated state) {staging : String}
    (used : phase.staging? = some staging) : Holds (update.batches call).staged (database staging) phase := by
  cases step with
  | rejected message before => cases used
  | named name before foreign unused others =>
      obtain rfl := Option.some.inj used
      exact unused
  | started name before foreign unused others =>
      obtain rfl := Option.some.inj used
      rw [Holds, unused, Option.getD_none, List.nil_append]
  | created name emptied before =>
      obtain rfl := Option.some.inj used
      have unfilled := isolated.holds call name (before ▸ rfl)
      rw [before, Holds] at unfilled
      cases emptied <;> simp [Holds, unfilled]
  | notCreated name message emptied before => cases used
  | ingested name rest taken before =>
      obtain rfl := Option.some.inj used
      have filled := isolated.holds call name (before ▸ rfl)
      rw [before, Holds] at filled
      rw [Function.update_self, Holds, Option.getD_some, List.append_assoc, List.take_append_drop, filled]
  | failed name message rest before => trivial
  | merged name staged table rows before source target made => trivial
  | dropped name result left before => cases used

/-- The merge of a call reads its whole batch and no other rows. -/
theorem ordered (step : update.CallStep state call phase database) (isolated : update.Isolated state)
    {initial : Database Value} (ordered : update.Ordered initial state) :
    update.Ordered initial ⟨database, Function.update state.phases call phase⟩ := by
  have store {staging : String} (used : (state.phases call).staging? = some staging)
      (rows : Option (List (TableRow Value))) :
      Function.update state.database staging rows update.tableName = state.database update.tableName :=
    Function.update_of_ne (isolated.foreign call staging used).symm _ _
  cases step with
  | rejected message before => exact ordered.move (by rw [before]; rfl) rfl
  | named staging before foreign unused others => exact ordered.move (by rw [before]; rfl) rfl
  | started staging before foreign unused others => exact ordered.move (by rw [before]; rfl) rfl
  | created staging emptied before =>
      apply ordered.move (by rw [before]; rfl)
      cases emptied with
      | false => rfl
      | true => exact store (before ▸ rfl) _
  | notCreated staging message emptied before =>
      apply ordered.move (by rw [before]; rfl)
      cases emptied with
      | false => rfl
      | true => exact store (before ▸ rfl) _
  | ingested staging rest taken before => exact ordered.move (by rw [before]; rfl) (store (before ▸ rfl) _)
  | failed staging message rest before => exact ordered.move (by rw [before]; rfl) rfl
  | merged staging staged table rows before source target made =>
      have filled := isolated.holds call staging (before ▸ rfl)
      rw [before, Holds, source, Option.getD_some, List.append_nil] at filled
      have whole : update.mergeBatch (state.database update.tableName) call = some rows := by
        rw [target, mergeBatch, Option.bind_some, ← made, filled, mergeRows_eq, mergeRows_eq]
      exact ordered.merge (by rw [before]; rfl) rfl whole (Function.update_self _ _ _)
  | dropped staging result left before =>
      apply ordered.move (by rw [before]; cases result <;> rfl)
      cases left with
      | true => rfl
      | false => exact store (before ▸ rfl) _

end CallStep

/-- As long as the names are fresh, the calls stay apart and the target is what their merges make of it. -/
theorem reached_consistent {initial : Database Value} {final : MergeState Value count}
    (reached : update.machine.ReachesWhen update.fresh (.spawned initial) final) :
    update.Isolated final ∧ update.Ordered initial final := by
  apply Machine.ReachesWhen.invariant (fun state => update.Isolated state ∧ update.Ordered initial state) ?_ reached
  · refine ⟨⟨?_, ?_, ?_⟩, [], List.nodup_nil, ?_, rfl, ?_⟩
    · intro one other staging used
      cases used
    · intro call staging used
      cases used
    · intro call staging used
      cases used
    · simp [MergeState.spawned, MergePhase.merged]
    · exact fun filled => absurd rfl filled
  · rintro state next ⟨isolated, ordered⟩ ⟨action, -, fresh, stepped⟩
    obtain ⟨call, phase, database, step, rfl⟩ := step_cases fresh stepped
    exact ⟨isolated.move (fun _ used => step.own used) (fun _ other foreign => step.frame other foreign)
      fun _ used => step.holds isolated used, step.ordered isolated ordered⟩

end Steps

section Serial

variable [DecidableEq Value] {update}

/-- A call with an empty table of its own fills it, merges it and drops it. -/
theorem filling_run (state : MergeState Value count) {call : Fin count} {staging : String}
    (phase : state.phases call = .ingesting staging (update.batches call).staged)
    (empty : (state.database staging).getD [] = []) (foreign : staging ≠ update.tableName)
    {rows : List (TableRow Value)} (made : update.mergeBatch (state.database update.tableName) call = some rows) :
    update.machine.run state
        [.ingest call (update.batches call).rows.length, .merge call (.ok ()), .drop call (.ok ())] =
      some ⟨Function.update (Function.update state.database update.tableName (some rows)) staging none,
        Function.update state.phases call (.returned (.ok ()))⟩ := by
  obtain ⟨table, target, made⟩ := Option.bind_eq_some_iff.mp made
  have length : (update.batches call).rows.length = (update.batches call).staged.length := by
    rw [CellBatch.staged, List.length_map]
  have ingested : update.step state (.ingest call (update.batches call).rows.length) =
      some ((state.store staging (some (update.batches call).staged)).move call (.ingesting staging [])) := by
    simp only [step, phase, empty, length, List.take_length, List.drop_length, List.nil_append]
  have merged : update.step ((state.store staging (some (update.batches call).staged)).move call
      (.ingesting staging [])) (.merge call (.ok ())) = some ((((state.store staging
        (some (update.batches call).staged)).move call (.ingesting staging [])).store update.tableName
          (some rows)).move call (.dropping staging (.ok ()))) := by
    have source : (update.mergeRows call staging (update.batches call).staged table) = some rows := by
      rw [← made, mergeRows_eq, mergeRows_eq]
    simp [step, MergeState.move, MergeState.store, Function.update_of_ne foreign.symm, target, source]
  simp only [machine, Machine.run, List.foldlM_cons, List.foldlM_nil, ingested, merged, Option.bind_eq_bind,
    Option.bind_some]
  simp only [step, MergeState.move, MergeState.store, Function.update_self, Option.bind_some, Function.update_idem]
  rw [Function.update_comm foreign, Function.update_idem]
  rfl

theorem accepts_of_mergeBatch {call : Fin count} {table : Option (List (TableRow Value))} {rows : List (TableRow Value)}
    (made : update.mergeBatch table call = some rows) : update.rejects call = false := by
  obtain ⟨before, -, made⟩ := Option.bind_eq_some_iff.mp made
  cases rejected : update.rejects call with
  | false => rfl
  | true => simp [mergeRows_eq, rejected] at made

/-- A call that runs alone under an unused name merges its batch and leaves no table behind. -/
theorem callSteps_run {state : MergeState Value count} {call : Fin count} (waiting : state.phases call = .waiting)
    {clock : Fin count → Nat} (unused : state.database (stagingTable update.tableName (clock call)) = none)
    {rows : List (TableRow Value)} (made : update.mergeBatch (state.database update.tableName) call = some rows) :
    update.machine.run state (update.callSteps clock call) =
      some ⟨Function.update state.database update.tableName (some rows),
        Function.update state.phases call (.returned (.ok ()))⟩ := by
  have foreign := stagingTable_ne update.tableName (clock call)
  have start : update.callSteps clock call = .start call (clock call) :: _ := rfl
  generalize named : stagingTable update.tableName (clock call) = staging at unused foreign
  obtain ⟨target, source, built⟩ := mergeSql_accepts (accepts_of_mergeBatch made) staging
  have absent : Function.update state.database update.tableName (some rows) staging = none := by
    rw [Function.update_of_ne foreign, unused]
  rw [start, Machine.run_cons]
  cases adapter : update.stagingAdapter with
  | false =>
      have started : update.machine.step state (.start call (clock call)) =
          some (state.move call (.ingesting staging (update.batches call).staged)) := by
        simp [machine, step, waiting, named, built, adapter]
      rw [started, Option.bind_some, if_neg Bool.false_ne_true, List.nil_append]
      rw [filling_run (state.move call _) (Function.update_self _ _ _) (congrArg (Option.getD · []) unused) foreign
        made]
      simp only [MergeState.move, Function.update_idem]
      rw [← absent, Function.update_eq_self]
  | true =>
      have started : update.machine.step state (.start call (clock call)) =
          some (state.move call (.named staging)) := by
        simp [machine, step, waiting, named, built, adapter]
      have created : update.machine.step (state.move call (.named staging)) (.create call true (.ok ())) =
          some ((state.store staging (some [])).move call (.ingesting staging (update.batches call).staged)) := by
        simp [machine, step, MergeState.move, MergeState.store]
      rw [started, Option.bind_some, if_pos rfl, List.singleton_append, Machine.run_cons, created, Option.bind_some]
      have emptied : (state.store staging (some [])).database staging = some [] := Function.update_self _ _ _
      have kept : (state.store staging (some [])).database update.tableName = state.database update.tableName :=
        Function.update_of_ne foreign.symm _ _
      rw [filling_run ((state.store staging (some [])).move call _) (Function.update_self _ _ _)
        (congrArg (Option.getD · []) emptied) foreign (kept ▸ made)]
      simp only [MergeState.move, MergeState.store, Function.update_idem]
      rw [Function.update_comm foreign, Function.update_idem, ← absent, Function.update_eq_self]

theorem foldl_mergeBatch_none (order : List (Fin count)) : order.foldl update.mergeBatch none = none := by
  induction order with
  | nil => rfl
  | cons call rest ih => exact ih

/-- Calls that run one after the other merge their batches in that order. -/
theorem inTurn_run (state : MergeState Value count) {clock : Fin count → Nat} {order : List (Fin count)}
    (distinct : order.Nodup) (waiting : ∀ call ∈ order, state.phases call = .waiting)
    (unused : ∀ call ∈ order, state.database (stagingTable update.tableName (clock call)) = none)
    {rows : List (TableRow Value)}
    (made : order.foldl update.mergeBatch (state.database update.tableName) = some rows) :
    ∃ serial, update.machine.run state (update.inTurn clock order) = some serial ∧
      serial.database update.tableName = some rows ∧
      (∀ call, call ∈ order → serial.phases call = .returned (.ok ())) ∧
      ∀ call, call ∉ order → serial.phases call = state.phases call := by
  induction order generalizing state with
  | nil => exact ⟨state, rfl, made, by simp, fun _ _ => rfl⟩
  | cons call rest ih =>
      obtain ⟨other, later⟩ := List.nodup_cons.mp distinct
      rw [List.foldl_cons] at made
      cases first : update.mergeBatch (state.database update.tableName) call with
      | none =>
          rw [first, foldl_mergeBatch_none] at made
          cases made
      | some merged =>
          have ran := callSteps_run (waiting call List.mem_cons_self) (unused call List.mem_cons_self) first
          let after : MergeState Value count := ⟨Function.update state.database update.tableName (some merged),
            Function.update state.phases call (.returned (.ok ()))⟩
          have waits : ∀ next ∈ rest, after.phases next = .waiting := by
            intro next member
            have differ : next ≠ call := fun same => other (same ▸ member)
            exact (Function.update_of_ne differ _ _).trans (waiting next (List.mem_cons_of_mem _ member))
          have free : ∀ next ∈ rest, after.database (stagingTable update.tableName (clock next)) = none := by
            intro next member
            exact (Function.update_of_ne (stagingTable_ne _ _) _ _).trans (unused next (List.mem_cons_of_mem _ member))
          have table : after.database update.tableName = some merged := Function.update_self _ _ _
          rw [first, ← table] at made
          obtain ⟨serial, following, made, returned, kept⟩ := ih after later waits free made
          refine ⟨serial, ?_, made, ?_, ?_⟩
          · rw [inTurn, List.flatMap_cons, Machine.run_append, ran]
            exact following
          · intro next member
            by_cases same : next = call
            · rw [same, kept call other]
              exact Function.update_self _ _ _
            · exact returned next ((List.mem_cons.mp member).resolve_left same)
          · intro next outside
            rw [List.mem_cons, not_or] at outside
            rw [kept next outside.2]
            exact Function.update_of_ne outside.1 _ _

end Serial

/-- As long as each call takes a name that no table and no other running call has, calls on disjoint keys that all
return `Ok` leave the table that they leave when they run one after the other, in any order and at any time. -/
theorem calls_do_not_interfere {Value : Type} [DecidableEq Value] {count : Nat} (update : StagingUpdate Value count)
    (disjoint : update.Disjoint) (database : Database Value) {final : MergeState Value count}
    (reached : update.machine.ReachesWhen update.fresh (.spawned database) final)
    (returned : ∀ call, final.phases call = .returned (.ok ())) {order : List (Fin count)}
    (every : order.Perm (List.finRange count)) (clock : Fin count → Nat)
    (unused : ∀ call, database (stagingTable update.tableName (clock call)) = none) :
    ∃ serial, update.machine.run (.spawned database) (update.inTurn clock order) = some serial ∧
      (∀ call, serial.phases call = .returned (.ok ())) ∧
      serial.database update.tableName = final.database update.tableName := by
  obtain ⟨-, merges, distinct, members, made, present⟩ := reached_consistent reached
  have nodup : order.Nodup := every.nodup_iff.mpr (List.nodup_finRange count)
  have all : ∀ call, call ∈ order := fun call => every.mem_iff.mpr (List.mem_finRange call)
  have same : order.Perm merges := by
    apply (List.perm_ext_iff_of_nodup nodup distinct).mpr
    intro call
    rw [members, returned]
    exact ⟨fun _ => rfl, fun _ => all call⟩
  rw [← mergeBatch_perm disjoint same] at made
  by_cases none : merges = []
  · obtain rfl : order = [] := List.Perm.eq_nil (none ▸ same)
    exact ⟨.spawned database, rfl, fun call => absurd (all call) List.not_mem_nil, made⟩
  · obtain ⟨rows, table⟩ := Option.isSome_iff_exists.mp (present none)
    rw [table] at made ⊢
    obtain ⟨serial, ran, merged, ended, -⟩ :=
      inTurn_run (.spawned database) nodup (fun _ _ => rfl) (fun call _ => unused call) made
    exact ⟨serial, ran, fun call => ended call (all call), merged⟩

/-- A batch moves the row of its key to the south. -/
def sampleMove (key : String) : CellBatch String where
  fields := [⟨"id", .utf8⟩, ⟨"region", .utf8⟩]
  distinct := sampleKeys.distinct
  rows := [[some key, some "south"].get]

/-- Three calls move one row each. -/
def sampleMoves : StagingUpdate String 3 where
  target := ⟨none, none, 100⟩
  identifierQuoteChar := doubleQuote
  stagingAdapter := false
  tableName := "t"
  keyColumns := ["id"]
  batches := fun call => sampleMove (["1", "2", "3"].get call)

theorem sampleMoves_disjoint : sampleMoves.Disjoint := by
  have keys : ∀ call, (sampleMoves.batches call).staged.map (fun row => sampleMoves.keyColumns.map row) =
      [[some (["1", "2", "3"].get call)]] := by decide
  intro one other differ first inside second within same
  have left := List.mem_map_of_mem (f := fun row => sampleMoves.keyColumns.map row) inside
  have right := List.mem_map_of_mem (f := fun row => sampleMoves.keyColumns.map row) within
  rw [keys, List.mem_singleton] at left right
  rw [left, right] at same
  have apart : ∀ one other : Fin 3, one ≠ other →
      [some (["1", "2", "3"].get one)] ≠ [some (["1", "2", "3"].get other)] := by decide
  exact apart one other differ same

/-- All of the rows are in the north. -/
def sampleTables : Database String := fun name =>
  if name = "t" then some (["1", "2", "3"].map fun key => sampleRow (some key) (some "north")) else none

/-- The steps of the three calls at these times overlap. -/
def overlapping (clock : Fin 3 → Nat) : List (MergeAction 3) :=
  [.start 0 (clock 0), .start 1 (clock 1), .start 2 (clock 2), .ingest 0 1, .merge 0 (.ok ()), .ingest 1 1,
    .drop 0 (.ok ()), .ingest 2 1, .merge 1 (.ok ()), .merge 2 (.ok ()), .drop 2 (.ok ()), .drop 1 (.ok ())]

def regions (database : Database String) : Option (List (Option String)) := (database "t").map (List.map (· "region"))

/-- This tells whether all calls have returned `Ok`, and the regions in the target. -/
def outcome (state : MergeState String 3) : Bool × Option (List (Option String)) :=
  ((List.finRange 3).all fun call => match state.phases call with
    | .returned (.ok ()) => true
    | _ => false, regions state.database)

theorem returned_of_outcome {state : MergeState String 3} {found : Option (List (Option String))}
    (seen : outcome state = (true, found)) (call : Fin 3) : state.phases call = .returned (.ok ()) := by
  have every := List.all_eq_true.mp (congrArg Prod.fst seen) call (List.mem_finRange call)
  split at every
  · assumption
  · cases every

/-- Calls of different milliseconds agree with the same calls in another order. -/
theorem calls_do_not_interfere_overlapping :
    ∃ final serial,
      sampleMoves.machine.runWhen sampleMoves.fresh (.spawned sampleTables) (overlapping fun call => call) =
        some final ∧
      sampleMoves.machine.run (.spawned sampleTables) (sampleMoves.inTurn (fun _ => 1) [2, 0, 1]) = some serial ∧
      serial.database "t" = final.database "t" := by
  have seen : (sampleMoves.machine.runWhen sampleMoves.fresh (.spawned sampleTables)
      (overlapping fun call => call)).map outcome =
        some (true, some [some "south", some "south", some "south"]) := by decide
  obtain ⟨final, ran, moved⟩ := Option.map_eq_some_iff.mp seen
  obtain ⟨serial, inTurn, -, same⟩ := calls_do_not_interfere sampleMoves sampleMoves_disjoint sampleTables
    (sampleMoves.machine.reachesWhen_of_runWhen (fun _ _ => trivial) ran)
    (returned_of_outcome moved) (show [2, 0, 1].Perm (List.finRange 3) by decide) (fun _ => 1) (by decide)
  exact ⟨final, serial, ran, inTurn, same⟩

/-- The first call drops the staging table with the row of the second, which then merges the row of the third. -/
theorem calls_of_one_millisecond_interfere :
    sampleMoves.Disjoint ∧ ∃ final serial,
      sampleMoves.machine.run (.spawned sampleTables) (overlapping fun _ => 1) = some final ∧
      (∀ call, final.phases call = .returned (.ok ())) ∧
      sampleMoves.machine.run (.spawned sampleTables) (sampleMoves.inTurn (fun _ => 1) [0, 1, 2]) = some serial ∧
      (∀ call, serial.phases call = .returned (.ok ())) ∧ serial.database "t" ≠ final.database "t" := by
  have together : (sampleMoves.machine.run (.spawned sampleTables) (overlapping fun _ => 1)).map outcome =
      some (true, some [some "south", some "north", some "south"]) := by decide
  have alone : (sampleMoves.machine.run (.spawned sampleTables) (sampleMoves.inTurn (fun _ => 1) [0, 1, 2])).map
      outcome = some (true, some [some "south", some "south", some "south"]) := by decide
  obtain ⟨final, ran, moved⟩ := Option.map_eq_some_iff.mp together
  obtain ⟨serial, inTurn, others⟩ := Option.map_eq_some_iff.mp alone
  refine ⟨sampleMoves_disjoint, final, serial, ran, returned_of_outcome moved, inTurn, returned_of_outcome others, ?_⟩
  intro same
  have left : regions final.database = some [some "south", some "north", some "south"] := congrArg Prod.snd moved
  have right : regions serial.database = some [some "south", some "south", some "south"] := congrArg Prod.snd others
  have seen : regions serial.database = regions final.database := by rw [regions, regions, same]
  rw [left, right] at seen
  exact absurd seen (by decide)

end StagingUpdate

end Spicebench.Sink
