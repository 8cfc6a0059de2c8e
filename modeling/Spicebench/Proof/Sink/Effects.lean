import Spicebench.Proof.Sink.Streams

namespace Spicebench.Sink
open Library Etl AdbcSink AdbcTarget

variable {Schema Row : Type} {sink : AdbcSink Schema Row} {state next : State Schema Row}

section Rows

variable {first second : Attempt Schema Row} {rows others : List Row}

/-- An attempt that goes through has handed over these rows. -/
def Attempt.Yields (attempt : Attempt Schema Row) (rows : List Row) : Prop :=
  ∀ log, (attempt log).1 = .ok () → ingestedRows (attempt log).2 = ingestedRows log ++ rows

/-- An attempt that fails has handed over nothing. -/
def Attempt.FailsClean (attempt : Attempt Schema Row) : Prop :=
  ∀ log message, (attempt log).1 = .error message → ingestedRows (attempt log).2 = ingestedRows log

theorem Attempt.yields_done : (Attempt.done : Attempt Schema Row).Yields [] := by
  intro log _
  simp [done]

theorem Attempt.yields_fail {message : String} : (Attempt.fail message : Attempt Schema Row).Yields rows := by
  intro log failed
  cases failed

theorem Attempt.failsClean_fail {message : String} : (Attempt.fail message : Attempt Schema Row).FailsClean := by
  intro log _ _
  rfl

theorem Attempt.Yields.andThen (one : first.Yields rows) (other : second.Yields others) :
    (first.andThen second).Yields (rows ++ others) := by
  intro log went
  unfold Attempt.andThen at went ⊢
  rcases made : first log with ⟨result, middle⟩
  rw [made] at went
  cases result with
  | error message => cases went
  | ok value =>
      have start := one log (by rw [made])
      rw [made] at start
      rw [← List.append_assoc, ← start]
      exact other middle went

theorem Attempt.Yields.orElse {handler : String → Attempt Schema Row} (one : first.Yields rows)
    (clean : first.FailsClean) (handled : ∀ message, (handler message).Yields rows) :
    (first.orElse handler).Yields rows := by
  intro log went
  unfold Attempt.orElse at went ⊢
  have start := one log
  have failed := clean log
  rcases made : first log with ⟨result, middle⟩
  rw [made] at went start failed
  cases result with
  | ok value => exact start rfl
  | error message =>
      have nothing : ingestedRows middle = ingestedRows log := failed message rfl
      dsimp only
      rw [← nothing]
      exact handled message middle went

theorem Attempt.FailsClean.orElse {handler : String → Attempt Schema Row} (clean : first.FailsClean)
    (handled : ∀ message, (handler message).FailsClean) : (first.orElse handler).FailsClean := by
  intro log message failed
  unfold Attempt.orElse at failed ⊢
  have start := clean log
  rcases made : first log with ⟨result, middle⟩
  rw [made] at failed start
  cases result with
  | ok value => cases failed
  | error reason =>
      have nothing : ingestedRows middle = ingestedRows log := start reason rfl
      dsimp only
      rw [← nothing]
      exact handled reason middle message failed

theorem Attempt.yields_each {Item : Type} {attempt : Item → Attempt Schema Row} {rowsOf : Item → List Row}
    (items : List Item) (yields : ∀ item ∈ items, (attempt item).Yields (rowsOf item)) :
    (Attempt.each items attempt).Yields (items.flatMap rowsOf) := by
  induction items with
  | nil => exact yields_done
  | cons item items rest =>
      exact (yields item List.mem_cons_self).andThen
        (rest fun other member => yields other (List.mem_cons_of_mem _ member))

variable {driver : Driver Schema Row} {target : AdbcTarget} {tableName : String}

theorem Driver.yields_bulkIngestStream (driver : Driver Schema Row) (target : Target)
    (batches : List (RecordBatch Schema Row)) :
    (driver.bulkIngestStream target batches).Yields (batches.flatMap (·.rows)) := by
  intro log went
  unfold bulkIngestStream at went ⊢
  split at went
  · simp [ingestedRows]
  · cases went

theorem Driver.failsClean_bulkIngestStream (driver : Driver Schema Row) (target : Target)
    (batches : List (RecordBatch Schema Row)) : (driver.bulkIngestStream target batches).FailsClean := by
  intro log message failed
  unfold bulkIngestStream at failed ⊢
  split at failed
  · cases failed
  · simp [ingestedRows]

/-- The direct ingest hands over the rows of its batch, in however many slices. -/
theorem bulkIngestWithRetry_yields (batch : RecordBatch Schema Row) :
    (target.bulkIngestWithRetry driver tableName batch).Yields batch.rows := by
  induction batch using halves_induction with
  | _ batch smaller =>
      have whole : ∀ target, (driver.bulkIngestStream target [batch]).Yields batch.rows := by
        intro target
        simpa using driver.yields_bulkIngestStream target [batch]
      unfold bulkIngestWithRetry
      apply Attempt.Yields.orElse
      · split_ifs
        · apply Attempt.Yields.orElse (whole _) (driver.failsClean_bulkIngestStream _ _)
          intro message
          split_ifs
          · exact Attempt.yields_fail
          · exact whole _
        · exact whole _
      · split_ifs
        · apply Attempt.FailsClean.orElse (driver.failsClean_bulkIngestStream _ _)
          intro message
          split_ifs
          · exact Attempt.failsClean_fail
          · exact driver.failsClean_bulkIngestStream _ _
        · exact driver.failsClean_bulkIngestStream _ _
      · intro message
        split_ifs with tooLarge single
        · exact Attempt.yields_fail
        · have halves : batch.rows = (batch.slice 0 (batch.numRows / 2)).rows ++
              (batch.slice (batch.numRows / 2) (batch.numRows - batch.numRows / 2)).rows := by
            simp only [RecordBatch.slice, RecordBatch.numRows, List.drop_zero]
            rw [@List.take_of_length_le _ _ (batch.rows.drop _) (by simp), List.take_append_drop]
          rw [halves]
          apply Attempt.Yields.andThen
          · exact (smaller single).1
          · exact (smaller single).2
        · exact Attempt.yields_fail

theorem bulkIngestStreamForBatches_yields (batches : List (RecordBatch Schema Row)) :
    (target.bulkIngestStreamForBatches driver tableName batches).Yields (batches.flatMap (·.rows)) := by
  unfold bulkIngestStreamForBatches
  split
  · exact Attempt.yields_done
  · have whole := driver.yields_bulkIngestStream
    have clean := driver.failsClean_bulkIngestStream
    apply Attempt.Yields.orElse
    · split_ifs
      · apply Attempt.Yields.orElse (whole _ _) (clean _ _)
        intro message
        split_ifs
        · exact Attempt.yields_fail
        · exact whole _ _
      · exact whole _ _
    · split_ifs
      · apply Attempt.FailsClean.orElse (clean _ _)
        intro message
        split_ifs
        · exact Attempt.failsClean_fail
        · exact clean _ _
      · exact clean _ _
    · intro message
      split_ifs
      · exact Attempt.yields_each _ fun batch _ => bulkIngestWithRetry_yields batch
      · exact Attempt.yields_fail

theorem ingestInsertBatch_yields {sizes : Sizes Schema Row} (batch : RecordBatch Schema Row) :
    (target.ingestInsertBatch driver tableName sizes batch).Yields batch.rows := by
  rcases ingestInsertBatch_path sizes batch with ⟨message, _, failed⟩ | direct | ⟨batches, split, streamed⟩
  · rw [failed]
    exact Attempt.yields_fail
  · rw [direct]
    exact bulkIngestWithRetry_yields batch
  · rw [streamed, ← splitForSize_rows split]
    exact bulkIngestStreamForBatches_yields batches

/-- A direct ingest that goes through hands over exactly the rows of the batch. -/
theorem ingestDirectly_rows {batch : RecordBatch Schema Row}
    (went : (sink.ingestDirectly driver tableName batch).1 = .ok ()) :
    (sink.ingestDirectly driver tableName batch).2 = batch.rows := by
  exact @ingestInsertBatch_yields _ _ driver sink.target tableName sink.sizes batch [] went

end Rows

section Expected

/-- What a write is meant to do on the target. -/
def AdbcSink.expected (sink : AdbcSink Schema Row) (call : WriteCall Schema Row) : List (Event Row) :=
  if call.batch.numRows = 0 then []
  else
    match call.op with
    | .insert => call.batch.rows.map .row
    | .delete keyColumns =>
        match sink.deleteSqlStatements call.table call.batch keyColumns with
        | .ok statements => statements.map .statement
        | .error _ => []
    | .update keyColumns =>
        match sink.updateStrategy with
        | .bulkIngestUpsert => call.batch.rows.map .row
        | .statement =>
            match sink.updateSqlStatements call.table call.batch keyColumns with
            | .ok statements => statements.map .statement
            | .error _ => []
        | .stagingTable =>
            match sink.stagingMergeSql call.table (stagingTableName call) call.batch.schema keyColumns with
            | .ok mergeSql => call.batch.rows.map .staged ++ [.statement mergeSql]
            | .error _ => []

variable {call : WriteCall Schema Row} {around : Surroundings Schema Row}

/-- A write whose rows go through a stream is meant to hand them over. -/
theorem expected_of_usesStream (streams : sink.usesStream call.op = true) (some : call.batch.numRows ≠ 0) :
    sink.expected call = call.batch.rows.map .row := by
  unfold expected usesStream at *
  rw [if_neg some]
  cases op : call.op with
  | insert => rfl
  | delete keyColumns => simp [op] at streams
  | update keyColumns =>
      simp only [op, Bool.and_eq_true, decide_eq_true_eq] at streams
      simp only [streams.2.1]

theorem executeAll_ok {answer : List String → String → Except String Unit} {failed : String → String}
    {before statements : List String} (went : (executeAll answer failed before statements).1 = .ok ()) :
    (executeAll answer failed before statements).2 = before ++ statements := by
  induction statements generalizing before with
  | nil => simp [executeAll]
  | cons sql rest executed =>
      unfold executeAll at went ⊢
      split at went
      · rw [executed went, List.append_assoc]
        rfl
      · cases went

theorem executeStatements_ok {failed : String → String} {statements : Except String (List String)}
    (went : (executeStatements around failed statements).1 = .ok ()) :
    ∃ texts, statements = .ok texts ∧ (executeStatements around failed statements).2 = texts.map .statement := by
  cases statements with
  | error message => cases went
  | ok texts =>
      refine ⟨texts, rfl, ?_⟩
      unfold executeStatements at went ⊢
      dsimp only at went ⊢
      rw [executeAll_ok went, List.nil_append]

theorem stagingMergeUpdate_ok {keyColumns : List String}
    (went : (sink.stagingMergeUpdate around call keyColumns).1 = .ok ()) :
    ∃ mergeSql, sink.stagingMergeSql call.table (stagingTableName call) call.batch.schema keyColumns = .ok mergeSql ∧
      (sink.stagingMergeUpdate around call keyColumns).2 = call.batch.rows.map .staged ++ [.statement mergeSql] := by
  unfold stagingMergeUpdate at went ⊢
  dsimp only at went ⊢
  split at went
  · cases went
  · rename_i mergeSql merges
    refine ⟨mergeSql, merges, ?_⟩
    split at went
    · cases went
    · rename_i created
      split at went
      · cases went
      · rename_i rows ingested
        split at went
        · rename_i merged
          have handed := @ingestDirectly_rows _ _ sink around.driver (stagingTableName call) call.batch (by rw [ingested])
          rw [ingested] at handed
          rw [← handed]
        · cases went

/-- A write that performs its own effects and goes through has exactly those that it is meant to have. -/
theorem perform_expected (some : call.batch.numRows ≠ 0) (went : (sink.perform around call).1 = .ok ()) :
    (sink.perform around call).2 = sink.expected call := by
  unfold expected
  rw [if_neg some]
  unfold AdbcSink.perform at went ⊢
  dsimp only at went ⊢
  split at went
  · cases went
  · cases op : call.op with
    | insert =>
        simp only [op] at went ⊢
        rw [ingestDirectly_rows went]
    | delete keyColumns =>
        simp only [op] at went ⊢
        obtain ⟨texts, built, executed⟩ := executeStatements_ok went
        rw [executed, built]
    | update keyColumns =>
        simp only [op] at went ⊢
        cases strategy : sink.updateStrategy with
        | statement =>
            simp only [strategy] at went ⊢
            obtain ⟨texts, built, executed⟩ := executeStatements_ok went
            rw [executed, built]
        | stagingTable =>
            simp only [strategy] at went ⊢
            obtain ⟨mergeSql, built, merged⟩ := stagingMergeUpdate_ok went
            rw [merged, built]
        | bulkIngestUpsert =>
            simp only [strategy] at went ⊢
            rw [ingestDirectly_rows went]

end Expected

end Spicebench.Sink
