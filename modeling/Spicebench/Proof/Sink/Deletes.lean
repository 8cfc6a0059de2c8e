import Spicebench.Proof.Sink.Literals

namespace Spicebench.Sink

open Library

section Deletes

variable {Value : Type} [DecidableEq Value] {rendering : Rendering Value} {batch : CellBatch Value}

/-- The statements delete the rows that match some of the given ones, one after the other. -/
def DeletesInTurn (staged : List (TableRow Value)) (condition : TableRow Value → TableRow Value → Sql.Truth) :
    List (List (TableRow Value)) → List (Statement Value) → Prop :=
  List.Forall₂ fun part statement =>
    ∀ table, statement.execute staged table = some (Sql.deleteUsing condition part table)

theorem DeletesInTurn.execute {staged : List (TableRow Value)}
    {condition : TableRow Value → TableRow Value → Sql.Truth} {parts : List (List (TableRow Value))}
    {statements : List (Statement Value)} (deletes : DeletesInTurn staged condition parts statements)
    (table : List (TableRow Value)) :
    executeStatementList staged table statements = some (Sql.deleteUsing condition parts.flatten table) := by
  rw [executeStatementList_foldl deletes, Sql.foldl_deleteUsing]

/-- The statement of a row deletes the rows with its key. -/
theorem deleteSqlForRow_execute (legible : rendering.Legible) {keyColumns : List String} (keyed : keyColumns ≠ [])
    {keyIndices : List (Fin batch.fields.length)} (located : Located batch.fields keyColumns keyIndices)
    {tableIdent : String} {number : Nat} {cells : Fin batch.fields.length → Option Value} {statement : Statement Value}
    (built : deleteSqlForRow rendering batch tableIdent number cells keyIndices keyColumns = .ok statement)
    (staged table : List (TableRow Value)) :
    statement.execute staged table =
      some (Sql.deleteUsing (nullSafeSameKey keyColumns) [batch.named cells] table) := by
  obtain ⟨predicates, made, same⟩ := bind_eq_ok_iff.mp built
  obtain rfl := Except.ok.inj same
  have some : predicates.isEmpty = false := by
    rw [List.isEmpty_eq_false_iff, ← List.length_pos_iff, length_keyPredicates located made]
    exact List.length_pos_iff.mpr keyed
  rw [Statement.execute, some, if_neg Bool.false_ne_true]
  apply congrArg
  apply Sql.deleteWhere_eq_deleteUsing
  intro row
  rw [keyPredicates_hold legible located made row]
  simp

omit [DecidableEq Value] in
/-- The key columns are found before any statement is built. -/
theorem deleteSqlStatements_eq {size : Option Nat} {bigintSuffix : Bool} {tableIdent : String}
    {keyColumns : List String} {statements : List (Statement Value)}
    (built : deleteSqlStatements rendering batch size bigintSuffix tableIdent keyColumns = .ok statements) :
    keyColumns ≠ [] ∧ ∃ keyIndices, Located batch.fields keyColumns keyIndices ∧
      ∀ other, deleteSqlStatements rendering batch other bigintSuffix tableIdent keyColumns =
        match other with
        | none => batch.rows.zipIdx.mapM fun entry =>
            deleteSqlForRow rendering batch tableIdent entry.2 entry.1 keyIndices keyColumns
        | some batchSize =>
            batchedDeleteSql rendering batch tableIdent batchSize keyColumns keyIndices bigintSuffix := by
  cases keyColumns with
  | nil => cases built
  | cons key rest =>
      obtain ⟨keyIndices, resolved, -⟩ := bind_eq_ok_iff.mp built
      refine ⟨List.cons_ne_nil _ _, keyIndices, resolveKeyColumns_located resolved, ?_⟩
      intro other
      simp only [deleteSqlStatements, List.isEmpty_cons, resolved]
      rfl

/-- Row by row, what matches a row of the batch null-safely is deleted. -/
theorem deleteRowByRow_execute (legible : rendering.Legible) {keyColumns : List String} {bigintSuffix : Bool}
    {tableIdent : String} {statements : List (Statement Value)}
    (built : deleteSqlStatements rendering batch none bigintSuffix tableIdent keyColumns = .ok statements)
    (staged table : List (TableRow Value)) :
    executeStatementList staged table statements =
      some (Sql.deleteUsing (nullSafeSameKey keyColumns) batch.staged table) := by
  obtain ⟨keyed, keyIndices, located, statementsOf⟩ := deleteSqlStatements_eq built
  rw [statementsOf] at built
  have each : DeletesInTurn staged (nullSafeSameKey keyColumns) (batch.rows.map fun cells => [batch.named cells])
      statements := by
    have numbered := mapM_eq_ok_iff.mp built
    rw [← List.zipIdx_map_fst 0 batch.rows, List.map_map]
    refine List.forall₂_map_left_iff.mpr (numbered.imp ?_)
    intro entry statement made table
    exact deleteSqlForRow_execute legible keyed located made staged table
  rw [each.execute, ← List.flatMap_def, ← List.map_eq_flatMap, CellBatch.staged]

/-- The list of one key column holds the keys of the chunk. -/
theorem isIn_holds {key : String} {index : Fin batch.fields.length} (located : Located batch.fields [key] [index])
    {start : Nat} {chunk : List (Fin batch.fields.length → Option Value)} {values : List (Literal Value)}
    (built : (chunk.zipIdx start).mapM (fun entry => cellLiteral rendering batch false entry.2 entry.1 index) =
      .ok values) (row : TableRow Value) :
    conditionsHold [.isIn key values] row = .yes ↔
      ∃ other ∈ chunk.map batch.named, sameKey [key] row other = .yes := by
  have denoted : values.map Literal.denotes = chunk.map fun cells => cells index :=
    map_eq_of_mapM_zipIdx built _ _ fun _ _ _ made => sqlLiteral_denotes made
  have found := (List.forall₂_cons.mp located).1
  simp only [conditionsHold, Condition.holds, denoted, List.map_cons, List.map_nil, Sql.Truth.all_eq_yes,
    List.mem_singleton, forall_eq, Sql.isIn_eq_yes, List.mem_map, exists_exists_and_eq_and, sameKey_eq_yes,
    named_of_located found]
  constructor
  · rintro ⟨⟨cells, member, same⟩, present⟩
    exact ⟨cells, member, same.symm, present⟩
  · rintro ⟨cells, member, same, present⟩
    exact ⟨⟨cells, member, same.symm⟩, present⟩

/-- The list of a composite key holds the keys of the chunk. -/
theorem tupleIn_holds {keyColumns : List String} {keyIndices : List (Fin batch.fields.length)}
    (located : Located batch.fields keyColumns keyIndices) {start : Nat} {bigintSuffix : Bool}
    {chunk : List (Fin batch.fields.length → Option Value)} {tuples : List (List (Literal Value))}
    (built : (chunk.zipIdx start).mapM (fun entry =>
      keyIndices.mapM (cellLiteral rendering batch bigintSuffix entry.2 entry.1)) = .ok tuples)
    (row : TableRow Value) :
    conditionsHold [.tupleIn keyColumns tuples] row = .yes ↔
      ∃ other ∈ chunk.map batch.named, sameKey keyColumns row other = .yes := by
  have denoted : tuples.map (List.map Literal.denotes) = chunk.map fun cells => keyColumns.map (batch.named cells) := by
    apply map_eq_of_mapM_zipIdx built
    intro cells number tuple made
    rw [map_named_of_located located]
    exact map_eq_of_mapM made cells Literal.denotes fun _ _ _ written => sqlLiteral_denotes written
  have tried : (tuples.map fun tuple => Sql.equalTuple (keyColumns.map row) (tuple.map Literal.denotes)) =
      chunk.map fun cells => Sql.equalTuple (keyColumns.map row) (keyColumns.map (batch.named cells)) := by
    simpa only [List.map_map, Function.comp_def] using congrArg (List.map (Sql.equalTuple (keyColumns.map row))) denoted
  simp only [conditionsHold, Condition.holds, tried, List.map_cons, List.map_nil, Sql.Truth.all_eq_yes,
    List.mem_singleton, forall_eq, Sql.Truth.any_eq_yes, List.mem_map, exists_exists_and_eq_and]
  refine exists_congr fun cells => and_congr_right fun _ => ?_
  rw [Sql.equalTuple_eq_yes, sameKey_eq_yes]

/-- The statement of a chunk deletes the rows that are equal to one of its keys. -/
theorem chunkDeleteSql_execute {keyColumns : List String} {keyIndices : List (Fin batch.fields.length)}
    (located : Located batch.fields keyColumns keyIndices) {tableIdent : String} {bigintSuffix : Bool} {start : Nat}
    {chunk : List (Fin batch.fields.length → Option Value)} {statement : Statement Value}
    (built : chunkDeleteSql rendering batch tableIdent keyColumns keyIndices bigintSuffix start chunk = .ok statement)
    (staged table : List (TableRow Value)) :
    statement.execute staged table = some (Sql.deleteUsing (sameKey keyColumns) (chunk.map batch.named) table) := by
  unfold chunkDeleteSql at built
  split at built
  · obtain ⟨values, made, same⟩ := bind_eq_ok_iff.mp built
    obtain rfl := Except.ok.inj same
    exact congrArg some (Sql.deleteWhere_eq_deleteUsing (isIn_holds located made) table)
  · obtain ⟨tuples, made, same⟩ := bind_eq_ok_iff.mp built
    obtain rfl := Except.ok.inj same
    exact congrArg some (Sql.deleteWhere_eq_deleteUsing (tupleIn_holds located made) table)

omit [DecidableEq Value] in
/-- A chunk has a statement when its keys have literals. -/
theorem exists_chunkDeleteSql {keyIndices : List (Fin batch.fields.length)}
    {chunk : List (Fin batch.fields.length → Option Value)}
    (possible : ∀ cells ∈ chunk, ∀ index ∈ keyIndices, ∀ number suffix,
      ∃ literal, cellLiteral rendering batch suffix number cells index = .ok literal)
    (tableIdent : String) (keyColumns : List String) (bigintSuffix : Bool) (start : Nat) :
    ∃ statement, chunkDeleteSql rendering batch tableIdent keyColumns keyIndices bigintSuffix start chunk =
      .ok statement := by
  have inside : ∀ entry ∈ chunk.zipIdx start, entry.1 ∈ chunk := by
    intro entry member
    exact List.mem_of_getElem? (List.mem_zipIdx_iff_le_and_getElem?_sub.mp member).2
  unfold chunkDeleteSql
  split
  · obtain ⟨values, made⟩ := exists_mapM fun entry member =>
      possible entry.1 (inside entry member) _ List.mem_cons_self entry.2 false
    exact ⟨_, bind_eq_ok_iff.mpr ⟨values, made, rfl⟩⟩
  · obtain ⟨tuples, made⟩ := exists_mapM fun entry member => exists_mapM fun index within =>
      possible entry.1 (inside entry member) index within entry.2 bigintSuffix
    exact ⟨_, bind_eq_ok_iff.mpr ⟨tuples, made, rfl⟩⟩

/-- The chunks from a row on cover the rows that are left. -/
theorem batchedDeleteFrom_deletes {keyColumns : List String} {keyIndices : List (Fin batch.fields.length)}
    (located : Located batch.fields keyColumns keyIndices)
    (possible : ∀ cells ∈ batch.rows, ∀ index ∈ keyIndices, ∀ number suffix,
      ∃ literal, cellLiteral rendering batch suffix number cells index = .ok literal)
    {batchSize : Nat} (positive : 0 < batchSize) (tableIdent : String) (bigintSuffix : Bool)
    (staged : List (TableRow Value)) (turns start : Nat) (enough : batch.rows.length ≤ start + turns) :
    ∃ statements parts,
      batchedDeleteFrom rendering batch tableIdent batchSize keyColumns keyIndices bigintSuffix turns start =
        .ok statements ∧
      DeletesInTurn staged (sameKey keyColumns) parts statements ∧
      parts.flatten = (batch.rows.drop start).map batch.named := by
  induction turns generalizing start with
  | zero =>
      refine ⟨[], [], rfl, .nil, ?_⟩
      rw [List.drop_of_length_le (by omega)]
      rfl
  | succ turns ih =>
      by_cases left : start < batch.rows.length
      · let stop := min (start + batchSize) batch.rows.length
        let chunk := (batch.rows.drop start).take (stop - start)
        have onward : start < stop := by omega
        have inside : ∀ cells ∈ chunk, cells ∈ batch.rows := fun cells member =>
          List.mem_of_mem_drop (List.mem_of_mem_take member)
        obtain ⟨rest, parts, following, deletes, covered⟩ := ih stop (by omega)
        obtain ⟨statement, made⟩ := exists_chunkDeleteSql
          (fun cells member => possible cells (inside cells member)) tableIdent keyColumns bigintSuffix start
        refine ⟨statement :: rest, chunk.map batch.named :: parts, ?_,
          .cons (chunkDeleteSql_execute located made staged) deletes, ?_⟩
        · rw [batchedDeleteFrom, if_pos left]
          exact bind_eq_ok_iff.mpr ⟨statement, made, bind_eq_ok_iff.mpr ⟨rest, following, rfl⟩⟩
        · have split : batch.rows.drop stop = (batch.rows.drop start).drop (stop - start) := by
            rw [List.drop_drop, Nat.add_sub_cancel' onward.le]
          rw [List.flatten_cons, covered, split, ← List.map_append, List.take_append_drop]
      · refine ⟨[], [], ?_, .nil, ?_⟩
        · rw [batchedDeleteFrom, if_neg left]
        · rw [List.drop_of_length_le (Nat.le_of_not_lt left)]
          rfl

omit [DecidableEq Value] in
/-- The keys of the rows have literals once the rows can be deleted one by one. -/
theorem literals_of_rowByRow {keyColumns : List String} {keyIndices : List (Fin batch.fields.length)}
    (located : Located batch.fields keyColumns keyIndices) {tableIdent : String} {statements : List (Statement Value)}
    (built : batch.rows.zipIdx.mapM (fun entry =>
      deleteSqlForRow rendering batch tableIdent entry.2 entry.1 keyIndices keyColumns) = .ok statements) :
    ∀ cells ∈ batch.rows, ∀ index ∈ keyIndices, ∀ number suffix,
      ∃ literal, cellLiteral rendering batch suffix number cells index = .ok literal := by
  intro cells member index within number suffix
  rw [← List.zipIdx_map_fst 0 batch.rows] at member
  obtain ⟨entry, inside, rfl⟩ := List.mem_map.mp member
  obtain ⟨statement, -, made⟩ := exists_of_mapM built inside
  obtain ⟨predicates, predicated, -⟩ := bind_eq_ok_iff.mp made
  rw [← List.map_fst_zip located.length_eq.ge] at within
  obtain ⟨pair, paired, rfl⟩ := List.mem_map.mp within
  obtain ⟨predicate, -, written⟩ := exists_of_mapM predicated paired
  obtain ⟨literal, rendered, -⟩ := bind_eq_ok_iff.mp written
  exact sqlLiteral_regardless rendered number suffix

/-- In batches, what is equal to a row of the batch is deleted. -/
theorem deleteBatched_execute {keyColumns : List String} {bigintSuffix : Bool} {tableIdent : String}
    {rowByRow : List (Statement Value)}
    (built : deleteSqlStatements rendering batch none bigintSuffix tableIdent keyColumns = .ok rowByRow)
    {batchSize : Nat} (positive : 0 < batchSize) (staged table : List (TableRow Value)) :
    ∃ batched, deleteSqlStatements rendering batch (some batchSize) bigintSuffix tableIdent keyColumns = .ok batched ∧
      executeStatementList staged table batched =
        some (Sql.deleteUsing (sameKey keyColumns) batch.staged table) := by
  obtain ⟨-, keyIndices, located, statementsOf⟩ := deleteSqlStatements_eq built
  rw [statementsOf] at built
  obtain ⟨batched, parts, made, deletes, covered⟩ := batchedDeleteFrom_deletes located
    (literals_of_rowByRow located built) positive tableIdent bigintSuffix staged batch.rows.length 0 (by omega)
  rw [List.drop_zero] at covered
  refine ⟨batched, (statementsOf (some batchSize)).trans made, ?_⟩
  rw [deletes.execute, covered, CellBatch.staged]

/-- Row by row and by the staging table of DuckDB the same rows are deleted. -/
theorem deleteUsingStaging_execute (legible : rendering.Legible) {keyColumns : List String} {bigintSuffix : Bool}
    {tableIdent : String} {rowByRow : List (Statement Value)}
    (built : deleteSqlStatements rendering batch none bigintSuffix tableIdent keyColumns = .ok rowByRow)
    (target staging : String) (staged table : List (TableRow Value)) :
    (deleteUsingStagingSql target staging keyColumns).execute batch.staged table =
      executeStatementList staged table rowByRow := by
  rw [deleteRowByRow_execute legible built, deleteUsingStagingSql, Statement.execute]
  exact if_neg (by simpa using (deleteSqlStatements_eq built).1)

/-- The keys of the batch that have a match with a missing value are what the two comparisons differ in. -/
theorem deleteUsing_sameKey_iff (keyColumns : List String) (table : List (TableRow Value)) :
    Sql.deleteUsing (sameKey keyColumns) batch.staged table =
        Sql.deleteUsing (nullSafeSameKey keyColumns) batch.staged table ↔
      ∀ row ∈ table, ∀ cells ∈ batch.rows, (∀ key ∈ keyColumns, row key = batch.named cells key) →
        ∀ key ∈ keyColumns, row key ≠ none := by
  rw [Sql.deleteUsing_eq_iff]
  refine forall₂_congr fun row _ => ?_
  simp only [CellBatch.staged, List.mem_map, exists_exists_and_eq_and, sameKey_iff_nullSafeSameKey]
  constructor
  · intro agree cells member same
    obtain ⟨_, -, -, present⟩ := agree.mpr ⟨cells, member, nullSafeSameKey_eq_yes.mpr same⟩
    exact present
  · intro present
    constructor
    · rintro ⟨cells, member, same, -⟩
      exact ⟨cells, member, same⟩
    · rintro ⟨cells, member, same⟩
      exact ⟨cells, member, same, present cells member (nullSafeSameKey_eq_yes.mp same)⟩

end Deletes

/-- Deletes in batches leave the table that deletes row by row and the staging table of DuckDB leave exactly when no
row with a missing value in its key has the key of a row of the batch. -/
theorem batched_deletes_agree_iff {Value : Type} [DecidableEq Value] {rendering : Rendering Value}
    (legible : rendering.Legible) (batch : CellBatch Value) (keyColumns : List String) (tableIdent : String)
    (bigintSuffix : Bool) {batchSize : Nat} (positive : 0 < batchSize) {rowByRow : List (Statement Value)}
    (built : deleteSqlStatements rendering batch none bigintSuffix tableIdent keyColumns = .ok rowByRow)
    (target staging : String) (table : List (TableRow Value)) :
    ∃ batched, deleteSqlStatements rendering batch (some batchSize) bigintSuffix tableIdent keyColumns = .ok batched ∧
      (deleteUsingStagingSql target staging keyColumns).execute batch.staged table =
        executeStatementList [] table rowByRow ∧
      ((executeStatementList [] table batched = executeStatementList [] table rowByRow ∧
        executeStatementList [] table batched =
          (deleteUsingStagingSql target staging keyColumns).execute batch.staged table) ↔
        ∀ row ∈ table, ∀ cells ∈ batch.rows, (∀ key ∈ keyColumns, row key = batch.named cells key) →
          ∀ key ∈ keyColumns, row key ≠ none) := by
  obtain ⟨batched, made, executed⟩ := deleteBatched_execute built positive [] table
  have oracle := deleteUsingStaging_execute legible built target staging [] table
  refine ⟨batched, made, oracle, ?_⟩
  rw [oracle, and_self, executed, deleteRowByRow_execute legible built, Option.some_inj]
  exact deleteUsing_sameKey_iff keyColumns table

/-- The batch deletes the row with its first key, and the row whose key misses a value is not in the batch. -/
theorem batched_deletes_agree_iff_sample :
    ∃ batched, deleteSqlStatements renderString sampleKeys (some 1) false "t" ["id", "region"] = .ok batched ∧
      executeStatementList [] [sampleRow (some "7") (some "NULL"), sampleRow (some "9") none] batched =
        (deleteUsingStagingSql "t" "s" ["id", "region"]).execute sampleKeys.staged
          [sampleRow (some "7") (some "NULL"), sampleRow (some "9") none] := by
  obtain ⟨batched, made, -, agree⟩ := batched_deletes_agree_iff renderString_legible sampleKeys ["id", "region"]
    "t" false Nat.one_pos rfl "t" "s" [sampleRow (some "7") (some "NULL"), sampleRow (some "9") none]
  exact ⟨batched, made, (agree.mpr (by decide)).2⟩

example : (deleteSqlStatements renderString sampleKeys (some 1000) false "t" ["id", "region"]).map
    (List.map (Statement.text doubleQuote)) =
      .ok ["DELETE FROM t WHERE (\"id\", \"region\") IN (('7', 'NULL'), ('8', NULL))"] := by
  decide

/-- A row whose key misses a value is deleted row by row, and stays when the deletes are batched. -/
theorem batched_delete_keeps_null_key :
    ∃ rowByRow batched,
      deleteSqlStatements renderString sampleKeys none false "t" ["id", "region"] = .ok rowByRow ∧
      deleteSqlStatements renderString sampleKeys (some 1) false "t" ["id", "region"] = .ok batched ∧
      (executeStatementList [] [sampleRow (some "8") none] rowByRow).map List.length = some 0 ∧
      ((deleteUsingStagingSql "t" "s" ["id", "region"]).execute sampleKeys.staged
        [sampleRow (some "8") none]).map List.length = some 0 ∧
      (executeStatementList [] [sampleRow (some "8") none] batched).map List.length = some 1 :=
  ⟨_, _, rfl, rfl, by decide, by decide, by decide⟩

end Spicebench.Sink
