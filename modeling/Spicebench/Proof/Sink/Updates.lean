import Spicebench.Proof.Sink.Literals

namespace Spicebench.Sink

open Library

section Assignments

variable {Value : Type} {rendering : Rendering Value} {batch : CellBatch Value}

/-- A name of the schema stands for the cell of its column. -/
theorem named_field (cells : Fin batch.fields.length → Option Value) (index : Fin batch.fields.length) :
    batch.named cells (batch.fields.get index).name = cells index := by
  apply named_of_located
  rw [List.findFinIdx?_eq_some_iff]
  refine ⟨by simp, ?_⟩
  intro earlier before same
  have apart := List.pairwise_iff_getElem.mp batch.distinct earlier index (by simp) (by simp) before
  simp only [List.getElem_map] at apart
  exact apart (of_decide_eq_true same)

theorem map_nonKeyUpdateColumns (keyColumns : List String) :
    (nonKeyUpdateColumns batch.fields keyColumns).map (fun index => (batch.fields.get index).name) =
      nonKeyNames batch keyColumns := by
  have names : (List.finRange batch.fields.length).map (fun index => (batch.fields.get index).name) =
      batch.fields.map Field.name := by
    have fields := congrArg (List.map Field.name) (List.map_getElem_finRange batch.fields)
    rwa [List.map_map] at fields
  rw [nonKeyNames, ← names, List.filter_map, nonKeyUpdateColumns]
  rfl

theorem lookup_map_snd {First Second : Type} (change : First → Second) (entries : List (String × First))
    (name : String) :
    (entries.map fun entry => (entry.1, change entry.2)).lookup name = (entries.lookup name).map change := by
  induction entries with
  | nil => rfl
  | cons entry rest ih =>
      obtain ⟨key, value⟩ := entry
      rw [List.map_cons, List.lookup_cons, List.lookup_cons, ih]
      cases name == key <;> rfl

/-- A row's assignments give each column that is not a key the cell of the row. -/
theorem assign_eq_assignFrom {keyColumns : List String} {number : Nat} {cells : Fin batch.fields.length → Option Value}
    {setClauses : List (String × Literal Value)}
    (built : (nonKeyUpdateColumns batch.fields keyColumns).mapM (fun index => do
      let literal ← cellLiteral rendering batch false number cells index
      return ((batch.fields.get index).name, literal)) = .ok setClauses) (row : TableRow Value) :
    assign setClauses row = assignFrom (nonKeyNames batch keyColumns) row (batch.named cells) := by
  have denoted : (setClauses.map fun entry => (entry.1, entry.2.denotes)) =
      (nonKeyNames batch keyColumns).map fun name => (name, batch.named cells name) := by
    rw [← map_nonKeyUpdateColumns, List.map_map]
    apply map_eq_of_mapM built
    intro index _ entry made
    obtain ⟨literal, written, same⟩ := bind_eq_ok_iff.mp made
    obtain rfl := Except.ok.inj same
    rw [Function.comp_apply, named_field, sqlLiteral_denotes written]
  funext name
  have found := lookup_map_snd Literal.denotes setClauses name
  rw [denoted] at found
  by_cases member : name ∈ nonKeyNames batch keyColumns
  · rw [List.lookup_graph _ member] at found
    rw [assignFrom, if_pos member, assign]
    cases looked : setClauses.lookup name with
    | none => simp [looked] at found
    | some literal => simpa [looked] using found.symm
  · have missing : setClauses.lookup name = none := by
      rw [← Option.map_eq_none_iff, ← found, List.lookup_eq_none_iff]
      simp only [List.forall_mem_map, bne_iff_ne]
      rintro other within rfl
      exact member within
    rw [assignFrom, if_neg member, assign, missing]

end Assignments

section Updates

variable {Value : Type} [DecidableEq Value] {rendering : Rendering Value} {batch : CellBatch Value}

omit [DecidableEq Value] in
theorem mem_nonKeyNames {keyColumns : List String} {name : String} :
    name ∈ nonKeyNames batch keyColumns ↔ name ∈ batch.fields.map Field.name ∧ name ∉ keyColumns := by
  rw [nonKeyNames, List.mem_filter, decide_eq_true_eq]

omit [DecidableEq Value] in
/-- The cells of the key columns are not assigned. -/
theorem assignFrom_key {keyColumns : List String} {key : String} (member : key ∈ keyColumns)
    (row other : TableRow Value) : assignFrom (nonKeyNames batch keyColumns) row other key = row key :=
  if_neg fun assigned => (mem_nonKeyNames.mp assigned).2 member

theorem nullSafeSameKey_assignFrom (keyColumns : List String) (row other later : TableRow Value) :
    nullSafeSameKey keyColumns (assignFrom (nonKeyNames batch keyColumns) row other) later =
      nullSafeSameKey keyColumns row later := by
  unfold nullSafeSameKey
  refine congrArg Sql.Truth.all (List.map_congr_left fun key member => ?_)
  rw [assignFrom_key member]

/-- No row has the keys of two rows of the batch. -/
theorem staged_apart {keyColumns : List String}
    (distinct : (batch.staged.map fun staged => keyColumns.map staged).Nodup) :
    batch.staged.Pairwise fun first second => ∀ row, nullSafeSameKey keyColumns row first = .yes →
      nullSafeSameKey keyColumns row second ≠ .yes := by
  refine (List.pairwise_map.mp distinct).imp ?_
  intro first second differ row same also
  rw [nullSafeSameKey_eq_yes] at same also
  apply differ
  apply List.map_congr_left
  intro key member
  rw [← same key member, also key member]

/-- The statement of a row assigns its cells to the rows with its key. -/
theorem updateSqlForRow_execute (legible : rendering.Legible) {keyColumns : List String} (keyed : keyColumns ≠ [])
    {keyIndices : List (Fin batch.fields.length)} (located : Located batch.fields keyColumns keyIndices)
    {tableName tableIdent : String} {number : Nat} {cells : Fin batch.fields.length → Option Value}
    {statement : Statement Value}
    (built : updateSqlForRow rendering batch tableName tableIdent number cells keyIndices keyColumns
      (nonKeyUpdateColumns batch.fields keyColumns) = .ok statement) (staged table : List (TableRow Value)) :
    statement.execute staged table = some (Sql.updateWhere (nullSafeSameKey keyColumns · (batch.named cells))
      (assignFrom (nonKeyNames batch keyColumns) · (batch.named cells)) table) := by
  obtain ⟨predicates, predicated, afterwards⟩ := bind_eq_ok_iff.mp built
  obtain ⟨setClauses, assigned, checked⟩ := bind_eq_ok_iff.mp afterwards
  have filled : setClauses.isEmpty = false := by
    cases empty : setClauses.isEmpty with
    | false => rfl
    | true => simp [empty, bind, Except.bind, throw, throwThe, MonadExceptOf.throw] at checked
  have selective : predicates.isEmpty = false := by
    rw [List.isEmpty_eq_false_iff, ← List.length_pos_iff, length_keyPredicates located predicated]
    exact List.length_pos_iff.mpr keyed
  rw [filled] at checked
  obtain rfl := Except.ok.inj checked
  rw [Statement.execute, selective, filled]
  refine congrArg some (List.map_congr_left fun row _ => ?_)
  rw [assign_eq_assignFrom assigned]
  exact if_congr (keyPredicates_hold legible located predicated row) rfl rfl

omit [DecidableEq Value] in
/-- What is checked and found before the statements of the rows are built. -/
theorem updateSqlStatements_eq {keyColumns : List String} {tableName tableIdent : String}
    {statements : List (Statement Value)}
    (built : updateSqlStatements rendering batch tableName tableIdent keyColumns = .ok statements) :
    nonKeyUpdateColumns batch.fields keyColumns ≠ [] ∧ ∃ keyIndices, Located batch.fields keyColumns keyIndices ∧
      batch.rows.zipIdx.mapM (fun entry => updateSqlForRow rendering batch tableName tableIdent entry.2 entry.1
        keyIndices keyColumns (nonKeyUpdateColumns batch.fields keyColumns)) = .ok statements := by
  obtain ⟨keyIndices, resolved, afterwards⟩ := bind_eq_ok_iff.mp built
  cases empty : (nonKeyUpdateColumns batch.fields keyColumns).isEmpty with
  | false =>
      refine ⟨List.isEmpty_eq_false_iff.mp empty, keyIndices, resolveKeyColumns_located resolved, ?_⟩
      simpa only [empty, Bool.false_eq_true, if_false] using afterwards
  | true => simp [empty, bind, Except.bind, throw, throwThe, MonadExceptOf.throw] at afterwards

/-- Statement by statement, each row takes the cells of the row of the batch with its key. -/
theorem updateSqlStatements_execute (legible : rendering.Legible) {keyColumns : List String} (keyed : keyColumns ≠ [])
    (distinct : (batch.staged.map fun staged => keyColumns.map staged).Nodup) {tableName tableIdent : String}
    {statements : List (Statement Value)}
    (built : updateSqlStatements rendering batch tableName tableIdent keyColumns = .ok statements)
    (staged table : List (TableRow Value)) :
    executeStatementList staged table statements = some (Sql.updateFrom (nullSafeSameKey keyColumns)
      (assignFrom (nonKeyNames batch keyColumns)) batch.staged table) := by
  obtain ⟨-, keyIndices, located, made⟩ := updateSqlStatements_eq built
  have each : List.Forall₂ (fun other statement => ∀ table, statement.execute staged table =
      some (Sql.updateWhere (nullSafeSameKey keyColumns · other)
        (assignFrom (nonKeyNames batch keyColumns) · other) table)) batch.staged statements := by
    rw [CellBatch.staged, ← List.zipIdx_map_fst 0 batch.rows, List.map_map]
    refine List.forall₂_map_left_iff.mpr ((mapM_eq_ok_iff.mp made).imp ?_)
    intro entry statement written table
    exact updateSqlForRow_execute legible keyed located written staged table
  rw [executeStatementList_foldl each, Sql.foldl_updateWhere _ _ _ _ (nullSafeSameKey_assignFrom keyColumns)
    (staged_apart distinct)]

end Updates

section Gates

variable {Value : Type}

/-- Both sinks can write the columns of the batch: DuckDB has a type for each, and arrow renders each value. -/
structure CellBatch.Supported (rendering : Rendering Value) (batch : CellBatch Value) : Prop where
  typed : ∀ field ∈ batch.fields, ∃ sqlType, sqlTypeForArrow field.dataType = .ok sqlType
  rendered : ∀ cells ∈ batch.rows, ∀ index value, cells index = some value →
    ∃ raw, rendering (batch.fields.get index).dataType value = .ok raw

variable {rendering : Rendering Value} {batch : CellBatch Value}

/-- The types that DuckDB has are among those whose values have literals. -/
theorem exists_sqlLiteral {dataType : DataType} {sqlType : String} (typed : sqlTypeForArrow dataType = .ok sqlType)
    {cell : Option Value} (rendered : ∀ value, cell = some value → ∃ raw, rendering dataType value = .ok raw)
    (number : Nat) (bigintSuffix : Bool) :
    ∃ literal, sqlLiteral rendering dataType cell number bigintSuffix = .ok literal := by
  cases cell with
  | none => exact ⟨_, rfl⟩
  | some value =>
      obtain ⟨raw, written⟩ := rendered value rfl
      cases dataType
      case other debug => cases typed
      all_goals
        rw [sqlLiteral, written]
        exact ⟨_, rfl⟩

theorem CellBatch.Supported.literal (supported : batch.Supported rendering)
    {cells : Fin batch.fields.length → Option Value} (member : cells ∈ batch.rows) (number : Nat)
    (index : Fin batch.fields.length) :
    ∃ literal, cellLiteral rendering batch false number cells index = .ok literal := by
  obtain ⟨sqlType, typed⟩ := supported.typed (batch.fields.get index) (List.get_mem _ _)
  exact exists_sqlLiteral typed (supported.rendered cells member index) number false

theorem exists_resolveKeyColumns {fields : List Field} {keyColumns : List String}
    (known : ∀ key ∈ keyColumns, key ∈ fields.map Field.name) (context : String) :
    ∃ keyIndices, resolveKeyColumns fields keyColumns context = .ok keyIndices := by
  apply exists_mapM
  intro key member
  cases position : fields.findFinIdx? fun field => field.name = key with
  | none =>
      obtain ⟨field, inside, same⟩ := List.mem_map.mp (known key member)
      exact absurd (decide_eq_true same) (List.findFinIdx?_eq_none_iff.mp position field inside)
  | some index => exact ⟨index, rfl⟩

theorem nonKeyNames_eq_nil_iff {keyColumns : List String} :
    nonKeyNames batch keyColumns = [] ↔ ∀ field ∈ batch.fields, field.name ∈ keyColumns := by
  simp [nonKeyNames, List.filter_eq_nil_iff]

theorem nonKeyUpdateColumns_eq_nil_iff {keyColumns : List String} :
    nonKeyUpdateColumns batch.fields keyColumns = [] ↔ ∀ field ∈ batch.fields, field.name ∈ keyColumns := by
  rw [← nonKeyNames_eq_nil_iff, ← map_nonKeyUpdateColumns, List.map_eq_nil_iff]

/-- The statement of a row can be built. -/
theorem exists_updateSqlForRow (supported : batch.Supported rendering) {keyColumns : List String}
    (other : nonKeyUpdateColumns batch.fields keyColumns ≠ []) {cells : Fin batch.fields.length → Option Value}
    (member : cells ∈ batch.rows) (tableName tableIdent : String) (number : Nat)
    (keyIndices : List (Fin batch.fields.length)) :
    ∃ statement, updateSqlForRow rendering batch tableName tableIdent number cells keyIndices keyColumns
      (nonKeyUpdateColumns batch.fields keyColumns) = .ok statement := by
  obtain ⟨predicates, predicated⟩ : ∃ predicates,
      keyPredicates rendering batch number cells keyIndices keyColumns = .ok predicates := by
    apply exists_mapM
    intro entry _
    obtain ⟨literal, written⟩ := supported.literal member number entry.1
    exact ⟨_, bind_eq_ok_iff.mpr ⟨literal, written, rfl⟩⟩
  obtain ⟨setClauses, assigned⟩ : ∃ setClauses : List (String × Literal Value),
      (nonKeyUpdateColumns batch.fields keyColumns).mapM (fun index => do
        let literal ← cellLiteral rendering batch false number cells index
        return ((batch.fields.get index).name, literal)) = Except.ok setClauses := by
    apply exists_mapM
    intro index _
    obtain ⟨literal, written⟩ := supported.literal member number index
    exact ⟨_, bind_eq_ok_iff.mpr ⟨literal, written, rfl⟩⟩
  have filled : ¬setClauses.isEmpty := by
    rw [List.isEmpty_iff, ← List.length_eq_zero_iff, ← (mapM_eq_ok_iff.mp assigned).length_eq,
      List.length_eq_zero_iff]
    exact other
  exact ⟨.update tableIdent setClauses predicates,
    bind_eq_ok_iff.mpr ⟨predicates, predicated, bind_eq_ok_iff.mpr ⟨setClauses, assigned, if_neg filled⟩⟩⟩

/-- The statements are rejected exactly when each column is a key. -/
theorem updateSqlStatements_rejects_iff (supported : batch.Supported rendering) {keyColumns : List String}
    (known : ∀ key ∈ keyColumns, key ∈ batch.fields.map Field.name) (tableName tableIdent : String) :
    (∃ message, updateSqlStatements rendering batch tableName tableIdent keyColumns = .error message) ↔
      ∀ field ∈ batch.fields, field.name ∈ keyColumns := by
  rw [exists_error_iff, ← nonKeyUpdateColumns_eq_nil_iff, not_iff_comm]
  constructor
  · intro other
    obtain ⟨keyIndices, resolved⟩ := exists_resolveKeyColumns known "update"
    obtain ⟨statements, made⟩ : ∃ statements, batch.rows.zipIdx.mapM (fun entry =>
        updateSqlForRow rendering batch tableName tableIdent entry.2 entry.1 keyIndices keyColumns
          (nonKeyUpdateColumns batch.fields keyColumns)) = .ok statements := by
      apply exists_mapM
      intro entry inside
      have member := List.mem_of_getElem? (List.mem_zipIdx_iff_le_and_getElem?_sub.mp inside).2
      exact exists_updateSqlForRow supported other member tableName tableIdent entry.2 keyIndices
    refine ⟨statements, bind_eq_ok_iff.mpr ⟨keyIndices, resolved, ?_⟩⟩
    exact (if_neg (by simpa using other)).trans made
  · rintro ⟨statements, built⟩
    exact (updateSqlStatements_eq built).1

/-- The merge is built exactly when some column is not a key. -/
theorem stagingMergeSql_eq_ok_iff {keyColumns : List String} (keyed : keyColumns ≠ [])
    {tableName targetIdent stagingIdent : String} {merge : Statement Value} :
    stagingMergeSql batch tableName targetIdent stagingIdent keyColumns = .ok merge ↔
      (¬∀ field ∈ batch.fields, field.name ∈ keyColumns) ∧
        merge = buildStagingMergeSql batch targetIdent stagingIdent keyColumns := by
  have given : keyColumns.isEmpty = false := List.isEmpty_eq_false_iff.mpr keyed
  by_cases covered : ∀ field ∈ batch.fields, field.name ∈ keyColumns
  · have hasNonKey : (batch.fields.any fun field => field.name ∉ keyColumns) = false := by
      simpa using covered
    simp only [stagingMergeSql, given, hasNonKey]
    exact ⟨fun built => (nomatch built), fun both => absurd covered both.1⟩
  · have hasNonKey : (batch.fields.any fun field => field.name ∉ keyColumns) = true := by
      simpa using covered
    simp only [stagingMergeSql, given, hasNonKey, covered]
    exact ⟨fun same => ⟨not_false, (Except.ok.inj same).symm⟩, fun both => congrArg Except.ok both.2.symm⟩

/-- The update of DuckDB is built exactly when some column is not a key. -/
theorem applyViaStaging_eq_ok_iff
    (typed : ∀ field ∈ batch.fields, ∃ sqlType, sqlTypeForArrow field.dataType = .ok sqlType)
    {keyColumns : List String} (keyed : keyColumns ≠ [])
    (known : ∀ key ∈ keyColumns, key ∈ batch.fields.map Field.name) {tableName : String} {batchId : Nat}
    {update : Statement Value} :
    applyViaStaging batch tableName batchId keyColumns true = .ok update ↔
      (¬∀ field ∈ batch.fields, field.name ∈ keyColumns) ∧
        update = .updateFrom (quoteIdent tableName doubleQuote)
          (quoteIdent s!"__etl_staging_{batchId}" doubleQuote) (nonKeyNames batch keyColumns) keyColumns := by
  have given : keyColumns.isEmpty = false := List.isEmpty_eq_false_iff.mpr keyed
  have found : (keyColumns.find? fun key => key ∉ batch.fields.map Field.name) = none := by
    simpa [List.find?_eq_none] using known
  obtain ⟨create, created⟩ : ∃ create, createTempTableSql batch s!"__etl_staging_{batchId}" = .ok create := by
    obtain ⟨columns, made⟩ := exists_mapM fun field (member : field ∈ batch.fields) =>
      let ⟨sqlType, has⟩ := typed field member
      ⟨_, bind_eq_ok_iff.mpr ⟨sqlType, has, rfl⟩⟩
    exact ⟨_, bind_eq_ok_iff.mpr ⟨columns, made, rfl⟩⟩
  have applied : applyViaStaging batch tableName batchId keyColumns true =
      updateFromStagingSql batch tableName s!"__etl_staging_{batchId}" keyColumns := by
    simp only [applyViaStaging, given, found, created]
    rfl
  rw [applied, updateFromStagingSql, ← nonKeyNames_eq_nil_iff]
  by_cases covered : nonKeyNames batch keyColumns = []
  · simp [covered]
  · rw [if_neg (by simpa using covered), Except.ok.injEq, eq_comm]
    exact (and_iff_right covered).symm

end Gates

/-- Of the batches that both sinks support, the strategies and the oracle reject exactly those whose each column is a
key, and with distinct keys they leave the same table, the merge as long as no row with a missing value in its key has
the key of a row of the batch. -/
theorem update_strategies_agree {Value : Type} [DecidableEq Value] {rendering : Rendering Value}
    (legible : rendering.Legible) (batch : CellBatch Value) (supported : batch.Supported rendering)
    (keyColumns : List String) (keyed : keyColumns ≠ [])
    (known : ∀ key ∈ keyColumns, key ∈ batch.fields.map Field.name)
    (distinct : (batch.staged.map fun staged => keyColumns.map staged).Nodup)
    (tableName tableIdent stagingIdent : String) (batchId : Nat) (table : List (TableRow Value)) :
    ((∃ message, updateSqlStatements rendering batch tableName tableIdent keyColumns = .error message) ↔
      ∀ field ∈ batch.fields, field.name ∈ keyColumns) ∧
    ((∃ message, stagingMergeSql batch tableName tableIdent stagingIdent keyColumns = .error message) ↔
      ∀ field ∈ batch.fields, field.name ∈ keyColumns) ∧
    ((∃ message, applyViaStaging batch tableName batchId keyColumns true = .error message) ↔
      ∀ field ∈ batch.fields, field.name ∈ keyColumns) ∧
    ∀ statements merge update,
      updateSqlStatements rendering batch tableName tableIdent keyColumns = .ok statements →
      stagingMergeSql batch tableName tableIdent stagingIdent keyColumns = .ok merge →
      applyViaStaging batch tableName batchId keyColumns true = .ok update →
      ∃ after, executeStatementList [] table statements = some after ∧ update.execute batch.staged table = some after ∧
        ((∀ row ∈ table, ∀ cells ∈ batch.rows, (∀ key ∈ keyColumns, row key = batch.named cells key) →
          ∀ key ∈ keyColumns, row key ≠ none) → merge.execute batch.staged table = some after) := by
  refine ⟨updateSqlStatements_rejects_iff supported known tableName tableIdent, ?_, ?_, ?_⟩
  · rw [exists_error_iff]
    simp only [stagingMergeSql_eq_ok_iff keyed, exists_and_left, exists_eq, and_true, not_not]
  · rw [exists_error_iff]
    simp only [applyViaStaging_eq_ok_iff supported.typed keyed known, exists_and_left, exists_eq, and_true, not_not]
  · intro statements merge update built merged updated
    obtain ⟨other, rfl⟩ := (stagingMergeSql_eq_ok_iff keyed).mp merged
    obtain ⟨-, rfl⟩ := (applyViaStaging_eq_ok_iff supported.typed keyed known).mp updated
    have given : (keyColumns.isEmpty || (nonKeyNames batch keyColumns).isEmpty) = false := by
      rw [← nonKeyNames_eq_nil_iff] at other
      simp [keyed, other]
    refine ⟨_, updateSqlStatements_execute legible keyed distinct built [] table, ?_, ?_⟩
    · rw [Statement.execute, given, if_neg Bool.false_ne_true]
    · intro present
      have same : ∀ row ∈ table, ∀ other ∈ batch.staged,
          sameKey keyColumns row other = .yes ↔ nullSafeSameKey keyColumns row other = .yes := by
        intro row member other inside
        obtain ⟨cells, within, rfl⟩ := List.mem_map.mp inside
        rw [sameKey_iff_nullSafeSameKey, and_iff_left_iff_imp]
        intro equal
        exact present row member cells within (nullSafeSameKey_eq_yes.mp equal)
      have apart := (staged_apart distinct).imp fun {first second} differ row one two =>
        differ row (sameKey_iff_nullSafeSameKey.mp one).1 (sameKey_iff_nullSafeSameKey.mp two).1
      rw [buildStagingMergeSql, Statement.execute, given, if_neg Bool.false_ne_true, Sql.mergeInto_eq _ _ _ _ apart,
        Sql.updateFrom_congr same]

theorem sampleKeys_supported : sampleKeys.Supported renderString := by
  have strings : ∀ index : Fin sampleKeys.fields.length, sampleKeys.fields[index].dataType = .utf8 := by decide
  constructor
  · intro field member
    obtain ⟨index, rfl⟩ := List.mem_iff_get.mp member
    exact ⟨"VARCHAR", congrArg sqlTypeForArrow (strings index)⟩
  · intro cells _ index value _
    exact ⟨value, congrArg (renderString · value) (strings index)⟩

/-- A region is updated alike by its statement, by a merge and in the oracle. -/
theorem update_strategies_agree_sample :
    ∃ statements merge update after,
      updateSqlStatements renderString sampleKeys "t" "t" ["id"] = .ok statements ∧
      stagingMergeSql sampleKeys "t" "t" "s" ["id"] = .ok merge ∧
      applyViaStaging sampleKeys "t" 0 ["id"] true = .ok update ∧
      executeStatementList [] [sampleRow (some "7") (some "north")] statements = some after ∧
      update.execute sampleKeys.staged [sampleRow (some "7") (some "north")] = some after ∧
      merge.execute sampleKeys.staged [sampleRow (some "7") (some "north")] = some after := by
  obtain ⟨-, -, -, agree⟩ := update_strategies_agree renderString_legible sampleKeys sampleKeys_supported ["id"]
    (by decide) (by decide) (by decide) "t" "t" "s" 0 [sampleRow (some "7") (some "north")]
  obtain ⟨after, first, second, third⟩ := agree _ _ _ rfl rfl rfl
  exact ⟨_, _, _, after, rfl, rfl, rfl, first, second, third (by decide)⟩

/-- DuckDB has no type for the times of this batch. -/
def sampleTimes : CellBatch String where
  fields := [⟨"id", .utf8⟩, ⟨"at", .time64 "Nanosecond"⟩]
  distinct := by decide
  rows := [[some "7", none].get]

/-- The key of the row of this batch misses its value. -/
def sampleMissing : CellBatch String where
  fields := [⟨"id", .utf8⟩, ⟨"region", .utf8⟩]
  distinct := sampleKeys.distinct
  rows := [[none, some "south"].get]

/-- The oracle alone rejects a batch with a time, and the merge alone leaves the row without a key as it was. -/
theorem update_strategies_differ :
    ((∃ statements, updateSqlStatements renderString sampleTimes "t" "t" ["id"] = .ok statements) ∧
      (∃ merge, stagingMergeSql sampleTimes "t" "t" "s" ["id"] = .ok merge) ∧
      ∃ message, applyViaStaging sampleTimes "t" 0 ["id"] true = .error message) ∧
    ∃ statements merge update,
      updateSqlStatements renderString sampleMissing "t" "t" ["id"] = .ok statements ∧
      stagingMergeSql sampleMissing "t" "t" "s" ["id"] = .ok merge ∧
      applyViaStaging sampleMissing "t" 0 ["id"] true = .ok update ∧
      (executeStatementList [] [sampleRow none (some "north")] statements).map (List.map (· "region")) =
        some [some "south"] ∧
      (update.execute sampleMissing.staged [sampleRow none (some "north")]).map (List.map (· "region")) =
        some [some "south"] ∧
      (merge.execute sampleMissing.staged [sampleRow none (some "north")]).map (List.map (· "region")) =
        some [some "north"] :=
  ⟨⟨⟨_, rfl⟩, ⟨_, rfl⟩, ⟨_, rfl⟩⟩, _, _, _, rfl, rfl, rfl, by decide, by decide, by decide⟩

end Spicebench.Sink
