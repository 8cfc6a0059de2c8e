/-
This file embeds the statements with which the two sinks delete and update rows, and what they do to a table.
-/

import Spicebench.Library.Sql
import Mathlib.Data.List.OfFn

namespace Spicebench.Sink

open Library

/-- The arrow types, where the last one stands for all that no sink names. -/
inductive DataType where
  | boolean
  | int8
  | int16
  | int32
  | int64
  | uint8
  | uint16
  | uint32
  | uint64
  | float16
  | float32
  | float64
  | decimal128 (precision scale : Nat)
  | decimal256 (precision scale : Nat)
  | utf8
  | largeUtf8
  | utf8View
  | date32
  | date64
  | time32 (unit : String)
  | time64 (unit : String)
  | timestamp (unit timezone : String)
  | duration (unit : String)
  | interval (unit : String)
  | other (debug : String)
  deriving DecidableEq, Repr

/-- This is the text of `{:?}`. -/
def DataType.debug : DataType → String
  | .boolean => "Boolean"
  | .int8 => "Int8"
  | .int16 => "Int16"
  | .int32 => "Int32"
  | .int64 => "Int64"
  | .uint8 => "UInt8"
  | .uint16 => "UInt16"
  | .uint32 => "UInt32"
  | .uint64 => "UInt64"
  | .float16 => "Float16"
  | .float32 => "Float32"
  | .float64 => "Float64"
  | .decimal128 precision scale => s!"Decimal128({precision}, {scale})"
  | .decimal256 precision scale => s!"Decimal256({precision}, {scale})"
  | .utf8 => "Utf8"
  | .largeUtf8 => "LargeUtf8"
  | .utf8View => "Utf8View"
  | .date32 => "Date32"
  | .date64 => "Date64"
  | .time32 unit => s!"Time32({unit})"
  | .time64 unit => s!"Time64({unit})"
  | .timestamp unit timezone => s!"Timestamp({unit}, {timezone})"
  | .duration unit => s!"Duration({unit})"
  | .interval unit => s!"Interval({unit})"
  | .other debug => debug

structure Field where
  name : String
  dataType : DataType
  deriving DecidableEq, Repr

/-- A batch has one cell for each of its columns in each row, and a NULL cell is `none`. -/
structure CellBatch (Value : Type) where
  fields : List Field
  distinct : (fields.map Field.name).Nodup
  rows : List (Fin fields.length → Option Value)

/-- Arrow renders the values of a column as text. -/
abbrev Rendering (Value : Type) := DataType → Value → Except String String

/-- A literal is a text that stands for a value or for NULL. -/
structure Literal (Value : Type) where
  text : String
  denotes : Option Value

/-- The parts of a `WHERE` clause that are joined by `AND`. -/
inductive Condition (Value : Type) where
  | isNull (column : String)
  | equals (column : String) (literal : Literal Value)
  | isIn (column : String) (literals : List (Literal Value))
  | tupleIn (columns : List String) (tuples : List (List (Literal Value)))

/-- The two tables of a statement are given by their identifiers, and its columns by their names. -/
inductive Statement (Value : Type) where
  | delete (table : String) (conditions : List (Condition Value))
  | update (table : String) (assignments : List (String × Literal Value)) (conditions : List (Condition Value))
  | mergeInto (target staging : String) (keys columns : List String)
  | updateFrom (target staging : String) (columns keys : List String)
  | deleteUsing (target staging : String) (keys : List String)

section Text

variable {Value : Type}

def apostrophe : Char := Char.ofNat 39

def doubleQuote : Char := Char.ofNat 34

def backquote : Char := Char.ofNat 96

/-- Databricks quotes identifiers in its own way. -/
def identifierQuoteStyle (driverName : String) : Char :=
  if driverName.toList.map Char.toLower = "databricks".toList then backquote else doubleQuote

def doubled (mark : Char) (text : String) : String :=
  String.ofList (text.toList.flatMap fun letter => if letter = mark then [letter, letter] else [letter])

def quoteIdent (value : String) (quoteChar : Char) : String :=
  quoteChar.toString ++ doubled quoteChar value ++ quoteChar.toString

def joined (separator : String) (texts : List String) : String := separator.intercalate texts

def Condition.text (quoteChar : Char) : Condition Value → String
  | .isNull column => s!"{quoteIdent column quoteChar} IS NULL"
  | .equals column literal => s!"{quoteIdent column quoteChar} = {literal.text}"
  | .isIn column literals =>
      quoteIdent column quoteChar ++ " IN (" ++ joined ", " (literals.map Literal.text) ++ ")"
  | .tupleIn columns tuples =>
      "(" ++ joined ", " (columns.map (quoteIdent · quoteChar)) ++ ") IN (" ++
        joined ", " (tuples.map fun tuple => "(" ++ joined ", " (tuple.map Literal.text) ++ ")") ++ ")"

/-- The DuckDB sink joins its staging table with this predicate. -/
def nullSafeEqualityPredicate (lhs rhs : String) : String :=
  s!"({lhs} = {rhs} OR ({lhs} IS NULL AND {rhs} IS NULL))"

def nullSafeJoin (target : String) (keys : List String) (quoteChar : Char) : String :=
  joined " AND " (keys.map fun key =>
    let column := quoteIdent key quoteChar
    nullSafeEqualityPredicate (target ++ "." ++ column) ("__stg." ++ column))

/-- This is the text that a sink executes. -/
def Statement.text (quoteChar : Char) : Statement Value → String
  | .delete table conditions =>
      s!"DELETE FROM {table} WHERE " ++ joined " AND " (conditions.map (Condition.text quoteChar))
  | .update table assignments conditions =>
      s!"UPDATE {table} SET " ++
        joined ", " (assignments.map fun entry => s!"{quoteIdent entry.1 quoteChar} = {entry.2.text}") ++
        " WHERE " ++ joined " AND " (conditions.map (Condition.text quoteChar))
  | .mergeInto target staging keys columns =>
      s!"MERGE INTO {target} t USING {staging} s ON " ++
        joined " AND " (keys.map fun key => s!"t.{quoteIdent key quoteChar} = s.{quoteIdent key quoteChar}") ++
        " WHEN MATCHED THEN UPDATE SET " ++
        joined ", " (columns.map fun column => s!"{quoteIdent column quoteChar} = s.{quoteIdent column quoteChar}")
  | .updateFrom target staging columns keys =>
      s!"UPDATE {target} SET " ++
        joined ", " (columns.map fun column => s!"{quoteIdent column quoteChar} = __stg.{quoteIdent column quoteChar}") ++
        s!" FROM {staging} AS __stg WHERE " ++ nullSafeJoin target keys quoteChar
  | .deleteUsing target staging keys =>
      s!"DELETE FROM {target} USING {staging} AS __stg WHERE " ++ nullSafeJoin target keys quoteChar

end Text

/-- A row of a table by the names of its columns. -/
abbrev TableRow (Value : Type) := String → Option Value

section Meaning

variable {Value : Type} [DecidableEq Value]

/-- Names outside of the schema have no cell. -/
def CellBatch.named (batch : CellBatch Value) (cells : Fin batch.fields.length → Option Value) : TableRow Value :=
  fun name => ((batch.fields.findFinIdx? fun field => field.name = name).map cells).getD none

/-- A staging table holds the rows of the batch. -/
def CellBatch.staged (batch : CellBatch Value) : List (TableRow Value) := batch.rows.map batch.named

def Condition.holds (row : TableRow Value) : Condition Value → Sql.Truth
  | .isNull column => Sql.isNull (row column)
  | .equals column literal => Sql.equal (row column) literal.denotes
  | .isIn column literals => Sql.isIn (row column) (literals.map Literal.denotes)
  | .tupleIn columns tuples =>
      .any (tuples.map fun tuple => Sql.equalTuple (columns.map row) (tuple.map Literal.denotes))

def conditionsHold (conditions : List (Condition Value)) (row : TableRow Value) : Sql.Truth :=
  .all (conditions.map (Condition.holds row))

/-- The assigned columns take their literals, and the others keep their cells. -/
def assign (assignments : List (String × Literal Value)) (row : TableRow Value) : TableRow Value := fun name =>
  match assignments.lookup name with
  | some literal => literal.denotes
  | none => row name

/-- The named columns take the cells of the staged row. -/
def assignFrom (columns : List String) (row staged : TableRow Value) : TableRow Value := fun name =>
  if name ∈ columns then staged name else row name

def sameKey (keys : List String) (row staged : TableRow Value) : Sql.Truth :=
  .all (keys.map fun key => Sql.equal (row key) (staged key))

def nullSafeSameKey (keys : List String) (row staged : TableRow Value) : Sql.Truth :=
  .all (keys.map fun key => Sql.nullSafeEqual (row key) (staged key))

/-- A target executes a statement, and rejects one with an empty clause. -/
def Statement.execute (staged : List (TableRow Value)) (table : List (TableRow Value)) :
    Statement Value → Option (List (TableRow Value))
  | .delete _ conditions =>
      if conditions.isEmpty then none else some (Sql.deleteWhere (conditionsHold conditions) table)
  | .update _ assignments conditions =>
      if assignments.isEmpty || conditions.isEmpty then none
      else some (Sql.updateWhere (conditionsHold conditions) (assign assignments) table)
  | .mergeInto _ _ keys columns =>
      if keys.isEmpty || columns.isEmpty then none
      else Sql.mergeInto (sameKey keys) (assignFrom columns) staged table
  | .updateFrom _ _ columns keys =>
      if keys.isEmpty || columns.isEmpty then none
      else some (Sql.updateFrom (nullSafeSameKey keys) (assignFrom columns) staged table)
  | .deleteUsing _ _ keys =>
      if keys.isEmpty then none else some (Sql.deleteUsing (nullSafeSameKey keys) staged table)

/-- A sink executes its statements in order. -/
def executeStatementList (staged table : List (TableRow Value)) (statements : List (Statement Value)) :
    Option (List (TableRow Value)) :=
  statements.foldlM (fun table statement => statement.execute staged table) table

end Meaning

section Adbc

variable {Value : Type}

def resolveKeyColumns (fields : List Field) (keyColumns : List String) (context : String) :
    Except String (List (Fin fields.length)) :=
  keyColumns.mapM fun key =>
    match fields.findFinIdx? fun field => field.name = key with
    | some index => .ok index
    | none => .error s!"Key column '{key}' not found in {context} batch schema"

def nonKeyUpdateColumns (fields : List Field) (keyColumns : List String) : List (Fin fields.length) :=
  (List.finRange fields.length).filter fun index => fields[index].name ∉ keyColumns

/-- A value is written as it is, with a suffix, or in quotes, depending on the type of its column. -/
def sqlLiteral (rendering : Rendering Value) (dataType : DataType) (cell : Option Value) (row : Nat)
    (bigintSuffix : Bool) : Except String (Literal Value) :=
  match cell with
  | none => .ok ⟨"NULL", none⟩
  | some value =>
      match rendering dataType value with
      | .error message => .error s!"Failed to render key value at row {row}: {message}"
      | .ok raw =>
          match dataType with
          | .boolean | .float16 | .float32 | .float64 | .decimal128 _ _ | .decimal256 _ _ => .ok ⟨raw, value⟩
          | .int8 | .int16 | .int32 | .uint8 | .uint16 | .uint32 => .ok ⟨raw, value⟩
          | .int64 | .uint64 => .ok ⟨if bigintSuffix then raw ++ "L" else raw, value⟩
          | .utf8 | .largeUtf8 | .utf8View | .date32 | .date64 | .time32 _ | .time64 _ | .timestamp _ _
          | .duration _ | .interval _ => .ok ⟨"'" ++ doubled apostrophe raw ++ "'", value⟩
          | .other debug => .error (s!"Update/Delete is not supported for column type '{debug}'. " ++
              "Use primitive/string/date/time columns.")

/-- The test is on the text of the literal. -/
def nullSafePredicateForLiteral (identifier : String) (literal : Literal Value) : Condition Value :=
  if literal.text = "NULL" then .isNull identifier else .equals identifier literal

variable (rendering : Rendering Value) (batch : CellBatch Value)

/-- The literal of a cell, where `row` is the number of the row that messages name. -/
def cellLiteral (bigintSuffix : Bool) (row : Nat) (cells : Fin batch.fields.length → Option Value)
    (index : Fin batch.fields.length) : Except String (Literal Value) :=
  sqlLiteral rendering batch.fields[index].dataType (cells index) row bigintSuffix

/-- The predicates on the key columns of one row. -/
def keyPredicates (row : Nat) (cells : Fin batch.fields.length → Option Value)
    (keyIndices : List (Fin batch.fields.length)) (keyColumns : List String) :
    Except String (List (Condition Value)) :=
  (keyIndices.zip keyColumns).mapM fun entry => do
    let literal ← cellLiteral rendering batch false row cells entry.1
    return nullSafePredicateForLiteral entry.2 literal

def deleteSqlForRow (tableIdent : String) (row : Nat) (cells : Fin batch.fields.length → Option Value)
    (keyIndices : List (Fin batch.fields.length)) (keyColumns : List String) : Except String (Statement Value) := do
  let predicates ← keyPredicates rendering batch row cells keyIndices keyColumns
  return .delete tableIdent predicates

def updateSqlForRow (tableName tableIdent : String) (row : Nat) (cells : Fin batch.fields.length → Option Value)
    (keyIndices : List (Fin batch.fields.length)) (keyColumns : List String)
    (nonKeyColumns : List (Fin batch.fields.length)) : Except String (Statement Value) := do
  let predicates ← keyPredicates rendering batch row cells keyIndices keyColumns
  let setClauses ← nonKeyColumns.mapM fun index => do
    let literal ← cellLiteral rendering batch false row cells index
    return (batch.fields[index].name, literal)
  if setClauses.isEmpty then
    throw s!"Update requires at least one non-key column in batch schema for table '{tableName}'"
  return .update tableIdent setClauses predicates

/-- One statement deletes the rows of a chunk, which starts at the given row. -/
def chunkDeleteSql (tableIdent : String) (keyColumns : List String) (keyIndices : List (Fin batch.fields.length))
    (bigintSuffix : Bool) (start : Nat) (chunk : List (Fin batch.fields.length → Option Value)) :
    Except String (Statement Value) :=
  match keyColumns, keyIndices with
  | [key], [index] => do
      let values ← (chunk.zipIdx start).mapM fun entry => cellLiteral rendering batch false entry.2 entry.1 index
      return .delete tableIdent [.isIn key values]
  | _, _ => do
      let tuples ← (chunk.zipIdx start).mapM fun entry =>
        keyIndices.mapM (cellLiteral rendering batch bigintSuffix entry.2 entry.1)
      return .delete tableIdent [.tupleIn keyColumns tuples]

/-- The loop over the chunks takes at most as many turns as there are rows. -/
def batchedDeleteFrom (tableIdent : String) (batchSize : Nat) (keyColumns : List String)
    (keyIndices : List (Fin batch.fields.length)) (bigintSuffix : Bool) :
    (turns start : Nat) → Except String (List (Statement Value))
  | 0, _ => .ok []
  | turns + 1, start =>
      if start < batch.rows.length then do
        let stop := min (start + batchSize) batch.rows.length
        let sql ← chunkDeleteSql rendering batch tableIdent keyColumns keyIndices bigintSuffix start
          ((batch.rows.drop start).take (stop - start))
        let rest ← batchedDeleteFrom tableIdent batchSize keyColumns keyIndices bigintSuffix turns stop
        return sql :: rest
      else .ok []

def batchedDeleteSql (tableIdent : String) (batchSize : Nat) (keyColumns : List String)
    (keyIndices : List (Fin batch.fields.length)) (bigintSuffix : Bool) : Except String (List (Statement Value)) :=
  batchedDeleteFrom rendering batch tableIdent batchSize keyColumns keyIndices bigintSuffix batch.rows.length 0

/-- Without a batch size the rows are deleted one by one. -/
def deleteSqlStatements (deleteBatchSize : Option Nat) (bigintSuffix : Bool) (tableIdent : String)
    (keyColumns : List String) : Except String (List (Statement Value)) := do
  if keyColumns.isEmpty then throw "Delete requires at least one key column"
  let keyIndices ← resolveKeyColumns batch.fields keyColumns "delete"
  match deleteBatchSize with
  | none => batch.rows.zipIdx.mapM fun entry =>
      deleteSqlForRow rendering batch tableIdent entry.2 entry.1 keyIndices keyColumns
  | some batchSize =>
      batchedDeleteSql rendering batch tableIdent batchSize keyColumns keyIndices bigintSuffix

/-- The statements of `UpdateStrategy::Statement`. -/
def updateSqlStatements (tableName tableIdent : String) (keyColumns : List String) :
    Except String (List (Statement Value)) := do
  let keyIndices ← resolveKeyColumns batch.fields keyColumns "update"
  let nonKeyColumns := nonKeyUpdateColumns batch.fields keyColumns
  if nonKeyColumns.isEmpty then
    throw s!"Update requires at least one non-key column in batch schema for table '{tableName}'"
  batch.rows.zipIdx.mapM fun entry =>
    updateSqlForRow rendering batch tableName tableIdent entry.2 entry.1 keyIndices keyColumns nonKeyColumns

def nonKeyNames (keyColumns : List String) : List String :=
  (batch.fields.map Field.name).filter (· ∉ keyColumns)

def buildStagingMergeSql (targetIdent stagingIdent : String) (keyColumns : List String) : Statement Value :=
  .mergeInto targetIdent stagingIdent keyColumns (nonKeyNames batch keyColumns)

/-- The checks and the statement of `UpdateStrategy::StagingTable`. -/
def stagingMergeSql (tableName targetIdent stagingIdent : String) (keyColumns : List String) :
    Except String (Statement Value) := do
  if keyColumns.isEmpty then throw "Update requires at least one key column"
  let hasNonKey := batch.fields.any fun field => field.name ∉ keyColumns
  if !hasNonKey then
    throw s!"Update requires at least one non-key column in batch schema for table '{tableName}'"
  return buildStagingMergeSql batch targetIdent stagingIdent keyColumns

end Adbc

section DuckDb

variable {Value : Type} (batch : CellBatch Value)

/-- The DuckDB sink has its own way to quote, which is `quoteIdent` for one quote. -/
def quoteIdentifier (value : String) : String :=
  doubleQuote.toString ++ doubled doubleQuote value ++ doubleQuote.toString

def sqlTypeForArrow : DataType → Except String String
  | .boolean => .ok "BOOLEAN"
  | .int8 => .ok "TINYINT"
  | .int16 => .ok "SMALLINT"
  | .int32 => .ok "INTEGER"
  | .uint8 => .ok "UTINYINT"
  | .uint16 => .ok "USMALLINT"
  | .uint32 => .ok "UINTEGER"
  | .int64 => .ok "BIGINT"
  | .uint64 => .ok "UBIGINT"
  | .float32 => .ok "FLOAT"
  | .float64 => .ok "DOUBLE"
  | .utf8 | .largeUtf8 | .utf8View => .ok "VARCHAR"
  | .date32 => .ok "DATE"
  | .timestamp _ _ => .ok "TIMESTAMP"
  | .decimal128 precision scale => .ok s!"DECIMAL({precision}, {scale})"
  | other => .error s!"Unsupported Arrow data type for DuckDB sink: {other.debug}"

def createTempTableSql (tableName : String) : Except String String := do
  let columns ← batch.fields.mapM fun field => do
    let colType ← sqlTypeForArrow field.dataType
    return quoteIdent field.name doubleQuote ++ " " ++ colType
  return "CREATE TEMPORARY TABLE IF NOT EXISTS " ++ quoteIdent tableName doubleQuote ++ " (" ++ joined ", " columns ++ ")"

def updateFromStagingSql (target staging : String) (keyColumns : List String) : Except String (Statement Value) :=
  let setClauses := nonKeyNames batch keyColumns
  if setClauses.isEmpty then .error "Update requires at least one non-key column in batch schema"
  else .ok (.updateFrom (quoteIdent target doubleQuote) (quoteIdent staging doubleQuote) setClauses keyColumns)

def deleteUsingStagingSql (target staging : String) (keyColumns : List String) : Statement Value :=
  .deleteUsing (quoteIdent target doubleQuote) (quoteIdent staging doubleQuote) keyColumns

/-- The checks of the DuckDB sink, and the statement it applies to its staging table. -/
def applyViaStaging (tableName : String) (batchId : Nat) (keyColumns : List String) (isUpdate : Bool) :
    Except String (Statement Value) := do
  if keyColumns.isEmpty then throw "Update/Delete requires at least one key column"
  match keyColumns.find? fun key => key ∉ batch.fields.map Field.name with
  | some key => throw s!"Key column '{key}' not found in batch schema"
  | none =>
      let staging := s!"__etl_staging_{batchId}"
      let _ ← createTempTableSql batch staging
      if isUpdate then updateFromStagingSql batch tableName staging keyColumns
      else return deleteUsingStagingSql tableName staging keyColumns

end DuckDb

end Spicebench.Sink
