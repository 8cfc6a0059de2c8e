/-
This file embeds the comparison of an actual query result with the expected one.
-/

import Mathlib

namespace Spicebench.Validation

inductive TimeUnit where
  | second
  | millisecond
  | microsecond
  | nanosecond
  deriving DecidableEq, Repr

/-- The data types that the comparison names; it treats all others alike. -/
inductive DataType where
  | boolean
  | int8
  | int16
  | int32
  | int64
  | uint8
  | uint16
  | uint32
  | uint64
  | float16
  | float32
  | float64
  | utf8
  | largeUtf8
  | utf8View
  | date32
  | date64
  | decimal128 (precision : Nat) (scale : Int)
  | decimal256 (precision : Nat) (scale : Int)
  | timestamp (unit : TimeUnit) (timezone : Option String)
  | other (debug : String)
  deriving DecidableEq, Repr

/-- `DataType::is_numeric`. -/
def DataType.isNumeric : DataType → Bool
  | .int8 | .int16 | .int32 | .int64 | .uint8 | .uint16 | .uint32 | .uint64 => true
  | .float16 | .float32 | .float64 | .decimal128 _ _ | .decimal256 _ _ => true
  | _ => false

structure Field where
  name : String
  dataType : DataType
  deriving DecidableEq, Repr

/-- Each column of a batch has one cell for each row, and a null cell has no value. -/
@[ext]
structure RecordBatch (Value : Type) where
  schema : List Field
  numRows : Nat
  columns : List (List (Option Value))
  complete : columns.length = schema.length
  aligned : ∀ column ∈ columns, column.length = numRows

variable {Value : Type}

def RecordBatch.column (batch : RecordBatch Value) (index : Nat) : List (Option Value) :=
  batch.columns.getD index []

theorem RecordBatch.column_length (batch : RecordBatch Value) {index : Nat} (inside : index < batch.schema.length) :
    (batch.column index).length = batch.numRows := by
  have found : index < batch.columns.length := by rw [batch.complete]; exact inside
  apply batch.aligned
  simp [column, found]

/-- The columns of the batches are appended, one after the other. -/
def concatColumns (width : Nat) (batches : List (RecordBatch Value)) : List (List (Option Value)) :=
  (List.range width).map fun index => batches.flatMap fun batch => batch.column index

/-- Batches are concatenated when they have as many columns as the schema, of the same types. -/
def concatBatches (schema : List Field) (batches : List (RecordBatch Value)) : Except String (RecordBatch Value) :=
  if same : ∀ batch ∈ batches, batch.schema.map Field.dataType = schema.map Field.dataType then
    .ok {
      schema
      numRows := (batches.map RecordBatch.numRows).sum
      columns := concatColumns schema.length batches
      complete := by simp [concatColumns]
      aligned := by
        intro column member
        obtain ⟨index, inside, rfl⟩ := List.mem_map.mp member
        rw [List.length_flatMap]
        congr 1
        apply List.map_congr_left
        intro batch listed
        apply batch.column_length
        have width := congrArg List.length (same batch listed)
        simp only [List.length_map] at width
        rw [width]
        exact List.mem_range.mp inside }
  else .error "It is not possible to concatenate arrays of different data types."

inductive QueryValidationFailReason where
  | noExpectedAnswer
  | noAnswer
  | schemaMismatch
  | rowCountMismatch (expected actual : Nat)
  | dataMismatch (column : String) (rowNumber : Nat) (expected actual : String)
  | columnLengthMismatch (columnName : String) (leftLen rightLen : Nat)
  deriving DecidableEq, Repr

inductive QueryValidationResult where
  | pass
  | fail (reason : QueryValidationFailReason)
  deriving DecidableEq, Repr

/-- How a value that is not null is written, how a text is quoted, and whether two texts are numbers
that differ by at most the tolerance. -/
structure Rendering (Value : Type) where
  valueToString : DataType → Value → Except String String
  debug : String → String
  withinTolerance : String → String → Bool

/-- Timestamps with and without a zone are equivalent when the zone is UTC. -/
def isUtc (timezone : Option String) : Bool := timezone == some "UTC" || timezone == some "+00:00"

def datatypeEquivalent (expected actual : DataType) : Bool :=
  expected == actual ||
    match expected, actual with
    | .timestamp unit zone, .timestamp other zone' =>
        unit == other && ((zone == none && isUtc zone') || (isUtc zone && zone' == none))
    | .decimal128 _ _, .decimal128 _ _ => true
    | .float32, .float64 => true
    | .float64, .decimal128 _ _ => true
    | .int64, .decimal128 _ _ => true
    | .decimal128 _ _, .int64 => true
    | .decimal128 _ _, .int32 => true
    | .decimal128 _ _, .float64 => true
    | .int32, .int64 => true
    | .int64, .int32 => true
    | .int64, .int8 => true
    | .int64, .float64 => true
    | .int64, .utf8 => true
    | .int64, .largeUtf8 => true
    | .int64, .utf8View => true
    | .utf8, .largeUtf8 => true
    | .utf8, .utf8View => true
    | .largeUtf8, .utf8 => true
    | .utf8View, .utf8 => true
    | .utf8View, .largeUtf8 => true
    | .date32, .date64 => true
    | .date64, .date32 => true
    | _, _ => false

def equivalentSchemas (expected actual : List Field) : Bool :=
  expected.length == actual.length &&
    (expected.zip actual).all fun pair => datatypeEquivalent pair.1.dataType pair.2.dataType

/-- A null cell has no string. -/
def arrayValueToString (rendering : Rendering Value) (dataType : DataType) : Option Value → Except String (Option String)
  | none => .ok none
  | some value => (rendering.valueToString dataType value).map some

/-- The first mismatch of two cells, if they do not match. -/
def compareCells (rendering : Rendering Value) (field : Field) (rowNumber : Nat) (expected actual : Option String) :
    Option QueryValidationFailReason :=
  match expected, actual with
  | none, none => none
  | some value, none => some (.dataMismatch field.name rowNumber (rendering.debug value) "None")
  | none, some value => some (.dataMismatch field.name rowNumber "None" (rendering.debug value))
  | some expected, some actual =>
      if expected = actual then none
      else if field.dataType.isNumeric && rendering.withinTolerance expected actual then none
      else some (.dataMismatch field.name rowNumber (rendering.debug expected) (rendering.debug actual))

/-- The rows of a column are compared from the first to the last; counts start at one. -/
def compareRows (rendering : Rendering Value) (field : Field) (actualType : DataType) :
    Nat → List (Option Value × Option Value) → Except String (Option QueryValidationFailReason)
  | _, [] => .ok none
  | row, (expected, actual) :: rest => do
      let expected ← arrayValueToString rendering field.dataType expected
      let actual ← arrayValueToString rendering actualType actual
      match compareCells rendering field (row + 1) expected actual with
      | some reason => return some reason
      | none => compareRows rendering field actualType (row + 1) rest

def compareColumns (rendering : Rendering Value) :
    List (Field × Field × List (Option Value) × List (Option Value)) → Except String QueryValidationResult
  | [] => .ok .pass
  | (field, actualField, expected, actual) :: rest =>
      if expected.length ≠ actual.length then
        .ok (.fail (.columnLengthMismatch field.name expected.length actual.length))
      else do
        match ← compareRows rendering field actualField.dataType 0 (expected.zip actual) with
        | some reason => return .fail reason
        | none => compareColumns rendering rest

def validateBatchesAsStrings (rendering : Rendering Value) (expected actual : RecordBatch Value) :
    Except String QueryValidationResult :=
  compareColumns rendering
    (expected.schema.zip (actual.schema.zip (expected.columns.zip actual.columns)))

/-- The lists of batches are concatenated and compared; a missing list is a case of its own. -/
def validateWithExpectedBatches (rendering : Rendering Value) (actualBatches expectedBatches : List (RecordBatch Value)) :
    Except String QueryValidationResult :=
  match expectedBatches, actualBatches with
  | [], [] => .ok .pass
  | [], _ :: _ => .ok (.fail .noExpectedAnswer)
  | _ :: _, [] => .ok (.fail .noAnswer)
  | expectedFirst :: _, actualFirst :: _ =>
      if equivalentSchemas expectedFirst.schema actualFirst.schema then do
        let expected ← concatBatches expectedFirst.schema expectedBatches
        let actual ← concatBatches actualFirst.schema actualBatches
        if expected.numRows ≠ actual.numRows then
          return .fail (.rowCountMismatch expected.numRows actual.numRows)
        else validateBatchesAsStrings rendering expected actual
      else .ok (.fail .schemaMismatch)

end Spicebench.Validation
