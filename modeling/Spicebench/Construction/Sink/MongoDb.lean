/-
This file embeds the identifiers of documents in MongoDB, which are made of the primary key of a row. A text is a list of
characters.
-/

import Spicebench.Construction.Queries
import Spicebench.Construction.Validation

namespace Spicebench.Sink.MongoDb

open Library
open Validation (TimeUnit)
open Queries (integerText)

inductive DataType where
  | boolean
  | int8
  | int16
  | int32
  | int64
  | uint8
  | uint16
  | uint32
  | uint64
  | float32
  | float64
  | decimal128 (scale : Int)
  | utf8
  | largeUtf8
  | binary
  | largeBinary
  | date32
  | date64
  | timestamp (unit : TimeUnit)
  | other (name : String)
  deriving DecidableEq

/-- The slot of an array holds a value; a value of another type is known by the text that Arrow displays. -/
inductive Value where
  | boolean (value : Bool)
  | int8 (value : Int8)
  | int16 (value : Int16)
  | int32 (value : Int32)
  | int64 (value : Int64)
  | uint8 (value : UInt8)
  | uint16 (value : UInt16)
  | uint32 (value : UInt32)
  | uint64 (value : UInt64)
  | float32 (value : Double)
  | float64 (value : Double)
  | decimal128 (scale : Int) (raw : Int)
  | utf8 (value : List Char)
  | largeUtf8 (value : List Char)
  | binary (bytes : List UInt8)
  | largeBinary (bytes : List UInt8)
  | date32 (days : Int32)
  | date64 (millis : Int64)
  | timestamp (unit : TimeUnit) (value : Int64)
  | other (name : String) (displayed : List Char)
  deriving DecidableEq

def Value.dataType : Value → DataType
  | .boolean _ => .boolean
  | .int8 _ => .int8
  | .int16 _ => .int16
  | .int32 _ => .int32
  | .int64 _ => .int64
  | .uint8 _ => .uint8
  | .uint16 _ => .uint16
  | .uint32 _ => .uint32
  | .uint64 _ => .uint64
  | .float32 _ => .float32
  | .float64 _ => .float64
  | .decimal128 scale _ => .decimal128 scale
  | .utf8 _ => .utf8
  | .largeUtf8 _ => .largeUtf8
  | .binary _ => .binary
  | .largeBinary _ => .largeBinary
  | .date32 _ => .date32
  | .date64 _ => .date64
  | .timestamp unit _ => .timestamp unit
  | .other name _ => .other name

structure Field where
  name : String
  dataType : DataType
  nullable : Bool
  deriving DecidableEq

abbrev Schema := List Field

/-- A slot that is not valid is a NULL, whatever value it holds. -/
structure Slot where
  value : Value
  valid : Bool

/-- A row of a batch has a slot of its type in every column, and no NULL in a column that forbids them. -/
structure Row (schema : Schema) where
  slot : Fin schema.length → Slot
  typed : ∀ index, (slot index).value.dataType = (schema.get index).dataType
  filled : ∀ index, (schema.get index).nullable = false → (slot index).valid = true

def indexOf (schema : Schema) (name : String) : Option (Fin schema.length) :=
  schema.findFinIdx? fun field => field.name == name

/-- The variants of `Bson` that a column becomes. -/
inductive Bson where
  | null
  | boolean (value : Bool)
  | int32 (value : Int)
  | int64 (value : Int)
  | double (value : Double)
  | string (value : List Char)
  | binary (bytes : List UInt8)
  | dateTime (millis : Int)
  deriving DecidableEq

/-- An identifier is not computed, or an operation overflows. -/
inductive Failure where
  | error (message : String)
  | panicked
  deriving DecidableEq

/-- The product of two `i64`. -/
def multiply (one other : Int) : Except Failure Int :=
  if -2 ^ 63 ≤ one * other ∧ one * other < 2 ^ 63 then .ok (one * other) else .error .panicked

/-- `10i128.pow(scale as u32)`, where a negative scale becomes a large one. -/
def divisor (scale : Int) : Except Failure Nat :=
  if 0 ≤ scale ∧ scale ≤ 38 then .ok (10 ^ scale.toNat) else .error .panicked

/-- The conversion of an `i128` that is not negative to `f64`, where it is far below infinity. -/
def toF64 (magnitude : Nat) : ℚ :=
  match F64.ofRat magnitude with
  | .finite value => max value 0
  | _ => 0

theorem toF64_nonneg (magnitude : Nat) : 0 ≤ toF64 magnitude := by
  unfold toF64
  split
  · exact le_max_right _ _
  · exact le_rfl

def quotient (raw : Int) (divisor : Nat) : Double :=
  .ofRat (raw < 0) (toF64 raw.natAbs / toF64 divisor) (div_nonneg (toF64_nonneg _) (toF64_nonneg _))

/-- The value of a slot is read without a look at whether it is a NULL. -/
def arrowColToBson : Value → Except Failure Bson
  | .boolean value => .ok (.boolean value)
  | .int8 value => .ok (.int32 value.toInt)
  | .int16 value => .ok (.int32 value.toInt)
  | .int32 value => .ok (.int32 value.toInt)
  | .int64 value => .ok (.int64 value.toInt)
  | .uint8 value => .ok (.int32 value.toNat)
  | .uint16 value => .ok (.int32 value.toNat)
  | .uint32 value => .ok (.int64 value.toNat)
  | .uint64 value => .ok (.int64 value.toBitVec.toInt)
  | .float32 value => .ok (.double value)
  | .float64 value => .ok (.double value)
  | .decimal128 scale raw => do
      let divisor ← divisor scale
      return .double (quotient raw divisor)
  | .utf8 value => .ok (.string value)
  | .largeUtf8 value => .ok (.string value)
  | .binary bytes => .ok (.binary bytes)
  | .largeBinary bytes => .ok (.binary bytes)
  | .date32 days => do
      let secs ← multiply days.toInt 86400
      let millis ← multiply secs 1000
      return .dateTime millis
  | .date64 millis => .ok (.dateTime millis.toInt)
  | .timestamp .second secs => do
      let millis ← multiply secs.toInt 1000
      return .dateTime millis
  | .timestamp .millisecond millis => .ok (.dateTime millis.toInt)
  | .timestamp .microsecond micros => .ok (.dateTime (micros.toInt.tdiv 1000))
  | .timestamp .nanosecond nanos => .ok (.dateTime (nanos.toInt.tdiv 1000000))
  | .other _ displayed => .ok (.string displayed)

variable (display : Bson → List Char)

/-- The variants that are not listed are displayed as the library for BSON does it. -/
def bsonToString : Bson → List Char
  | .int32 value => integerText value
  | .int64 value => integerText value
  | .double value => value.display
  | .string value => value
  | other => display other

structure MongoDbSink where
  primaryKeyColumns : String → Option (List String)

/-- The text of one column of a primary key. -/
def keyPart (tableName : String) {schema : Schema} (row : Row schema) (column : String) : Except Failure (List Char) :=
  match indexOf schema column with
  | none => .error (.error s!"PK column '{column}' not in schema for '{tableName}'")
  | some index => do
      let bson ← arrowColToBson (row.slot index).value
      return bsonToString display bson

def MongoDbSink.computeId (sink : MongoDbSink) (tableName : String) {schema : Schema} (row : Row schema) :
    Except Failure Bson :=
  let columns := (sink.primaryKeyColumns tableName).getD []
  if columns.isEmpty then .ok .null
  else do
    let parts ← columns.mapM (keyPart display tableName row)
    return match parts with
      | [part] => .string part
      | _ => .string (List.intercalate [':'] parts)

end Spicebench.Sink.MongoDb
