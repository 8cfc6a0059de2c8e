/-
This file embeds the conversion of decimal numbers that a database driver returns as texts.
-/

import Spicebench.Library.FloatText
import Mathlib.Data.Rat.Cast.Defs

namespace Spicebench.AdbcClient

open Library

/-- The types that the conversion tells apart. -/
inductive DataType where
  | utf8
  | decimal128 (precision : Nat) (scale : Int)
  | other (name : String)
  deriving DecidableEq, Repr

structure Field where
  name : String
  dataType : DataType
  nullable : Bool
  metadata : String → Option String

/-- A null cell is `none`; a decimal cell holds its number without the scale. -/
inductive Column (Value : Type) where
  | utf8 (cells : List (Option String))
  | decimal128 (precision : Nat) (scale : Int) (cells : List (Option Int))
  | other (name : String) (cells : List (Option Value))

variable {Value : Type}

namespace Column

def dataType : Column Value → DataType
  | utf8 _ => .utf8
  | decimal128 precision scale _ => .decimal128 precision scale
  | other name _ => .other name

def length : Column Value → Nat
  | utf8 cells => cells.length
  | decimal128 _ _ cells => cells.length
  | other _ cells => cells.length

def hasNulls : Column Value → Bool
  | utf8 cells => cells.any Option.isNone
  | decimal128 _ _ cells => cells.any Option.isNone
  | other _ cells => cells.any Option.isNone

end Column

/-- A column has the type of its field, a null only where the field is nullable, and a given length. -/
def Fits (rows : Nat) (entry : Field × Column Value) : Prop :=
  entry.2.dataType = entry.1.dataType ∧ (entry.1.nullable = true ∨ entry.2.hasNulls = false) ∧ entry.2.length = rows

instance (rows : Nat) : DecidablePred (Fits rows : Field × Column Value → Prop) := fun _ =>
  inferInstanceAs (Decidable (_ ∧ _))

/-- The columns of a batch with the fields of its schema. -/
structure RecordBatch (Value : Type) where
  entries : List (Field × Column Value)
  numRows : Nat
  valid : ∀ entry ∈ entries, Fits numRows entry

namespace RecordBatch

def schema (batch : RecordBatch Value) : List Field := batch.entries.map Prod.fst

/-- The rows are counted in the first column; columns that do not fit are refused. -/
def tryNew (entries : List (Field × Column Value)) : Option (RecordBatch Value) :=
  match entries.head? with
  | none => none
  | some first =>
      if valid : ∀ entry ∈ entries, Fits first.2.length entry then some ⟨entries, first.2.length, valid⟩ else none

end RecordBatch

/-- The parameter reads the `type_name` out of the metadata of an opaque type. -/
def isOpaqueNumeric (typeName : String → Option String) (field : Field) : Bool :=
  if field.dataType ≠ .utf8 then false
  else if field.metadata "ARROW:extension:name" = some "arrow.opaque" ∧
      (field.metadata "ARROW:extension:metadata").bind typeName = some "numeric" then true
  else
    match field.metadata "Spark:DataType:SqlName" with
    | some sqlName => "DECIMAL(".toList.isPrefixOf sqlName.toList
    | none => false

/-- The bytes behind the first point of a text. -/
def bytesBehindPoint (text : String) : Option Nat :=
  match text.toList.dropWhile (· ≠ '.') with
  | [] => none
  | _ :: behind => some (behind.map Char.utf8Size).sum

/-- A machine word as a signed byte. -/
def asI8 (word : Nat) : Int := (word : Int).bmod 256

def maxDecimalScale (cells : List (Option String)) : Int :=
  cells.foldl (fun scale cell =>
    match cell.bind bytesBehindPoint with
    | some bytes => max scale (asI8 bytes)
    | none => scale) 0

def opaqueCols (typeName : String → Option String) (schema : List Field) : List Nat :=
  (schema.zipIdx.filter fun entry => isOpaqueNumeric typeName entry.1).map Prod.snd

/-- The scale of a column is taken over all batches; a batch without the column makes the access panic. -/
def inferScale (batches : List (RecordBatch Value)) (colIdx : Nat) : Option Int :=
  batches.foldlM (fun scale batch =>
    batch.entries[colIdx]?.map fun entry =>
      match entry.2 with
      | .utf8 cells => max scale (maxDecimalScale cells)
      | _ => scale) 0

/-- Arrow's `cast` with default options. -/
abbrev Cast (Value : Type) := Column Value → DataType → Except String (Column Value)

/-- A column that cannot be cast keeps its field. -/
def convert (cast : Cast Value) (scale : Option Int) (entry : Field × Column Value) : Field × Column Value :=
  match scale with
  | none => entry
  | some scale =>
      match cast entry.2 (.decimal128 38 scale) with
      | .ok converted => (⟨entry.1.name, .decimal128 38 scale, entry.1.nullable, fun _ => none⟩, converted)
      | .error _ => entry

def resolveBatch (cast : Cast Value) (scales : List (Nat × Int)) (batch : RecordBatch Value) :
    Option (RecordBatch Value) :=
  RecordBatch.tryNew (batch.entries.zipIdx.map fun entry => convert cast (scales.lookup entry.2) entry.1)

/-- A batch that is refused makes the function panic, here `none`. -/
def resolveOpaqueNumerics (typeName : String → Option String) (cast : Cast Value) (batches : List (RecordBatch Value)) :
    Option (List (RecordBatch Value)) :=
  match batches with
  | [] => some []
  | first :: _ =>
      if opaqueCols typeName first.schema = [] then some batches
      else do
        let scales ← (opaqueCols typeName first.schema).mapM fun colIdx =>
          (inferScale batches colIdx).map (Prod.mk colIdx)
        batches.mapM (resolveBatch cast scales)

end Spicebench.AdbcClient
