/-
This file embeds the builders of the nested columns, and the arrays that they finish to.
A builder of the Arrow library is the list of what was appended to it, where a null is `none`.
-/

import Spicebench.Construction.OtelArrow.Metrics
import Spicebench.Library.Fallible

namespace Spicebench.OtelArrow

open Library

/-- `NullBufferBuilder::finish` leaves out a validity without nulls. -/
def finishNulls (nulls : List Bool) : Option (List Bool) := if nulls.all id then none else some nulls

/-- `StructArray::try_new` compares the length of the first child with those of the others and of the validity. -/
def structFits (length : Nat) (others : List Nat) (validity : Option (List Bool)) : Bool :=
  others.all (· = length) && validity.all (·.length = length)

/-- The children of the struct of an attribute. -/
structure AttributeColumns where
  key : List String
  type : List Nat
  str : List (Option String)
  int : List (Option Int64)
  double : List (Option Double)
  bool : List (Option Bool)
  bytes : List (Option (List UInt8))
  ser : List (Option (List UInt8))

/-- A list array of attributes, where `validity` is that of the lists and `valuesValidity` that of the structs. -/
structure AttributesArray where
  offsets : List Nat
  values : AttributeColumns
  valuesValidity : Option (List Bool)
  validity : Option (List Bool)

structure AttributesBuilder extends AttributeColumns where
  nulls : List Bool
  listOffsets : List Nat
  listNulls : List Bool

namespace AttributesBuilder

def new : AttributesBuilder := ⟨⟨[], [], [], [], [], [], [], []⟩, [], [0], []⟩

variable (builder : AttributesBuilder)

def appendKey (key : String) : AttributesBuilder := { builder with key := builder.key ++ [key] }

def appendType (type : AttributeValueType) : AttributesBuilder := { builder with type := builder.type ++ [type.toU8] }

def appendStr (value : Option String) : AttributesBuilder := { builder with str := builder.str ++ [value] }

def appendInt (value : Option Int64) : AttributesBuilder := { builder with int := builder.int ++ [value] }

def appendDouble (value : Option Double) : AttributesBuilder := { builder with double := builder.double ++ [value] }

def appendBool (value : Option Bool) : AttributesBuilder := { builder with bool := builder.bool ++ [value] }

def appendBytes (value : Option (List UInt8)) : AttributesBuilder := { builder with bytes := builder.bytes ++ [value] }

def appendSer (value : Option (List UInt8)) : AttributesBuilder := { builder with ser := builder.ser ++ [value] }

def appendValue (valid : Bool) : AttributesBuilder := { builder with nulls := builder.nulls ++ [valid] }

/-- The attributes since the last offset become the list of a row. -/
def append (valid : Bool) : Fallible AttributesBuilder Unit := fun builder =>
  if builder.key.length ≤ i32Max then
    (.ok (), { builder with
      listOffsets := builder.listOffsets ++ [builder.key.length]
      listNulls := builder.listNulls ++ [valid] })
  else
    (.error "Attribute count exceeds i32::MAX and cannot be represented as a list offset", builder)

/-- The children are emptied before they are checked, and the offsets only behind that check. -/
def finish : Option AttributesArray × AttributesBuilder :=
  let valuesValidity := finishNulls builder.nulls
  let emptied := { builder with toAttributeColumns := ⟨[], [], [], [], [], [], [], []⟩, nulls := [] }
  if structFits builder.key.length [builder.type.length, builder.str.length, builder.int.length,
      builder.double.length, builder.bool.length, builder.bytes.length, builder.ser.length] valuesValidity then
    let validity := finishNulls builder.listNulls
    let fits := builder.listOffsets.getLast?.all (· ≤ builder.key.length) &&
      validity.all (·.length + 1 = builder.listOffsets.length) && valuesValidity.isNone
    (if fits then some ⟨builder.listOffsets, builder.toAttributeColumns, valuesValidity, validity⟩ else none,
      { emptied with listOffsets := [0], listNulls := [] })
  else (none, emptied)

end AttributesBuilder

/-- Each branch appends to all children. -/
def appendAttribute (builder : AttributesBuilder) (pair : KeyValue) : AttributesBuilder :=
  let builder := builder.appendKey pair.key
  let builder := match pair.value with
    | .string value =>
        (builder.appendType .str).appendStr (some value) |>.appendInt none |>.appendDouble none
          |>.appendBool none |>.appendBytes none |>.appendSer none
    | .i64 value =>
        (builder.appendType .int).appendStr none |>.appendInt (some value) |>.appendDouble none
          |>.appendBool none |>.appendBytes none |>.appendSer none
    | .f64 value =>
        (builder.appendType .double).appendStr none |>.appendInt none |>.appendDouble (some value)
          |>.appendBool none |>.appendBytes none |>.appendSer none
    | .bool value =>
        (builder.appendType .bool).appendStr none |>.appendInt none |>.appendDouble none
          |>.appendBool (some value) |>.appendBytes none |>.appendSer none
    | .array =>
        (builder.appendType .bytes).appendStr none |>.appendInt none |>.appendDouble none
          |>.appendBool none |>.appendBytes (some []) |>.appendSer none
    | .other =>
        (builder.appendType .unknown).appendStr none |>.appendInt none |>.appendDouble none
          |>.appendBool none |>.appendBytes none |>.appendSer none
  builder.appendValue true

def addAttributesToBuilder (attributes : List KeyValue) : Fallible AttributesBuilder Unit := do
  Fallible.forEach (fun pair => Fallible.modify (appendAttribute · pair)) attributes
  AttributesBuilder.append true

structure ResourceArray where
  schemaUrl : List (Option String)
  attributes : AttributesArray
  droppedAttributesCount : List (Option Nat)
  validity : Option (List Bool)

structure ResourceBuilder where
  schemaUrl : List (Option String)
  attributes : AttributesBuilder
  droppedAttributesCount : List (Option Nat)
  nulls : List Bool

def ResourceBuilder.new : ResourceBuilder := ⟨[], .new, [], []⟩

def ResourceBuilder.finish (builder : ResourceBuilder) : Option ResourceArray × ResourceBuilder :=
  match builder.attributes.finish with
  | (none, attributes) => (none, { builder with schemaUrl := [], attributes })
  | (some array, attributes) =>
      let validity := finishNulls builder.nulls
      (if structFits builder.schemaUrl.length [array.offsets.length - 1, builder.droppedAttributesCount.length] validity
        then some ⟨builder.schemaUrl, array, builder.droppedAttributesCount, validity⟩ else none,
        ⟨[], attributes, [], []⟩)

structure ScopeArray where
  name : List String
  version : List (Option String)
  attributes : AttributesArray
  droppedAttributesCount : List (Option Nat)
  validity : Option (List Bool)

structure ScopeBuilder where
  name : List String
  version : List (Option String)
  attributes : AttributesBuilder
  droppedAttributesCount : List (Option Nat)
  nulls : List Bool

def ScopeBuilder.new : ScopeBuilder := ⟨[], [], .new, [], []⟩

def ScopeBuilder.finish (builder : ScopeBuilder) : Option ScopeArray × ScopeBuilder :=
  match builder.attributes.finish with
  | (none, attributes) => (none, { builder with name := [], version := [], attributes })
  | (some array, attributes) =>
      let validity := finishNulls builder.nulls
      (if structFits builder.name.length
          [builder.version.length, array.offsets.length - 1, builder.droppedAttributesCount.length] validity
        then some ⟨builder.name, builder.version, array, builder.droppedAttributesCount, validity⟩ else none,
        ⟨[], [], attributes, [], []⟩)

structure DataNumberArray where
  intValue : List (Option Int)
  doubleValue : List (Option Double)
  validity : Option (List Bool)

structure DataNumberBuilder where
  int : List (Option Int)
  double : List (Option Double)
  nulls : List Bool

namespace DataNumberBuilder

def new : DataNumberBuilder := ⟨[], [], []⟩

variable (builder : DataNumberBuilder)

/-- A null takes its place in both children. -/
def append (valid : Bool) : DataNumberBuilder :=
  if valid then { builder with nulls := builder.nulls ++ [true] }
  else ⟨builder.int ++ [none], builder.double ++ [none], builder.nulls ++ [false]⟩

def appendNumber (number : DataNumber) : DataNumberBuilder :=
  { builder with int := builder.int ++ [number.intValue], double := builder.double ++ [number.doubleValue] }.append true

def finish : Option DataNumberArray × DataNumberBuilder :=
  let validity := finishNulls builder.nulls
  (if structFits builder.int.length [builder.double.length] validity
    then some ⟨builder.int, builder.double, validity⟩ else none, new)

end DataNumberBuilder

structure HistogramColumns where
  count : List (Option UInt64)
  sum : List (Option Double)
  bucketCounts : List (Option (List UInt64))
  explicitBounds : List (Option (List Double))
  min : List (Option Double)
  max : List (Option Double)

structure DataHistogramArray extends HistogramColumns where
  validity : Option (List Bool)

structure DataHistogramBuilder extends HistogramColumns where
  nulls : List Bool

namespace DataHistogramBuilder

def new : DataHistogramBuilder := ⟨⟨[], [], [], [], [], []⟩, []⟩

variable (builder : DataHistogramBuilder)

/-- A null takes its place in all children. -/
def append (valid : Bool) : DataHistogramBuilder :=
  if valid then { builder with nulls := builder.nulls ++ [true] }
  else {
    count := builder.count ++ [none]
    sum := builder.sum ++ [none]
    bucketCounts := builder.bucketCounts ++ [none]
    explicitBounds := builder.explicitBounds ++ [none]
    min := builder.min ++ [none]
    max := builder.max ++ [none]
    nulls := builder.nulls ++ [false] }

def appendHistogram (histogram : DataHistogram) : DataHistogramBuilder :=
  { builder with
    count := builder.count ++ [some histogram.count]
    sum := builder.sum ++ [some histogram.sum]
    min := builder.min ++ [histogram.min]
    max := builder.max ++ [histogram.max]
    bucketCounts := builder.bucketCounts ++ [some histogram.bucketCounts]
    explicitBounds := builder.explicitBounds ++ [some histogram.explicitBounds] }.append true

def finish : Option DataHistogramArray × DataHistogramBuilder :=
  let validity := finishNulls builder.nulls
  (if structFits builder.count.length [builder.sum.length, builder.bucketCounts.length,
      builder.explicitBounds.length, builder.min.length, builder.max.length] validity
    then some ⟨builder.toHistogramColumns, validity⟩ else none, new)

end DataHistogramBuilder

end Spicebench.OtelArrow
