/-
This file embeds the metrics that are converted, the codes of their kinds, and the values that the record batch cannot
hold.
-/

import Spicebench.Library.FloatText

namespace Spicebench.OtelArrow

open Library

def i64Max : Nat := 2 ^ 63 - 1

def i32Max : Nat := 2 ^ 31 - 1

/-- Nanoseconds since the epoch. -/
abbrev SystemTime := Int

/-- The converter does not read what an array holds, and `other` stands for the kinds that it does not know. -/
inductive AttributeValue where
  | bool (value : Bool)
  | i64 (value : Int64)
  | f64 (value : Double)
  | string (value : String)
  | array
  | other
  deriving DecidableEq

structure KeyValue where
  key : String
  value : AttributeValue
  deriving DecidableEq

structure Resource where
  schemaUrl : Option String
  attributes : List KeyValue

structure InstrumentationScope where
  name : String
  version : Option String
  schemaUrl : Option String
  attributes : List KeyValue

/-- `other` has the name of a variant without a code. -/
inductive Temporality where
  | delta
  | cumulative
  | other (variant : String)

section Data

variable (T : Type)

/-- A data point of a gauge or of a sum. -/
structure NumberDataPoint where
  attributes : List KeyValue
  value : T

structure HistogramDataPoint where
  attributes : List KeyValue
  count : UInt64
  bounds : List Double
  bucketCounts : List UInt64
  min : Option T
  max : Option T
  sum : T

structure Gauge where
  dataPoints : List (NumberDataPoint T)
  startTime : Option SystemTime
  time : SystemTime

structure Sum where
  dataPoints : List (NumberDataPoint T)
  startTime : SystemTime
  time : SystemTime
  temporality : Temporality
  isMonotonic : Bool

structure Histogram where
  dataPoints : List (HistogramDataPoint T)
  startTime : SystemTime
  time : SystemTime
  temporality : Temporality

inductive MetricData where
  | gauge (data : Gauge T)
  | sum (data : Sum T)
  | histogram (data : Histogram T)
  | exponentialHistogram

end Data

inductive AggregatedMetrics where
  | f64 (data : MetricData Double)
  | u64 (data : MetricData UInt64)
  | i64 (data : MetricData Int64)

structure Metric where
  name : String
  description : String
  unit : String
  data : AggregatedMetrics

structure ScopeMetrics where
  scope : InstrumentationScope
  metrics : List Metric

structure ResourceMetrics where
  resource : Resource
  scopeMetrics : List ScopeMetrics

inductive MetricType where
  | gauge
  | sum
  | histogram

def MetricType.toU8 : MetricType → Nat
  | .gauge => 1
  | .sum => 2
  | .histogram => 3

inductive AttributeValueType where
  | str
  | int
  | double
  | bool
  | map
  | slice
  | bytes
  | unknown

def AttributeValueType.toU8 : AttributeValueType → Nat
  | .str => 1
  | .int => 2
  | .double => 3
  | .bool => 4
  | .map => 5
  | .slice => 6
  | .bytes => 7
  | .unknown => 255

def temporalityToI32 : Temporality → Except String Int
  | .delta => .ok 1
  | .cumulative => .ok 2
  | .other variant => .error (s!"Unknown temporality variant: {variant}. " ++
      "Cannot represent as a valid OTel aggregation temporality")

def systemTimeToNanos (time : SystemTime) : Except String Int :=
  if time < 0 then .error "SystemTime before UNIX EPOCH is not representable"
  else if (i64Max : Int) < time then
    .error s!"SystemTime nanoseconds {time} exceeds i64::MAX and cannot be represented"
  else .ok time

/-- The struct of a number has one of its two children set. -/
structure DataNumber where
  intValue : Option Int
  doubleValue : Option Double
  deriving DecidableEq

/-- The children that a value is written to, or the error. -/
class AppendDataNumber (T : Type) where
  children : T → Except String DataNumber

instance : AppendDataNumber UInt64 where
  children value :=
    if value.toNat ≤ i64Max then .ok ⟨some value.toNat, none⟩
    else .error s!"u64 metric value {value} exceeds i64::MAX and cannot be represented as i64"

instance : AppendDataNumber Int64 where
  children value := .ok ⟨some value.toInt, none⟩

instance : AppendDataNumber Double where
  children value := .ok ⟨none, some value⟩

/-- This is `as f64`, which rounds integers of more than 53 bits. -/
class AppendFloat64 (T : Type) where
  toF64 : T → Double

def doubleOfInt (value : Int) : Double := .ofRat (decide (value < 0)) |(value : ℚ)| (abs_nonneg _)

instance : AppendFloat64 Double := ⟨id⟩

instance : AppendFloat64 Int64 := ⟨fun value => doubleOfInt value.toInt⟩

instance : AppendFloat64 UInt64 := ⟨fun value => doubleOfInt value.toNat⟩

structure DataHistogram where
  count : UInt64
  sum : Double
  bucketCounts : List UInt64
  explicitBounds : List Double
  min : Option Double
  max : Option Double

def HistogramDataPoint.data {T : Type} [AppendFloat64 T] (point : HistogramDataPoint T) : DataHistogram :=
  ⟨point.count, AppendFloat64.toF64 point.sum, point.bucketCounts, point.bounds,
    point.min.map AppendFloat64.toF64, point.max.map AppendFloat64.toF64⟩

end Spicebench.OtelArrow
