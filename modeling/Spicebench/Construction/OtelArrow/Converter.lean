/-
This file embeds the conversion of metrics to a record batch with one row for each data point.
-/

import Spicebench.Construction.OtelArrow.Builders

namespace Spicebench.OtelArrow

open Library

structure OtelToArrowConverter where
  timeUnixNano : List Int
  startTimeUnixNano : List (Option Int)
  resource : ResourceBuilder
  scope : ScopeBuilder
  schemaUrl : List (Option String)
  metricType : List Nat
  name : List String
  description : List String
  unit : List String
  aggregationTemporality : List (Option Int)
  isMonotonic : List (Option Bool)
  flags : List (Option Nat)
  attributes : AttributesBuilder
  dataNumber : DataNumberBuilder
  dataHistogram : DataHistogramBuilder

structure RecordBatch where
  timeUnixNano : List Int
  startTimeUnixNano : List (Option Int)
  resource : ResourceArray
  scope : ScopeArray
  schemaUrl : List (Option String)
  metricType : List Nat
  name : List String
  description : List String
  unit : List String
  aggregationTemporality : List (Option Int)
  isMonotonic : List (Option Bool)
  flags : List (Option Nat)
  attributes : AttributesArray
  dataNumber : DataNumberArray
  dataHistogram : DataHistogramArray

namespace RecordBatch

variable (batch : RecordBatch)

def numRows : Nat := batch.timeUnixNano.length

/-- The lengths of the columns in the order of the schema. -/
def columnLengths : List Nat :=
  [batch.timeUnixNano.length, batch.startTimeUnixNano.length, batch.resource.schemaUrl.length,
    batch.scope.name.length, batch.schemaUrl.length, batch.metricType.length, batch.name.length,
    batch.description.length, batch.unit.length, batch.aggregationTemporality.length, batch.isMonotonic.length,
    batch.flags.length, batch.attributes.offsets.length - 1, batch.dataNumber.intValue.length,
    batch.dataHistogram.count.length]

/-- `RecordBatch::try_new` compares the lengths of the columns. -/
def tryNew : Except String RecordBatch :=
  if batch.columnLengths.all (· = batch.numRows) then .ok batch
  else .error "Invalid argument error: all columns in a record batch must have the same length"

end RecordBatch

/-- What the branches for the kinds of metrics write of a data point. -/
inductive PointData where
  | number (children : Except String DataNumber)
  | histogram (data : DataHistogram)

/-- A data point with what its row takes from its metric, scope and resource. -/
structure DataPoint where
  time : SystemTime
  startTime : Option SystemTime
  resource : Resource
  scope : InstrumentationScope
  metricType : MetricType
  name : String
  description : String
  unit : String
  temporality : Option Temporality
  isMonotonic : Option Bool
  attributes : List KeyValue
  data : PointData

namespace OtelToArrowConverter

/-- A capacity would only reserve memory. -/
def new : OtelToArrowConverter :=
  ⟨[], [], .new, .new, [], [], [], [], [], [], [], [], .new, .new, .new⟩

def addResource (resource : Resource) : Fallible OtelToArrowConverter Unit := do
  Fallible.modify fun converter => { converter with
    resource.schemaUrl := converter.resource.schemaUrl ++ [resource.schemaUrl] }
  Fallible.focus (·.resource.attributes)
    (fun converter attributes => { converter with resource.attributes := attributes })
    (addAttributesToBuilder resource.attributes)
  Fallible.modify fun converter => { converter with
    resource.droppedAttributesCount := converter.resource.droppedAttributesCount ++ [none]
    resource.nulls := converter.resource.nulls ++ [true] }

def addScope (scope : InstrumentationScope) : Fallible OtelToArrowConverter Unit := do
  Fallible.modify fun converter => { converter with
    scope.name := converter.scope.name ++ [scope.name]
    scope.version := converter.scope.version ++ [scope.version] }
  Fallible.focus (·.scope.attributes) (fun converter attributes => { converter with scope.attributes := attributes })
    (addAttributesToBuilder scope.attributes)
  Fallible.modify fun converter => { converter with
    scope.droppedAttributesCount := converter.scope.droppedAttributesCount ++ [none]
    scope.nulls := converter.scope.nulls ++ [true]
    schemaUrl := converter.schemaUrl ++ [scope.schemaUrl] }

/-- A number leaves a null in the histograms, and a histogram one in the numbers. -/
def appendData : PointData → Fallible OtelToArrowConverter Unit
  | .number children => do
      let number ← Fallible.ofExcept children
      Fallible.modify fun converter => { converter with
        dataNumber := converter.dataNumber.appendNumber number
        dataHistogram := converter.dataHistogram.append false }
  | .histogram data =>
      Fallible.modify fun converter => { converter with
        dataNumber := converter.dataNumber.append false
        dataHistogram := converter.dataHistogram.appendHistogram data }

/-- The body of the loops over the data points of a sum, a gauge and a histogram. -/
def processPoint (point : DataPoint) : Fallible OtelToArrowConverter Unit := do
  let time ← Fallible.ofExcept (systemTimeToNanos point.time)
  Fallible.modify fun converter => { converter with timeUnixNano := converter.timeUnixNano ++ [time] }
  let startTime ← Fallible.ofExcept (point.startTime.mapM systemTimeToNanos)
  Fallible.modify fun converter => { converter with startTimeUnixNano := converter.startTimeUnixNano ++ [startTime] }
  addResource point.resource
  addScope point.scope
  Fallible.modify fun converter => { converter with
    metricType := converter.metricType ++ [point.metricType.toU8]
    name := converter.name ++ [point.name]
    description := converter.description ++ [point.description]
    unit := converter.unit ++ [point.unit] }
  let temporality ← Fallible.ofExcept (point.temporality.mapM temporalityToI32)
  Fallible.modify fun converter => { converter with
    aggregationTemporality := converter.aggregationTemporality ++ [temporality]
    isMonotonic := converter.isMonotonic ++ [point.isMonotonic]
    flags := converter.flags ++ [none] }
  Fallible.focus (·.attributes) (fun converter attributes => { converter with attributes })
    (addAttributesToBuilder point.attributes)
  appendData point.data

section Metrics

variable {T : Type} (metric : Metric) (resource : Resource) (scope : InstrumentationScope)

def sumPoints [AppendDataNumber T] (sum : Sum T) : List DataPoint :=
  sum.dataPoints.map fun point =>
    { time := sum.time, startTime := some sum.startTime, resource, scope, metricType := .sum, name := metric.name,
      description := metric.description, unit := metric.unit, temporality := some sum.temporality,
      isMonotonic := some sum.isMonotonic, attributes := point.attributes,
      data := .number (AppendDataNumber.children point.value) }

def gaugePoints [AppendDataNumber T] (gauge : Gauge T) : List DataPoint :=
  gauge.dataPoints.map fun point =>
    { time := gauge.time, startTime := gauge.startTime, resource, scope, metricType := .gauge, name := metric.name,
      description := metric.description, unit := metric.unit, temporality := none, isMonotonic := none,
      attributes := point.attributes, data := .number (AppendDataNumber.children point.value) }

def histogramPoints [AppendFloat64 T] (histogram : Histogram T) : List DataPoint :=
  histogram.dataPoints.map fun point =>
    { time := histogram.time, startTime := some histogram.startTime, resource, scope, metricType := .histogram,
      name := metric.name, description := metric.description, unit := metric.unit,
      temporality := some histogram.temporality, isMonotonic := none, attributes := point.attributes,
      data := .histogram point.data }

def processSum [AppendDataNumber T] (sum : Sum T) : Fallible OtelToArrowConverter Unit :=
  Fallible.forEach processPoint (sumPoints metric resource scope sum)

def processGauge [AppendDataNumber T] (gauge : Gauge T) : Fallible OtelToArrowConverter Unit :=
  Fallible.forEach processPoint (gaugePoints metric resource scope gauge)

def processHistogram [AppendFloat64 T] (histogram : Histogram T) : Fallible OtelToArrowConverter Unit :=
  Fallible.forEach processPoint (histogramPoints metric resource scope histogram)

def processData [AppendDataNumber T] [AppendFloat64 T] : MetricData T → Fallible OtelToArrowConverter Unit
  | .histogram histogram => processHistogram metric resource scope histogram
  | .sum sum => processSum metric resource scope sum
  | .gauge gauge => processGauge metric resource scope gauge
  | .exponentialHistogram => Fallible.fail "ExponentialHistogram not yet supported"

def processMetric : Fallible OtelToArrowConverter Unit :=
  match metric.data with
  | .f64 data => processData metric resource scope data
  | .u64 data => processData metric resource scope data
  | .i64 data => processData metric resource scope data

end Metrics

/-- A builder is finished, and the conversion ends where it has no array. -/
def finishOr {Builder Array : Type} (message : String) (get : OtelToArrowConverter → Builder)
    (set : OtelToArrowConverter → Builder → OtelToArrowConverter) (finish : Builder → Option Array × Builder) :
    Fallible OtelToArrowConverter Array := fun converter =>
  match finish (get converter) with
  | (some array, builder) => (.ok array, set converter builder)
  | (none, builder) => (.error message, set converter builder)

/-- The plain builders are finished together, and the columns make a batch when their lengths agree. -/
def finishBatch (resource : ResourceArray) (scope : ScopeArray) (attributes : AttributesArray)
    (dataNumber : DataNumberArray) (dataHistogram : DataHistogramArray) : Fallible OtelToArrowConverter RecordBatch :=
  fun converter =>
    let batch : RecordBatch :=
      { timeUnixNano := converter.timeUnixNano, startTimeUnixNano := converter.startTimeUnixNano, resource, scope,
        schemaUrl := converter.schemaUrl, metricType := converter.metricType, name := converter.name,
        description := converter.description, unit := converter.unit,
        aggregationTemporality := converter.aggregationTemporality, isMonotonic := converter.isMonotonic,
        flags := converter.flags, attributes, dataNumber, dataHistogram }
    (batch.tryNew, { new with
      resource := converter.resource
      scope := converter.scope
      attributes := converter.attributes
      dataNumber := converter.dataNumber
      dataHistogram := converter.dataHistogram })

def finish : Fallible OtelToArrowConverter RecordBatch := do
  let resource ← finishOr "Could not convert resource" (·.resource)
    (fun converter resource => { converter with resource }) ResourceBuilder.finish
  let scope ← finishOr "Could not convert scope" (·.scope)
    (fun converter scope => { converter with scope }) ScopeBuilder.finish
  let attributes ← finishOr "Could not convert attributes" (·.attributes)
    (fun converter attributes => { converter with attributes }) AttributesBuilder.finish
  let dataNumber ← finishOr "Could not convert data number" (·.dataNumber)
    (fun converter dataNumber => { converter with dataNumber }) DataNumberBuilder.finish
  let dataHistogram ← finishOr "Could not convert data histogram" (·.dataHistogram)
    (fun converter dataHistogram => { converter with dataHistogram }) DataHistogramBuilder.finish
  finishBatch resource scope attributes dataNumber dataHistogram

def convert (metrics : ResourceMetrics) : Fallible OtelToArrowConverter RecordBatch := do
  Fallible.forEach (fun scopeMetrics : ScopeMetrics =>
    Fallible.forEach (processMetric · metrics.resource scopeMetrics.scope) scopeMetrics.metrics) metrics.scopeMetrics
  finish

end OtelToArrowConverter

end Spicebench.OtelArrow
