import Spicebench.Proof.OtelArrow.Batch

namespace Spicebench.OtelArrow

open Library

structure ResourceRow where
  schemaUrl : Option String
  attributes : Option (List AttributeRow)
  droppedAttributesCount : Option Nat

structure ScopeRow where
  name : String
  version : Option String
  attributes : Option (List AttributeRow)
  droppedAttributesCount : Option Nat

/-- One row of a batch, where a null struct is `none`. -/
structure Row where
  timeUnixNano : Int
  startTimeUnixNano : Option Int
  resource : Option ResourceRow
  scope : Option ScopeRow
  schemaUrl : Option String
  metricType : Nat
  name : String
  description : String
  unit : String
  aggregationTemporality : Option Int
  isMonotonic : Option Bool
  flags : Option Nat
  attributes : Option (List AttributeRow)
  dataNumber : Option DataNumber
  dataHistogram : Option DataHistogram

def ResourceArray.row? (array : ResourceArray) (index : Nat) : Option (Option ResourceRow) := do
  let schemaUrl ← array.schemaUrl[index]?
  let attributes ← array.attributes.list? index
  let droppedAttributesCount ← array.droppedAttributesCount[index]?
  return if isValid array.validity index then some ⟨schemaUrl, attributes, droppedAttributesCount⟩ else none

def ScopeArray.row? (array : ScopeArray) (index : Nat) : Option (Option ScopeRow) := do
  let name ← array.name[index]?
  let version ← array.version[index]?
  let attributes ← array.attributes.list? index
  let droppedAttributesCount ← array.droppedAttributesCount[index]?
  return if isValid array.validity index then some ⟨name, version, attributes, droppedAttributesCount⟩ else none

def DataNumberArray.row? (array : DataNumberArray) (index : Nat) : Option (Option DataNumber) := do
  let intValue ← array.intValue[index]?
  let doubleValue ← array.doubleValue[index]?
  return if isValid array.validity index then some ⟨intValue, doubleValue⟩ else none

/-- The children of a valid histogram have its count, its sum and its two lists. -/
def DataHistogramArray.row? (array : DataHistogramArray) (index : Nat) : Option (Option DataHistogram) := do
  let count ← array.count[index]?
  let sum ← array.sum[index]?
  let bucketCounts ← array.bucketCounts[index]?
  let explicitBounds ← array.explicitBounds[index]?
  let min ← array.min[index]?
  let max ← array.max[index]?
  if isValid array.validity index then
    return some ⟨← count, ← sum, ← bucketCounts, ← explicitBounds, min, max⟩
  else return none

/-- A row is read across all columns, and is there when each of them reaches to it. -/
def RecordBatch.row? (batch : RecordBatch) (index : Nat) : Option Row := do
  let timeUnixNano ← batch.timeUnixNano[index]?
  let startTimeUnixNano ← batch.startTimeUnixNano[index]?
  let resource ← batch.resource.row? index
  let scope ← batch.scope.row? index
  let schemaUrl ← batch.schemaUrl[index]?
  let metricType ← batch.metricType[index]?
  let name ← batch.name[index]?
  let description ← batch.description[index]?
  let unit ← batch.unit[index]?
  let aggregationTemporality ← batch.aggregationTemporality[index]?
  let isMonotonic ← batch.isMonotonic[index]?
  let flags ← batch.flags[index]?
  let attributes ← batch.attributes.list? index
  let dataNumber ← batch.dataNumber.row? index
  let dataHistogram ← batch.dataHistogram.row? index
  return ⟨timeUnixNano, startTimeUnixNano, resource, scope, schemaUrl, metricType, name, description, unit,
    aggregationTemporality, isMonotonic, flags, attributes, dataNumber, dataHistogram⟩

/-- What a data point has to say in each column. -/
def DataPoint.row (point : DataPoint) : Row where
  timeUnixNano := point.time
  startTimeUnixNano := point.startTime
  resource := some ⟨point.resource.schemaUrl, some (point.resource.attributes.map KeyValue.row), none⟩
  scope := some ⟨point.scope.name, point.scope.version, some (point.scope.attributes.map KeyValue.row), none⟩
  schemaUrl := point.scope.schemaUrl
  metricType := point.metricType.toU8
  name := point.name
  description := point.description
  unit := point.unit
  aggregationTemporality := point.temporalityCode
  isMonotonic := point.isMonotonic
  flags := none
  attributes := some (point.attributes.map KeyValue.row)
  dataNumber := point.data.number?
  dataHistogram := point.data.histogram?

/-- The metrics are gauges, sums and histograms, whose data points have representable values, and no more attributes
than a list has offsets for. -/
structure ResourceMetrics.Representable (metrics : ResourceMetrics) : Prop where
  supported : metrics.supported = true
  points : ∀ point ∈ metrics.points, point.Representable
  resourceAttributes : (metrics.points.map (·.resource.attributes.length)).sum ≤ i32Max
  scopeAttributes : (metrics.points.map (·.scope.attributes.length)).sum ≤ i32Max
  attributes : (metrics.points.map (·.attributes.length)).sum ≤ i32Max

namespace OtelToArrowConverter

section Columns

variable (points : List DataPoint)

end Columns

theorem convert_eq (metrics : ResourceMetrics) (converter : OtelToArrowConverter) :
    convert metrics converter = Fallible.bind (traverse metrics) (fun _ => finish) converter := rfl

/-- Even columns with the rows of convertible metrics are a batch. -/
theorem convert_even {metrics : ResourceMetrics} {converter : OtelToArrowConverter} (aligned : converter.Aligned)
    (even : converter.Even) (supported : metrics.supported = true) (fits : PointsFit metrics.points converter) :
    convert metrics converter = (.ok (metrics.points.foldl appendPoint converter).batch, new) := by
  have traversed := (follows_traverse metrics converter).1 ⟨supported, fits⟩
  rw [convert_eq, Fallible.bind, traversed]
  exact (aligned.foldl_appendPoint metrics.points).finish_even
    ((even_foldl_appendPoint converter metrics.points).mpr even)

end OtelToArrowConverter

end Spicebench.OtelArrow
