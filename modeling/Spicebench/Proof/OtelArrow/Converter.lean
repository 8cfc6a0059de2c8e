import Spicebench.Construction.OtelArrow.Converter
import Spicebench.Proof.OtelArrow.Builders

namespace Spicebench.OtelArrow

open Library

/-- The times, the temporality and the number of a data point have a place in the columns. -/
structure DataPoint.Representable (point : DataPoint) : Prop where
  time : 0 ≤ point.time ∧ point.time ≤ i64Max
  startTime : ∀ start ∈ point.startTime, 0 ≤ start ∧ start ≤ i64Max
  temporality : ∀ temporality ∈ point.temporality, (temporalityToI32 temporality).isOk = true
  data : ∀ children, point.data = .number children → children.isOk = true

/-- The data points in the order of the traversal. -/
def MetricData.points {T : Type} [AppendDataNumber T] [AppendFloat64 T] (metric : Metric) (resource : Resource)
    (scope : InstrumentationScope) : MetricData T → List DataPoint
  | .gauge data => OtelToArrowConverter.gaugePoints metric resource scope data
  | .sum data => OtelToArrowConverter.sumPoints metric resource scope data
  | .histogram data => OtelToArrowConverter.histogramPoints metric resource scope data
  | .exponentialHistogram => []

def MetricData.supported {T : Type} : MetricData T → Bool
  | .exponentialHistogram => false
  | _ => true

def Metric.points (metric : Metric) (resource : Resource) (scope : InstrumentationScope) : List DataPoint :=
  match metric.data with
  | .f64 data => data.points metric resource scope
  | .u64 data => data.points metric resource scope
  | .i64 data => data.points metric resource scope

/-- The metric is a gauge, a sum or a histogram. -/
def Metric.supported (metric : Metric) : Bool :=
  match metric.data with
  | .f64 data => data.supported
  | .u64 data => data.supported
  | .i64 data => data.supported

def ResourceMetrics.points (metrics : ResourceMetrics) : List DataPoint :=
  metrics.scopeMetrics.flatMap fun scopeMetrics =>
    scopeMetrics.metrics.flatMap (·.points metrics.resource scopeMetrics.scope)

def ResourceMetrics.supported (metrics : ResourceMetrics) : Bool :=
  metrics.scopeMetrics.all fun scopeMetrics => scopeMetrics.metrics.all (·.supported)

def PointData.number? : PointData → Option DataNumber
  | .number children => children.toOption
  | .histogram _ => none

def PointData.histogram? : PointData → Option DataHistogram
  | .number _ => none
  | .histogram data => some data

def DataPoint.temporalityCode (point : DataPoint) : Option Int :=
  point.temporality.bind fun temporality => (temporalityToI32 temporality).toOption

def DataNumberBuilder.appendCell (builder : DataNumberBuilder) (cell : Option DataNumber) : DataNumberBuilder :=
  match cell with
  | some number => builder.appendNumber number
  | none => builder.append false

def DataHistogramBuilder.appendCell (builder : DataHistogramBuilder) (cell : Option DataHistogram) :
    DataHistogramBuilder :=
  match cell with
  | some histogram => builder.appendHistogram histogram
  | none => builder.append false

structure DataHistogramBuilder.Aligned (builder : DataHistogramBuilder) : Prop where
  sum : builder.sum.length = builder.count.length
  bucketCounts : builder.bucketCounts.length = builder.count.length
  explicitBounds : builder.explicitBounds.length = builder.count.length
  min : builder.min.length = builder.count.length
  max : builder.max.length = builder.count.length
  nulls : builder.nulls.length = builder.count.length

theorem DataHistogramBuilder.Aligned.appendCell {builder : DataHistogramBuilder} (aligned : builder.Aligned)
    (cell : Option DataHistogram) : (builder.appendCell cell).Aligned := by
  obtain ⟨sum, bucketCounts, explicitBounds, min, max, nulls⟩ := aligned
  cases cell <;> constructor <;> simp [DataHistogramBuilder.appendCell, DataHistogramBuilder.appendHistogram,
    DataHistogramBuilder.append, sum, bucketCounts, explicitBounds, min, max, nulls]

structure DataNumberBuilder.Aligned (builder : DataNumberBuilder) : Prop where
  double : builder.double.length = builder.int.length
  nulls : builder.nulls.length = builder.int.length

theorem DataNumberBuilder.Aligned.appendCell {builder : DataNumberBuilder} (aligned : builder.Aligned)
    (cell : Option DataNumber) : (builder.appendCell cell).Aligned := by
  obtain ⟨double, nulls⟩ := aligned
  cases cell <;> constructor <;> simp [DataNumberBuilder.appendCell, DataNumberBuilder.appendNumber,
    DataNumberBuilder.append, double, nulls]

namespace OtelToArrowConverter

variable (converter : OtelToArrowConverter)

/-- Inside each nested column the children and the validity have one length. -/
structure Aligned : Prop where
  resource : converter.resource.attributes.Aligned
  resourceNulls : converter.resource.nulls.length = converter.resource.droppedAttributesCount.length
  scope : converter.scope.attributes.Aligned
  scopeVersion : converter.scope.version.length = converter.scope.name.length
  scopeNulls : converter.scope.nulls.length = converter.scope.droppedAttributesCount.length
  attributes : converter.attributes.Aligned
  dataNumber : converter.dataNumber.Aligned
  dataHistogram : converter.dataHistogram.Aligned

theorem aligned_new : new.Aligned where
  resource := AttributesBuilder.aligned_new
  resourceNulls := rfl
  scope := AttributesBuilder.aligned_new
  scopeVersion := rfl
  scopeNulls := rfl
  attributes := AttributesBuilder.aligned_new
  dataNumber := ⟨rfl, rfl⟩
  dataHistogram := ⟨rfl, rfl, rfl, rfl, rfl, rfl⟩

def withResource (resource : Resource) : OtelToArrowConverter :=
  { converter with
    resource.schemaUrl := converter.resource.schemaUrl ++ [resource.schemaUrl]
    resource.attributes := converter.resource.attributes.appendList (resource.attributes.map KeyValue.row)
    resource.droppedAttributesCount := converter.resource.droppedAttributesCount ++ [none]
    resource.nulls := converter.resource.nulls ++ [true] }

def withScope (scope : InstrumentationScope) : OtelToArrowConverter :=
  { converter with
    scope.name := converter.scope.name ++ [scope.name]
    scope.version := converter.scope.version ++ [scope.version]
    scope.attributes := converter.scope.attributes.appendList (scope.attributes.map KeyValue.row)
    scope.droppedAttributesCount := converter.scope.droppedAttributesCount ++ [none]
    scope.nulls := converter.scope.nulls ++ [true]
    schemaUrl := converter.schemaUrl ++ [scope.schemaUrl] }

def withData (data : PointData) : OtelToArrowConverter :=
  { converter with
    dataNumber := converter.dataNumber.appendCell data.number?
    dataHistogram := converter.dataHistogram.appendCell data.histogram? }

/-- Every column has one more row. -/
def appendPoint (point : DataPoint) : OtelToArrowConverter :=
  withData { (converter.withResource point.resource).withScope point.scope with
    timeUnixNano := converter.timeUnixNano ++ [point.time]
    startTimeUnixNano := converter.startTimeUnixNano ++ [point.startTime]
    metricType := converter.metricType ++ [point.metricType.toU8]
    name := converter.name ++ [point.name]
    description := converter.description ++ [point.description]
    unit := converter.unit ++ [point.unit]
    aggregationTemporality := converter.aggregationTemporality ++ [point.temporalityCode]
    isMonotonic := converter.isMonotonic ++ [point.isMonotonic]
    flags := converter.flags ++ [none]
    attributes := converter.attributes.appendList (point.attributes.map KeyValue.row) } point.data

/-- There is an offset for the end of each list of the row. -/
structure Room (point : DataPoint) : Prop where
  resource : converter.resource.attributes.key.length + point.resource.attributes.length ≤ i32Max
  scope : converter.scope.attributes.key.length + point.scope.attributes.length ≤ i32Max
  attributes : converter.attributes.key.length + point.attributes.length ≤ i32Max

/-- The nested columns stay aligned, and no row is taken away. -/
structure Keeps (before after : OtelToArrowConverter) : Prop where
  aligned : before.Aligned → after.Aligned
  rows : before.timeUnixNano.length ≤ after.timeUnixNano.length

theorem Keeps.refl (converter : OtelToArrowConverter) : Keeps converter converter := ⟨id, le_rfl⟩

theorem Keeps.trans (one other third : OtelToArrowConverter) (first : Keeps one other) (second : Keeps other third) :
    Keeps one third := ⟨second.aligned ∘ first.aligned, first.rows.trans second.rows⟩

theorem follows_addResource (resource : Resource) : Fallible.Follows Keeps (addResource resource)
    (fun converter => converter.resource.attributes.key.length + resource.attributes.length ≤ i32Max)
    (withResource · resource) := by
  have url : Fallible.Follows Keeps (Fallible.modify fun converter : OtelToArrowConverter => { converter with
      resource.schemaUrl := converter.resource.schemaUrl ++ [resource.schemaUrl] }) (fun _ => True) _ :=
    Fallible.Follows.modify fun converter => ⟨fun aligned => { aligned with }, le_rfl⟩
  have list : Fallible.Follows Keeps (Fallible.focus
      (fun converter : OtelToArrowConverter => converter.resource.attributes)
      (fun converter attributes => { converter with resource.attributes := attributes })
      (addAttributesToBuilder resource.attributes)) _ _ :=
    (AttributesBuilder.follows_addAttributesToBuilder resource.attributes).focus fun converter part keeps =>
      ⟨fun aligned => { aligned with resource := keeps aligned.resource }, le_rfl⟩
  have validity : Fallible.Follows Keeps (Fallible.modify fun converter : OtelToArrowConverter => { converter with
      resource.droppedAttributesCount := converter.resource.droppedAttributesCount ++ [none]
      resource.nulls := converter.resource.nulls ++ [true] }) (fun _ => True) _ :=
    Fallible.Follows.modify fun converter =>
      ⟨fun aligned => { aligned with resourceNulls := by simp [aligned.resourceNulls] }, le_rfl⟩
  refine (url.bind Keeps.trans (list.bind Keeps.trans validity)).congr ?_ fun _ => rfl
  intro converter
  simp

theorem follows_addScope (scope : InstrumentationScope) : Fallible.Follows Keeps (addScope scope)
    (fun converter => converter.scope.attributes.key.length + scope.attributes.length ≤ i32Max)
    (withScope · scope) := by
  have names : Fallible.Follows Keeps (Fallible.modify fun converter : OtelToArrowConverter => { converter with
      scope.name := converter.scope.name ++ [scope.name]
      scope.version := converter.scope.version ++ [scope.version] }) (fun _ => True) _ :=
    Fallible.Follows.modify fun converter =>
      ⟨fun aligned => { aligned with scopeVersion := by simp [aligned.scopeVersion] }, le_rfl⟩
  have list : Fallible.Follows Keeps (Fallible.focus
      (fun converter : OtelToArrowConverter => converter.scope.attributes)
      (fun converter attributes => { converter with scope.attributes := attributes })
      (addAttributesToBuilder scope.attributes)) _ _ :=
    (AttributesBuilder.follows_addAttributesToBuilder scope.attributes).focus fun converter part keeps =>
      ⟨fun aligned => { aligned with scope := keeps aligned.scope }, le_rfl⟩
  have validity : Fallible.Follows Keeps (Fallible.modify fun converter : OtelToArrowConverter => { converter with
      scope.droppedAttributesCount := converter.scope.droppedAttributesCount ++ [none]
      scope.nulls := converter.scope.nulls ++ [true]
      schemaUrl := converter.schemaUrl ++ [scope.schemaUrl] }) (fun _ => True) _ :=
    Fallible.Follows.modify fun converter =>
      ⟨fun aligned => { aligned with scopeNulls := by simp [aligned.scopeNulls] }, le_rfl⟩
  refine (names.bind Keeps.trans (list.bind Keeps.trans validity)).congr ?_ fun _ => rfl
  intro converter
  simp

variable {converter} in
theorem Aligned.withData (aligned : converter.Aligned) (data : PointData) : (converter.withData data).Aligned :=
  { aligned with
    dataNumber := aligned.dataNumber.appendCell data.number?
    dataHistogram := aligned.dataHistogram.appendCell data.histogram? }

theorem follows_appendData (data : PointData) : Fallible.Follows Keeps (appendData data)
    (fun _ => ∀ children, data = .number children → children.isOk = true) (withData · data) := by
  have keeps : ∀ converter : OtelToArrowConverter, Keeps converter (converter.withData data) :=
    fun converter => ⟨fun aligned => aligned.withData data, le_rfl⟩
  intro converter
  cases data with
  | histogram data => exact ⟨fun _ => rfl, fun unguarded => absurd nofun unguarded, keeps converter⟩
  | number children =>
      cases children with
      | ok number =>
          refine ⟨fun _ => rfl, fun unguarded => absurd ?_ unguarded, keeps converter⟩
          rintro _ ⟨⟩
          rfl
      | error message =>
          refine ⟨fun guarded => ?_, fun _ => ⟨message, converter, rfl, .refl converter⟩, keeps converter⟩
          have found := guarded _ rfl
          cases found

theorem systemTimeToNanos_inside {time : SystemTime} (inside : 0 ≤ time ∧ time ≤ i64Max) :
    systemTimeToNanos time = .ok time := by
  rw [systemTimeToNanos, if_neg (not_lt.mpr inside.1), if_neg (not_lt.mpr inside.2)]

theorem systemTimeToNanos_outside {time : SystemTime} (outside : ¬ (0 ≤ time ∧ time ≤ i64Max)) :
    ∃ message, systemTimeToNanos time = .error message := by
  rw [systemTimeToNanos]
  split_ifs with before late
  · exact ⟨_, rfl⟩
  · exact ⟨_, rfl⟩
  · exact absurd ⟨not_lt.mp before, not_lt.mp late⟩ outside

theorem mapM_systemTimeToNanos_inside {time : Option SystemTime}
    (inside : ∀ start ∈ time, 0 ≤ start ∧ start ≤ i64Max) : time.mapM systemTimeToNanos = .ok time := by
  cases time with
  | none => rfl
  | some start =>
      rw [Option.mapM_some, systemTimeToNanos_inside (inside start rfl)]
      rfl

theorem mapM_systemTimeToNanos_outside {time : Option SystemTime}
    (outside : ¬ ∀ start ∈ time, 0 ≤ start ∧ start ≤ i64Max) :
    ∃ message, time.mapM systemTimeToNanos = .error message := by
  cases time with
  | none => exact absurd nofun outside
  | some start =>
      have beyond : ¬ (0 ≤ start ∧ start ≤ i64Max) := fun inside => outside (by simpa using inside)
      obtain ⟨message, failed⟩ := systemTimeToNanos_outside beyond
      refine ⟨message, ?_⟩
      rw [Option.mapM_some, failed]
      rfl

theorem mapM_temporalityToI32_known {point : DataPoint}
    (known : ∀ temporality ∈ point.temporality, (temporalityToI32 temporality).isOk = true) :
    point.temporality.mapM temporalityToI32 = .ok point.temporalityCode := by
  unfold DataPoint.temporalityCode
  cases found : point.temporality with
  | none => rfl
  | some temporality =>
      have one := known temporality found
      rw [Option.mapM_some]
      cases coded : temporalityToI32 temporality with
      | ok code => simp [coded, Except.toOption]
      | error message => rw [coded] at one; cases one

theorem mapM_temporalityToI32_unknown {temporality : Option Temporality}
    (unknown : ¬ ∀ kind ∈ temporality, (temporalityToI32 kind).isOk = true) :
    ∃ message, temporality.mapM temporalityToI32 = .error message := by
  cases temporality with
  | none => exact absurd nofun unknown
  | some kind =>
      rw [Option.mapM_some]
      cases coded : temporalityToI32 kind with
      | ok code => exact absurd (by simp [coded, Except.isOk, Except.toBool]) unknown
      | error message => exact ⟨message, rfl⟩

/-- The part of a row behind its time. -/
theorem follows_behindTime (point : DataPoint) : Fallible.Follows Keeps (do
      let startTime ← Fallible.ofExcept (point.startTime.mapM systemTimeToNanos)
      Fallible.modify fun converter => { converter with
        startTimeUnixNano := converter.startTimeUnixNano ++ [startTime] }
      addResource point.resource
      addScope point.scope
      Fallible.modify fun converter => { converter with
        metricType := converter.metricType ++ [point.metricType.toU8]
        name := converter.name ++ [point.name]
        description := converter.description ++ [point.description]
        unit := converter.unit ++ [point.unit] }
      let temporality ← Fallible.ofExcept (point.temporality.mapM temporalityToI32)
      Fallible.modify fun converter => { converter with
        aggregationTemporality := converter.aggregationTemporality ++ [temporality]
        isMonotonic := converter.isMonotonic ++ [point.isMonotonic]
        flags := converter.flags ++ [none] }
      Fallible.focus (·.attributes) (fun converter attributes => { converter with attributes })
        (addAttributesToBuilder point.attributes)
      appendData point.data)
    (fun converter => ((∀ start ∈ point.startTime, 0 ≤ start ∧ start ≤ i64Max) ∧
      (∀ temporality ∈ point.temporality, (temporalityToI32 temporality).isOk = true) ∧
      ∀ children, point.data = .number children → children.isOk = true) ∧ converter.Room point)
    (fun converter => { converter.appendPoint point with timeUnixNano := converter.timeUnixNano }) := by
  have start : Fallible.Follows Keeps (Fallible.modify fun converter : OtelToArrowConverter => { converter with
      startTimeUnixNano := converter.startTimeUnixNano ++ [point.startTime] }) (fun _ => True) _ :=
    Fallible.Follows.modify fun converter => ⟨fun aligned => { aligned with }, le_rfl⟩
  have names : Fallible.Follows Keeps (Fallible.modify fun converter : OtelToArrowConverter => { converter with
      metricType := converter.metricType ++ [point.metricType.toU8]
      name := converter.name ++ [point.name]
      description := converter.description ++ [point.description]
      unit := converter.unit ++ [point.unit] }) (fun _ => True) _ :=
    Fallible.Follows.modify fun converter => ⟨fun aligned => { aligned with }, le_rfl⟩
  have kinds : Fallible.Follows Keeps (Fallible.modify fun converter : OtelToArrowConverter => { converter with
      aggregationTemporality := converter.aggregationTemporality ++ [point.temporalityCode]
      isMonotonic := converter.isMonotonic ++ [point.isMonotonic]
      flags := converter.flags ++ [none] }) (fun _ => True) _ :=
    Fallible.Follows.modify fun converter => ⟨fun aligned => { aligned with }, le_rfl⟩
  have list : Fallible.Follows Keeps (Fallible.focus (fun converter : OtelToArrowConverter => converter.attributes)
      (fun converter attributes => { converter with attributes }) (addAttributesToBuilder point.attributes)) _ _ :=
    (AttributesBuilder.follows_addAttributesToBuilder point.attributes).focus fun converter part keeps =>
      ⟨fun aligned => { aligned with attributes := keeps aligned.attributes }, le_rfl⟩
  have behind := kinds.bind Keeps.trans (list.bind Keeps.trans (follows_appendData point.data))
  refine Fallible.Follows.congr (Fallible.Follows.ofExcept Keeps.refl mapM_systemTimeToNanos_inside
    mapM_systemTimeToNanos_outside (start.bind Keeps.trans ((follows_addResource point.resource).bind Keeps.trans
      ((follows_addScope point.scope).bind Keeps.trans (names.bind Keeps.trans
        (Fallible.Follows.ofExcept Keeps.refl mapM_temporalityToI32_known mapM_temporalityToI32_unknown behind))))))
    ?_ fun _ => rfl
  intro converter
  constructor
  · rintro ⟨start, -, resource, scope, -, coded, -, attributes, data⟩
    exact ⟨⟨start, coded, data⟩, ⟨resource, scope, attributes⟩⟩
  · rintro ⟨⟨start, coded, data⟩, ⟨resource, scope, attributes⟩⟩
    exact ⟨start, trivial, resource, scope, trivial, coded, trivial, attributes, data⟩

/-- A failed row is not there at all, or leaves its time. -/
structure Leaves (before after : OtelToArrowConverter) : Prop where
  aligned : before.Aligned → after.Aligned
  rows : after = before ∨ before.timeUnixNano.length < after.timeUnixNano.length

theorem Leaves.refl (converter : OtelToArrowConverter) : Leaves converter converter := ⟨id, .inl rfl⟩

theorem Leaves.trans (one other third : OtelToArrowConverter) (first : Leaves one other) (second : Leaves other third) :
    Leaves one third := by
  refine ⟨second.aligned ∘ first.aligned, ?_⟩
  rcases first.rows with rfl | more
  · exact second.rows
  · rcases second.rows with rfl | further
    · exact .inr more
    · exact .inr (more.trans further)

/-- A data point whose values are representable becomes a row in every column. -/
theorem follows_processPoint (point : DataPoint) : Fallible.Follows Leaves (processPoint point)
    (fun converter => point.Representable ∧ converter.Room point) (appendPoint · point) := by
  have joins : ∀ converter last : OtelToArrowConverter,
      Keeps { converter with timeUnixNano := converter.timeUnixNano ++ [point.time] } last → Leaves converter last := by
    intro converter last keeps
    refine ⟨fun aligned => keeps.aligned { aligned with }, .inr ?_⟩
    have rows := keeps.rows
    rw [List.length_append, List.length_singleton] at rows
    omega
  refine Fallible.Follows.congr (Fallible.Follows.ofExcept Leaves.refl systemTimeToNanos_inside
    systemTimeToNanos_outside ((follows_behindTime point).after joins)) ?_ fun _ => rfl
  intro converter
  constructor
  · rintro ⟨time, ⟨start, coded, data⟩, ⟨resource, scope, attributes⟩⟩
    exact ⟨⟨time, start, coded, data⟩, ⟨resource, scope, attributes⟩⟩
  · rintro ⟨⟨time, start, coded, data⟩, ⟨resource, scope, attributes⟩⟩
    exact ⟨time, ⟨start, coded, data⟩, ⟨resource, scope, attributes⟩⟩

/-- Every data point is representable when its turn comes. -/
def PointsFit (points : List DataPoint) (converter : OtelToArrowConverter) : Prop :=
  Fallible.GuardedAlong (fun point converter => point.Representable ∧ converter.Room point) appendPoint points converter

theorem follows_points (points : List DataPoint) : Fallible.Follows Leaves (Fallible.forEach processPoint points)
    (PointsFit points) (points.foldl appendPoint ·) :=
  Fallible.Follows.forEach Leaves.refl Leaves.trans follows_processPoint points

theorem follows_processData {T : Type} [AppendDataNumber T] [AppendFloat64 T] (metric : Metric) (resource : Resource)
    (scope : InstrumentationScope) (data : MetricData T) :
    Fallible.Follows Leaves (processData metric resource scope data)
      (fun converter => data.supported = true ∧ PointsFit (data.points metric resource scope) converter)
      ((data.points metric resource scope).foldl appendPoint ·) := by
  cases data with
  | gauge data | sum data | histogram data =>
      exact (follows_points _).congr (fun _ => (and_iff_right rfl).symm) fun _ => rfl
  | exponentialHistogram =>
      intro converter
      exact ⟨fun guarded => (nomatch guarded.1), fun _ => ⟨_, converter, rfl, .refl converter⟩, .refl converter⟩

theorem follows_processMetric (metric : Metric) (resource : Resource) (scope : InstrumentationScope) :
    Fallible.Follows Leaves (processMetric metric resource scope)
      (fun converter => metric.supported = true ∧ PointsFit (metric.points resource scope) converter)
      ((metric.points resource scope).foldl appendPoint ·) := by
  unfold processMetric Metric.supported Metric.points
  cases metric.data with
  | f64 data | u64 data | i64 data => exact follows_processData metric resource scope data

/-- The traversal makes a row of each data point. -/
def traverse (metrics : ResourceMetrics) : Fallible OtelToArrowConverter Unit :=
  Fallible.forEach (fun scopeMetrics : ScopeMetrics =>
    Fallible.forEach (processMetric · metrics.resource scopeMetrics.scope) scopeMetrics.metrics) metrics.scopeMetrics

theorem follows_traverse (metrics : ResourceMetrics) : Fallible.Follows Leaves (traverse metrics)
    (fun converter => metrics.supported = true ∧ PointsFit metrics.points converter)
    (metrics.points.foldl appendPoint ·) := by
  have scopes : ∀ scopeMetrics : ScopeMetrics, Fallible.Follows Leaves
      (Fallible.forEach (processMetric · metrics.resource scopeMetrics.scope) scopeMetrics.metrics)
      (fun converter => (∀ metric ∈ scopeMetrics.metrics, metric.supported = true) ∧
        PointsFit (scopeMetrics.metrics.flatMap (·.points metrics.resource scopeMetrics.scope)) converter)
      ((scopeMetrics.metrics.flatMap (·.points metrics.resource scopeMetrics.scope)).foldl appendPoint ·) := by
    intro scopeMetrics
    refine (Fallible.Follows.forEach Leaves.refl Leaves.trans
      (fun metric => follows_processMetric metric metrics.resource scopeMetrics.scope) _).congr
        (fun converter => Fallible.guardedAlong_flatMap _ _) fun converter => ?_
    rw [List.foldl_flatMap]
  refine (Fallible.Follows.forEach Leaves.refl Leaves.trans scopes metrics.scopeMetrics).congr
    (fun converter => (Fallible.guardedAlong_flatMap _ _).trans ?_) fun converter => ?_
  · rw [ResourceMetrics.supported, List.all_eq_true]
    simp only [List.all_eq_true]
    exact Iff.rfl
  · rw [ResourceMetrics.points, List.foldl_flatMap]

/-- The lengths of the columns behind the first one, where a nested column may have several. -/
def columnLengths : List Nat :=
  [converter.startTimeUnixNano.length, converter.resource.schemaUrl.length,
    converter.resource.attributes.listNulls.length, converter.resource.droppedAttributesCount.length,
    converter.scope.name.length, converter.scope.attributes.listNulls.length,
    converter.scope.droppedAttributesCount.length, converter.schemaUrl.length, converter.metricType.length,
    converter.name.length, converter.description.length, converter.unit.length,
    converter.aggregationTemporality.length, converter.isMonotonic.length, converter.flags.length,
    converter.attributes.listNulls.length, converter.dataNumber.int.length, converter.dataHistogram.count.length]

/-- All columns have one length. -/
def Even : Prop := ∀ length ∈ converter.columnLengths, length = converter.timeUnixNano.length

theorem even_new : new.Even := by simp [Even, columnLengths, new, ResourceBuilder.new, ScopeBuilder.new,
  AttributesBuilder.new, DataNumberBuilder.new, DataHistogramBuilder.new]

theorem columnLengths_appendPoint (point : DataPoint) :
    (converter.appendPoint point).columnLengths = converter.columnLengths.map (· + 1) := by
  have number : (converter.dataNumber.appendCell point.data.number?).int.length =
      converter.dataNumber.int.length + 1 := by
    cases point.data.number? <;> simp [DataNumberBuilder.appendCell, DataNumberBuilder.appendNumber,
      DataNumberBuilder.append]
  have histogram : (converter.dataHistogram.appendCell point.data.histogram?).count.length =
      converter.dataHistogram.count.length + 1 := by
    cases point.data.histogram? <;> simp [DataHistogramBuilder.appendCell, DataHistogramBuilder.appendHistogram,
      DataHistogramBuilder.append]
  simp [columnLengths, appendPoint, withData, withScope, withResource, AttributesBuilder.appendList, number, histogram]

theorem length_foldl_appendPoint (points : List DataPoint) :
    (points.foldl appendPoint converter).timeUnixNano.length = converter.timeUnixNano.length + points.length := by
  induction points generalizing converter with
  | nil => rfl
  | cons point rest ih =>
      have one : (converter.appendPoint point).timeUnixNano.length = converter.timeUnixNano.length + 1 := by
        simp [appendPoint, withData]
      rw [List.foldl_cons, ih, one, List.length_cons]
      omega

/-- Rows are as even as what they are appended to. -/
theorem even_foldl_appendPoint (points : List DataPoint) :
    (points.foldl appendPoint converter).Even ↔ converter.Even := by
  induction points generalizing converter with
  | nil => exact Iff.rfl
  | cons point rest ih =>
      have one : (converter.appendPoint point).timeUnixNano.length = converter.timeUnixNano.length + 1 := by
        simp [appendPoint, withData]
      rw [List.foldl_cons, ih, Even, columnLengths_appendPoint, one]
      simp [Even]

variable {converter}

theorem Aligned.appendPoint (aligned : converter.Aligned) (point : DataPoint) :
    (converter.appendPoint point).Aligned where
  resource := aligned.resource.appendList _
  resourceNulls := by simp [OtelToArrowConverter.appendPoint, OtelToArrowConverter.withData, withScope, withResource,
    aligned.resourceNulls]
  scope := aligned.scope.appendList _
  scopeVersion := by simp [OtelToArrowConverter.appendPoint, OtelToArrowConverter.withData, withScope, withResource,
    aligned.scopeVersion]
  scopeNulls := by simp [OtelToArrowConverter.appendPoint, OtelToArrowConverter.withData, withScope, withResource,
    aligned.scopeNulls]
  attributes := aligned.attributes.appendList _
  dataNumber := aligned.dataNumber.appendCell _
  dataHistogram := aligned.dataHistogram.appendCell _

theorem Aligned.foldl_appendPoint (aligned : converter.Aligned) (points : List DataPoint) :
    (points.foldl OtelToArrowConverter.appendPoint converter).Aligned := by
  induction points generalizing converter with
  | nil => exact aligned
  | cons point rest ih => exact ih (aligned.appendPoint point)

end OtelToArrowConverter

end Spicebench.OtelArrow
