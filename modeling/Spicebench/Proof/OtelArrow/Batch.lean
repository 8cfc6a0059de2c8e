import Spicebench.Proof.OtelArrow.Converter

namespace Spicebench.OtelArrow

open Library

theorem structFits_iff {length : Nat} {others : List Nat} {nulls : List Bool} :
    structFits length others (finishNulls nulls) = true ↔
      (∀ other ∈ others, other = length) ∧ (finishNulls nulls).all (·.length = length) = true := by
  simp [structFits]

namespace ResourceBuilder

variable (builder : ResourceBuilder)

def array : ResourceArray :=
  ⟨builder.schemaUrl, builder.attributes.array, builder.droppedAttributesCount, finishNulls builder.nulls⟩

/-- The builder is emptied in any case. -/
theorem finish_aligned {builder : ResourceBuilder} (attributes : builder.attributes.Aligned)
    (nulls : builder.nulls.length = builder.droppedAttributesCount.length) :
    builder.finish = (if builder.attributes.listNulls.length = builder.schemaUrl.length ∧
      builder.droppedAttributesCount.length = builder.schemaUrl.length then some builder.array else none, new) := by
  unfold finish
  rw [attributes.finish]
  simp only [Prod.mk.injEq]
  refine ⟨?_, rfl⟩
  congr 1
  rw [structFits_iff, eq_iff_iff]
  have lists : builder.attributes.array.offsets.length - 1 = builder.attributes.listNulls.length := by
    simp [AttributesBuilder.array, attributes.lists]
  constructor
  · rintro ⟨same, -⟩
    exact ⟨lists ▸ same _ (by simp), same _ (by simp)⟩
  · rintro ⟨list, dropped⟩
    exact ⟨by simp [lists, list, dropped], finishNulls_all (nulls.trans dropped)⟩

end ResourceBuilder

namespace ScopeBuilder

variable (builder : ScopeBuilder)

def array : ScopeArray :=
  ⟨builder.name, builder.version, builder.attributes.array, builder.droppedAttributesCount, finishNulls builder.nulls⟩

/-- The builder is emptied in any case. -/
theorem finish_aligned {builder : ScopeBuilder} (attributes : builder.attributes.Aligned)
    (version : builder.version.length = builder.name.length)
    (nulls : builder.nulls.length = builder.droppedAttributesCount.length) :
    builder.finish = (if builder.attributes.listNulls.length = builder.name.length ∧
      builder.droppedAttributesCount.length = builder.name.length then some builder.array else none, new) := by
  unfold finish
  rw [attributes.finish]
  simp only [Prod.mk.injEq]
  refine ⟨?_, rfl⟩
  congr 1
  rw [structFits_iff, eq_iff_iff]
  have lists : builder.attributes.array.offsets.length - 1 = builder.attributes.listNulls.length := by
    simp [AttributesBuilder.array, attributes.lists]
  constructor
  · rintro ⟨same, -⟩
    exact ⟨lists ▸ same _ (by simp), same _ (by simp)⟩
  · rintro ⟨list, dropped⟩
    exact ⟨by simp [lists, version, list, dropped], finishNulls_all (nulls.trans dropped)⟩

end ScopeBuilder

def DataNumberBuilder.array (builder : DataNumberBuilder) : DataNumberArray :=
  ⟨builder.int, builder.double, finishNulls builder.nulls⟩

theorem DataNumberBuilder.Aligned.finish {builder : DataNumberBuilder} (aligned : builder.Aligned) :
    builder.finish = (some builder.array, new) := by
  have fits : structFits builder.int.length [builder.double.length] (finishNulls builder.nulls) = true :=
    structFits_iff.mpr ⟨by simp [aligned.double], finishNulls_all aligned.nulls⟩
  unfold DataNumberBuilder.finish
  simp [fits, DataNumberBuilder.array]

def DataHistogramBuilder.array (builder : DataHistogramBuilder) : DataHistogramArray :=
  ⟨builder.toHistogramColumns, finishNulls builder.nulls⟩

theorem DataHistogramBuilder.Aligned.finish {builder : DataHistogramBuilder} (aligned : builder.Aligned) :
    builder.finish = (some builder.array, new) := by
  have fits : structFits builder.count.length [builder.sum.length, builder.bucketCounts.length,
      builder.explicitBounds.length, builder.min.length, builder.max.length] (finishNulls builder.nulls) = true :=
    structFits_iff.mpr ⟨by simp [aligned.sum, aligned.bucketCounts, aligned.explicitBounds, aligned.min, aligned.max],
      finishNulls_all aligned.nulls⟩
  unfold DataHistogramBuilder.finish
  simp [fits, DataHistogramBuilder.array]

namespace OtelToArrowConverter

variable (converter : OtelToArrowConverter)

/-- The columns of the builders. -/
def batch : RecordBatch :=
  { timeUnixNano := converter.timeUnixNano, startTimeUnixNano := converter.startTimeUnixNano,
    resource := converter.resource.array, scope := converter.scope.array, schemaUrl := converter.schemaUrl,
    metricType := converter.metricType, name := converter.name, description := converter.description,
    unit := converter.unit, aggregationTemporality := converter.aggregationTemporality,
    isMonotonic := converter.isMonotonic, flags := converter.flags, attributes := converter.attributes.array,
    dataNumber := converter.dataNumber.array, dataHistogram := converter.dataHistogram.array }

variable {converter}

/-- The resources and the scopes are checked on their own, and then all columns together. -/
theorem Aligned.finish (aligned : converter.Aligned) :
    finish converter =
      if converter.resource.attributes.listNulls.length = converter.resource.schemaUrl.length ∧
          converter.resource.droppedAttributesCount.length = converter.resource.schemaUrl.length then
        if converter.scope.attributes.listNulls.length = converter.scope.name.length ∧
            converter.scope.droppedAttributesCount.length = converter.scope.name.length then
          (converter.batch.tryNew, new)
        else (.error "Could not convert scope", { converter with resource := .new, scope := .new })
      else (.error "Could not convert resource", { converter with resource := .new }) := by
  have resource := ResourceBuilder.finish_aligned aligned.resource aligned.resourceNulls
  have scope := ScopeBuilder.finish_aligned aligned.scope aligned.scopeVersion aligned.scopeNulls
  unfold OtelToArrowConverter.finish
  show Fallible.bind _ _ converter = _
  split_ifs with one other
  · rw [if_pos one] at resource
    rw [if_pos other] at scope
    simp only [Fallible.bind, finishOr, resource, scope, bind, aligned.attributes.finish, aligned.dataNumber.finish,
      aligned.dataHistogram.finish]
    rfl
  · rw [if_pos one] at resource
    rw [if_neg other] at scope
    simp only [Fallible.bind, finishOr, resource, scope, bind]
  · rw [if_neg one] at resource
    simp only [Fallible.bind, finishOr, resource]

theorem Aligned.columnLengths_batch (aligned : converter.Aligned) : converter.batch.columnLengths =
    [converter.timeUnixNano.length, converter.startTimeUnixNano.length, converter.resource.schemaUrl.length,
      converter.scope.name.length, converter.schemaUrl.length, converter.metricType.length, converter.name.length,
      converter.description.length, converter.unit.length, converter.aggregationTemporality.length,
      converter.isMonotonic.length, converter.flags.length, converter.attributes.listNulls.length,
      converter.dataNumber.int.length, converter.dataHistogram.count.length] := by
  simp [RecordBatch.columnLengths, batch, ResourceBuilder.array, ScopeBuilder.array, AttributesBuilder.array,
    DataNumberBuilder.array, DataHistogramBuilder.array, aligned.attributes.lists]

/-- Even columns are a batch, and the builders are empty behind it. -/
theorem Aligned.finish_even (aligned : converter.Aligned) (even : converter.Even) :
    OtelToArrowConverter.finish converter = (.ok converter.batch, new) := by
  have fits : converter.batch.columnLengths.all (· = converter.batch.numRows) = true := by
    rw [aligned.columnLengths_batch]
    simp only [Even, columnLengths, List.forall_mem_cons] at even
    simp [RecordBatch.numRows, batch, even]
  simp only [Even, columnLengths, List.forall_mem_cons] at even
  rw [aligned.finish, if_pos (by simp [even]), if_pos (by simp [even]), RecordBatch.tryNew, if_pos fits]

/-- Uneven columns are no batch; unless all builders are emptied, the times are kept. -/
theorem Aligned.finish_uneven (aligned : converter.Aligned) (uneven : ¬ converter.Even) :
    ∃ message next, OtelToArrowConverter.finish converter = (.error message, next) ∧ next.Aligned ∧
      (next = new ∨ next.timeUnixNano = converter.timeUnixNano) := by
  rw [aligned.finish]
  split_ifs with resource scope
  · have fails : converter.batch.columnLengths.all (· = converter.batch.numRows) ≠ true := by
      intro fits
      apply uneven
      rw [aligned.columnLengths_batch] at fits
      simp only [List.all_cons, Bool.and_eq_true, decide_eq_true_eq] at fits
      simp only [RecordBatch.numRows, batch] at fits
      simp [Even, columnLengths, fits, resource, scope]
    rw [RecordBatch.tryNew, if_neg fails]
    exact ⟨_, _, rfl, aligned_new, .inl rfl⟩
  · exact ⟨_, _, rfl, { aligned with
      resource := AttributesBuilder.aligned_new, resourceNulls := rfl, scope := AttributesBuilder.aligned_new,
      scopeVersion := rfl, scopeNulls := rfl }, .inr rfl⟩
  · exact ⟨_, _, rfl, { aligned with
      resource := AttributesBuilder.aligned_new, resourceNulls := rfl }, .inr rfl⟩

/-- The offsets of the lists reach behind what is left over and the rows of the given data points. -/
def Offsets (converter : OtelToArrowConverter) (points : List DataPoint) : Prop :=
  points ≠ [] →
    converter.resource.attributes.key.length + (points.map (·.resource.attributes.length)).sum ≤ i32Max ∧
    converter.scope.attributes.key.length + (points.map (·.scope.attributes.length)).sum ≤ i32Max ∧
    converter.attributes.key.length + (points.map (·.attributes.length)).sum ≤ i32Max

theorem pointsFit_iff (points : List DataPoint) (converter : OtelToArrowConverter) :
    PointsFit points converter ↔ (∀ point ∈ points, point.Representable) ∧ converter.Offsets points := by
  induction points generalizing converter with
  | nil => simp [PointsFit, Fallible.GuardedAlong, Offsets]
  | cons point rest ih =>
      have later := ih (converter.appendPoint point)
      have resource : (converter.appendPoint point).resource.attributes.key.length =
          converter.resource.attributes.key.length + point.resource.attributes.length := by
        simp [appendPoint, withData, withScope, withResource, AttributesBuilder.appendList, AttributesBuilder.extend]
      have scope : (converter.appendPoint point).scope.attributes.key.length =
          converter.scope.attributes.key.length + point.scope.attributes.length := by
        simp [appendPoint, withData, withScope, withResource, AttributesBuilder.appendList, AttributesBuilder.extend]
      have attributes : (converter.appendPoint point).attributes.key.length =
          converter.attributes.key.length + point.attributes.length := by
        simp [appendPoint, withData, withScope, withResource, AttributesBuilder.appendList, AttributesBuilder.extend]
      have room : converter.Room point ∧ (converter.appendPoint point).Offsets rest ↔
          converter.Offsets (point :: rest) := by
        simp only [Offsets, resource, scope, attributes, List.map_cons, List.sum_cons, ne_eq, reduceCtorEq,
          not_false_eq_true, forall_const]
        constructor
        · rintro ⟨⟨one, two, three⟩, others⟩
          by_cases last : rest = []
          · subst last
            simp only [List.map_nil, List.sum_nil]
            omega
          · have := others last
            omega
        · intro fits
          exact ⟨⟨by omega, by omega, by omega⟩, fun _ => by omega⟩
      rw [List.forall_mem_cons, ← room]
      unfold PointsFit at later ⊢
      rw [Fallible.GuardedAlong, later]
      tauto

end OtelToArrowConverter

end Spicebench.OtelArrow
