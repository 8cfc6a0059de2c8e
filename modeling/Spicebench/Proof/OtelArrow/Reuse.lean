import Spicebench.Proof.OtelArrow.Rows

namespace Spicebench.OtelArrow

open Library

namespace OtelToArrowConverter

/-- The converter behind calls that were made one after the other. -/
def afterCalls (calls : List ResourceMetrics) : OtelToArrowConverter :=
  calls.foldl (fun converter metrics => (convert metrics converter).2) new

/-- A call that returns a batch returns that of a fresh converter. -/
def ReturnsFresh (converter : OtelToArrowConverter) (metrics : ResourceMetrics) : Prop :=
  ∀ batch, (convert metrics converter).1 = .ok batch → (convert metrics new).1 = .ok batch

/-- The kinds of the metrics are supported, their values are representable, and the attributes have offsets behind what
is left over. -/
structure Convertible (converter : OtelToArrowConverter) (metrics : ResourceMetrics) : Prop where
  supported : metrics.supported = true
  points : ∀ point ∈ metrics.points, point.Representable
  offsets : converter.Offsets metrics.points

/-- No rows are left over, or the columns that are left over differ in length, or the metrics are not convertible. -/
def Clean (converter : OtelToArrowConverter) (metrics : ResourceMetrics) : Prop :=
  converter.timeUnixNano = [] ∨ ¬ converter.Even ∨ ¬ converter.Convertible metrics

/-- A converter without times has nothing left over. -/
structure Sound (converter : OtelToArrowConverter) : Prop where
  aligned : converter.Aligned
  empty : converter.timeUnixNano = [] → converter = new

variable {converter : OtelToArrowConverter} {metrics : ResourceMetrics}

theorem sound_new : new.Sound := ⟨aligned_new, fun _ => rfl⟩

theorem convertible_iff : converter.Convertible metrics ↔
    metrics.supported = true ∧ PointsFit metrics.points converter := by
  rw [pointsFit_iff]
  exact ⟨fun convertible => ⟨convertible.supported, convertible.points, convertible.offsets⟩,
    fun ⟨supported, points, offsets⟩ => ⟨supported, points, offsets⟩⟩

/-- A call leaves a sound converter, also when it fails. -/
theorem Sound.convert (sound : converter.Sound) (metrics : ResourceMetrics) :
    (OtelToArrowConverter.convert metrics converter).2.Sound := by
  obtain ⟨runs, fails, -⟩ := follows_traverse metrics converter
  rw [convert_eq, Fallible.bind]
  by_cases convertible : metrics.supported = true ∧ PointsFit metrics.points converter
  · rw [runs convertible]
    have aligned := sound.aligned.foldl_appendPoint metrics.points
    by_cases even : (metrics.points.foldl appendPoint converter).Even
    · simp only [aligned.finish_even even]
      exact sound_new
    · obtain ⟨message, next, failed, nextAligned, left⟩ := aligned.finish_uneven even
      simp only [failed]
      refine ⟨nextAligned, fun empty => ?_⟩
      rcases left with rfl | same
      · rfl
      · -- without times there was nothing left over, and nothing was appended
        have rows := length_foldl_appendPoint converter metrics.points
        rw [← same, empty, List.length_nil] at rows
        have none : converter = new := sound.empty (List.length_eq_zero_iff.mp (by omega))
        rw [even_foldl_appendPoint, none] at even
        exact absurd even_new even
  · obtain ⟨message, next, failed, leaves⟩ := fails convertible
    rw [failed]
    refine ⟨leaves.aligned sound.aligned, fun empty => ?_⟩
    rcases leaves.rows with rfl | more
    · exact sound.empty empty
    · rw [empty] at more
      exact absurd more (Nat.not_lt_zero _)

theorem sound_afterCalls (calls : List ResourceMetrics) : (afterCalls calls).Sound := by
  induction calls using List.reverseRecOn with
  | nil => exact sound_new
  | append_singleton front metrics ih =>
      rw [afterCalls, List.foldl_concat]
      exact ih.convert metrics

/-- A batch is returned for convertible metrics on even columns only, and has the rows that were left over as well. -/
theorem Aligned.convert_ok (aligned : converter.Aligned) {batch : RecordBatch}
    (returned : (OtelToArrowConverter.convert metrics converter).1 = .ok batch) :
    converter.Even ∧ converter.Convertible metrics ∧
      batch.numRows = converter.timeUnixNano.length + metrics.points.length := by
  obtain ⟨runs, fails, -⟩ := follows_traverse metrics converter
  rw [convert_eq, Fallible.bind] at returned
  by_cases convertible : metrics.supported = true ∧ PointsFit metrics.points converter
  · rw [runs convertible] at returned
    have appended := aligned.foldl_appendPoint metrics.points
    by_cases even : (metrics.points.foldl OtelToArrowConverter.appendPoint converter).Even
    · simp only [appended.finish_even even, Except.ok.injEq] at returned
      refine ⟨(even_foldl_appendPoint converter metrics.points).mp even, convertible_iff.mpr convertible, ?_⟩
      rw [← returned]
      exact length_foldl_appendPoint converter metrics.points
    · obtain ⟨message, next, failed, -⟩ := appended.finish_uneven even
      simp only [failed, reduceCtorEq] at returned
  · obtain ⟨message, next, failed, -⟩ := fails convertible
    simp only [failed, reduceCtorEq] at returned

/-- One call returns what a fresh converter would exactly when it is clean. -/
theorem Sound.returnsFresh_iff (sound : converter.Sound) :
    converter.ReturnsFresh metrics ↔ converter.Clean metrics := by
  constructor
  · intro fresh
    by_contra dirty
    simp only [Clean, not_or, not_not] at dirty
    obtain ⟨left, even, convertible⟩ := dirty
    obtain ⟨supported, fits⟩ := convertible_iff.mp convertible
    have returned := convert_even sound.aligned even supported fits
    have more := (sound.aligned.convert_ok (congrArg Prod.fst returned)).2.2
    have rows := (aligned_new.convert_ok (fresh _ (congrArg Prod.fst returned))).2.2
    have length : converter.timeUnixNano.length = 0 := by
      rw [show new.timeUnixNano.length = 0 from rfl] at rows
      omega
    exact left (List.length_eq_zero_iff.mp length)
  · rintro (empty | uneven | unconvertible) batch returned
    · rwa [sound.empty empty] at returned
    · exact absurd (sound.aligned.convert_ok returned).1 uneven
    · exact absurd (sound.aligned.convert_ok returned).2.1 unconvertible

/-- In a sequence of calls every batch that is returned is that of a fresh converter, exactly when every call is clean
behind the calls before it. -/
theorem reuse_iff_clean (calls : List ResourceMetrics) :
    (∀ earlier metrics later, calls = earlier ++ metrics :: later → (afterCalls earlier).ReturnsFresh metrics) ↔
      ∀ earlier metrics later, calls = earlier ++ metrics :: later → (afterCalls earlier).Clean metrics := by
  constructor
  · intro fresh earlier metrics later split
    exact (sound_afterCalls earlier).returnsFresh_iff.mp (fresh earlier metrics later split)
  · intro clean earlier metrics later split
    exact (sound_afterCalls earlier).returnsFresh_iff.mpr (clean earlier metrics later split)

/-- A gauge with one point, and possibly a metric of an unsupported kind behind it. -/
def gaugeMetrics (behind : List Metric) : ResourceMetrics where
  resource := ⟨none, []⟩
  scopeMetrics := [⟨⟨"scope", none, none, []⟩, ⟨"rows", "", "1", .u64 (.gauge ⟨[⟨[], 7⟩], none, 5⟩)⟩ :: behind⟩]

/-- The point of a failed call is a row of the next batch. -/
theorem failed_call_leaves_row :
    let failing := gaugeMetrics [⟨"sizes", "", "By", .f64 .exponentialHistogram⟩]
    (convert failing new).1 = .error "ExponentialHistogram not yet supported" ∧
      ∃ batch fresh, (convert (gaugeMetrics []) (afterCalls [failing])).1 = .ok batch ∧
        (convert (gaugeMetrics []) new).1 = .ok fresh ∧ batch.numRows = 2 ∧ fresh.numRows = 1 ∧ batch ≠ fresh := by
  refine ⟨rfl, _, _, rfl, rfl, rfl, rfl, fun same => ?_⟩
  have rows := congrArg RecordBatch.numRows same
  exact absurd rows (by decide)

end OtelToArrowConverter

end Spicebench.OtelArrow
