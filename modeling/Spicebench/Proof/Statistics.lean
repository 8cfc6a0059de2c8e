import Spicebench.Construction.Statistics
import Spicebench.Library.OrderStatistics
import Spicebench.Proof.Duration
import Mathlib.Data.List.GetD
import Mathlib.Data.Rat.Cast.Order
import Mathlib.Tactic.FieldSimp
import Mathlib.Tactic.Linarith

namespace Spicebench.Metrics

open DurationParse Library

theorem le_iff_asNanos {left right : Duration} : left ≤ right ↔ left.asNanos ≤ right.asNanos := by
  have leftProper := left.proper
  have rightProper := right.proper
  have lexicographic : left ≤ right ↔ left.secs < right.secs ∨ left.secs = right.secs ∧ left.nanos ≤ right.nanos := by
    show toLex (left.secs, left.nanos) ≤ toLex (right.secs, right.nanos) ↔ _
    rw [Prod.Lex.le_iff]
    rfl
  rw [lexicographic, Duration.asNanos, Duration.asNanos]
  omega

/-- The middle of two durations, rounded down to a nanosecond. -/
def midpoint (lower upper : Duration) : Duration := nanosToDuration ((lower.asNanos + upper.asNanos) / 2)

theorem asNanos_midpoint (lower upper : Duration) :
    (midpoint lower upper).asNanos = (lower.asNanos + upper.asNanos) / 2 := by
  have lowerFits := lower.asNanos_le_max
  have upperFits := upper.asNanos_le_max
  apply asNanos_nanosToDuration
  omega

/-- A midpoint lies between its durations. -/
theorem midpoint_between (lower upper : Duration) (ordered : lower ≤ upper) :
    lower ≤ midpoint lower upper ∧ midpoint lower upper ≤ upper := by
  rw [le_iff_asNanos] at ordered
  rw [le_iff_asNanos, le_iff_asNanos, asNanos_midpoint]
  omega

theorem asNanos_half (duration : Duration) : (half duration).asNanos = duration.asNanos / 2 := by
  simp only [half, Duration.asNanos]
  omega

/-- The halved sum is the midpoint when the sum fits. -/
theorem half_add {lower upper : Duration} (fits : lower.asNanos + upper.asNanos ≤ Duration.max.asNanos) :
    (add lower upper).map half = .ok (midpoint lower upper) := by
  have bounded : lower.secs + upper.secs + (lower.nanos + upper.nanos) / 1000000000 ≤ u64Max := by
    simp only [Duration.asNanos, Duration.max] at fits
    omega
  simp only [add, dif_pos bounded, Except.map]
  apply congrArg Except.ok
  apply Duration.eq_of_asNanos
  rw [asNanos_half, asNanos_midpoint]
  simp only [Duration.asNanos]
  omega

theorem sorted_perm (durations : List Duration) : (sorted durations).Perm durations := List.perm_insertionSort _ _

theorem sorted_ascending (durations : List Duration) : (sorted durations).Pairwise (· ≤ ·) :=
  List.pairwise_insertionSort _ _

/-- Lists of the same durations are sorted alike. -/
theorem sorted_congr {durations reordered : List Duration} (perm : reordered.Perm durations) :
    sorted reordered = sorted durations := by
  apply List.Perm.eq_of_pairwise (fun one two _ _ below above => le_antisymm below above)
    (sorted_ascending reordered) (sorted_ascending durations)
  exact (sorted_perm reordered).trans (perm.trans (sorted_perm durations).symm)

theorem percentile_congr {durations reordered : List Duration} (perm : reordered.Perm durations) (rank : ℚ) :
    percentile reordered rank = percentile durations rank := by
  rw [percentile, percentile, sorted_congr perm]

theorem median_congr {durations reordered : List Duration} (perm : reordered.Perm durations) :
    median reordered = median durations := by
  rw [median, median, sorted_congr perm]

/-- The durations are not empty, and no two of them have a sum that overflows. -/
structure Averaged (durations : List Duration) : Prop where
  nonempty : durations ≠ []
  fits : durations.Pairwise fun one other => one.asNanos + other.asNanos ≤ Duration.max.asNanos

/-- The duration at an index of the sorted list; an index behind the list stands for the last one. -/
def ranked (durations : List Duration) (index : Nat) : Duration :=
  (sorted durations).getD (min index (durations.length - 1)) .zero

section Ranked

variable {durations : List Duration}

theorem length_sorted : (sorted durations).length = durations.length := (sorted_perm durations).length_eq

theorem getElem?_sorted {index : Nat} (inside : index < durations.length) :
    (sorted durations)[index]? = some (ranked durations index) := by
  have within : index < (sorted durations).length := length_sorted.symm ▸ inside
  have least : min index (durations.length - 1) = index := by omega
  rw [ranked, least, List.getD_eq_getElem _ _ within, List.getElem?_eq_getElem within]

theorem getAt_sorted {index : Nat} (inside : index < durations.length) :
    getAt (sorted durations) index = .ok (ranked durations index) := by
  rw [getAt, getElem?_sorted inside]

theorem ranked_mono (nonempty : durations ≠ []) : Monotone (ranked durations) := by
  intro lower upper ordered
  have size : 0 < durations.length := List.length_pos_iff.mpr nonempty
  have within (index : Nat) : min index (durations.length - 1) < (sorted durations).length := by
    rw [length_sorted]
    omega
  rw [ranked, ranked, List.getD_eq_getElem _ _ (within lower), List.getD_eq_getElem _ _ (within upper)]
  rcases Nat.lt_or_eq_of_le (show min lower (durations.length - 1) ≤ min upper (durations.length - 1) by omega) with
    below | same
  · exact List.pairwise_iff_getElem.mp (sorted_ascending durations) _ _ (within lower) (within upper) below
  · simp only [same, le_refl]

theorem ranked_mem {index : Nat} (inside : index < durations.length) : ranked durations index ∈ durations := by
  have found := List.mem_of_getElem? (getElem?_sorted inside)
  exact (sorted_perm durations).mem_iff.mp found

theorem exists_ranked {duration : Duration} (member : duration ∈ durations) :
    ∃ index < durations.length, ranked durations index = duration := by
  obtain ⟨index, inside, found⟩ := List.getElem_of_mem ((sorted_perm durations).mem_iff.mpr member)
  rw [length_sorted] at inside
  refine ⟨index, inside, ?_⟩
  have known := getElem?_sorted inside
  rw [List.getElem?_eq_some_iff] at known
  obtain ⟨_, known⟩ := known
  exact known.symm.trans found

theorem ranked_fits (averaged : Averaged durations) {lower upper : Nat} (ordered : lower < upper)
    (inside : upper < durations.length) :
    (ranked durations lower).asNanos + (ranked durations upper).asNanos ≤ Duration.max.asNanos := by
  have pairs : (sorted durations).Pairwise fun one other => one.asNanos + other.asNanos ≤ Duration.max.asNanos := by
    apply ((sorted_perm durations).pairwise_iff _).mpr averaged.fits
    intro one other fits
    rwa [Nat.add_comm]
  have first := getElem?_sorted (ordered.trans inside)
  have second := getElem?_sorted inside
  rw [List.getElem?_eq_some_iff] at first second
  obtain ⟨lowerInside, first⟩ := first
  obtain ⟨upperInside, second⟩ := second
  rw [← first, ← second]
  exact List.pairwise_iff_getElem.mp pairs lower upper lowerInside upperInside ordered

theorem minDuration_eq (nonempty : durations ≠ []) : minDuration durations = .ok (ranked durations 0) := by
  have size : 0 < durations.length := List.length_pos_iff.mpr nonempty
  have least : durations.min? = some (ranked durations 0) := by
    rw [List.min?_eq_some_iff]
    refine ⟨ranked_mem size, ?_⟩
    intro duration member
    obtain ⟨index, inside, rfl⟩ := exists_ranked member
    exact ranked_mono nonempty (Nat.zero_le index)
  rw [minDuration, least]

theorem maxDuration_eq (nonempty : durations ≠ []) :
    maxDuration durations = .ok (ranked durations (durations.length - 1)) := by
  have size : 0 < durations.length := List.length_pos_iff.mpr nonempty
  have greatest : durations.max? = some (ranked durations (durations.length - 1)) := by
    rw [List.max?_eq_some_iff]
    refine ⟨ranked_mem (by omega), ?_⟩
    intro duration member
    obtain ⟨index, inside, rfl⟩ := exists_ranked member
    exact ranked_mono nonempty (by omega)
  rw [maxDuration, greatest]

theorem toUsize_eq_floor (rank : ℚ) : toUsize rank = ⌊rank⌋₊ := Int.floor_toNat rank

theorem toUsize_floor (rank : ℚ) : toUsize (⌊rank⌋ : ℚ) = ⌊rank⌋₊ := by
  rw [toUsize, Int.floor_intCast, Int.floor_toNat]

theorem toUsize_ceil (rank : ℚ) : toUsize (⌈rank⌉ : ℚ) = ⌈rank⌉₊ := by
  rw [toUsize, Int.floor_intCast, Int.ceil_toNat]

/-- The rank of a percentile in a list. -/
def rankOf (durations : List Duration) (percentile : ℚ) : ℚ := percentile / 100 * (durations.length - 1 : Nat)

theorem floatErrorMargin_pos : 0 < floatErrorMargin := by norm_num [floatErrorMargin]

theorem rankOf_bounds {percentile : ℚ} (least : 0 ≤ percentile) (greatest : percentile ≤ 100) :
    0 ≤ rankOf durations percentile ∧ ⌈rankOf durations percentile⌉₊ ≤ durations.length - 1 := by
  have size : (0 : ℚ) ≤ (durations.length - 1 : Nat) := Nat.cast_nonneg _
  have part : percentile / 100 ≤ 1 := by
    rw [div_le_one (by norm_num)]
    exact greatest
  refine ⟨mul_nonneg (by positivity) size, ?_⟩
  rw [Nat.ceil_le]
  exact mul_le_of_le_one_left size part

/-- A percentile is the value at its rank. -/
theorem percentile_eq (averaged : Averaged durations) (short : durations.length ≤ 2 ^ 32) {part : ℚ}
    (least : 0 ≤ part) (greatest : part ≤ 100) :
    percentile durations part =
      .ok (atRank (ranked durations) midpoint floatErrorMargin (rankOf durations part)) := by
  have size : 0 < durations.length := List.length_pos_iff.mpr averaged.nonempty
  obtain ⟨positive, inside⟩ := @rankOf_bounds durations part least greatest
  have counted : (subtract (sorted durations).length 1 >>= toU32) = .ok (durations.length - 1) := by
    have last : durations.length - 1 ≤ u32Max := by simp only [u32Max]; omega
    rw [length_sorted, subtract, if_pos (by omega)]
    show toU32 (durations.length - 1) = _
    rw [toU32, if_pos last]
  have floored : ((⌊rankOf durations part⌋ : ℤ) : ℚ) = (⌊rankOf durations part⌋₊ : ℚ) := by
    rw [← Int.cast_natCast, Int.natCast_floor_eq_floor positive]
  have near : |rankOf durations part - ⌊rankOf durations part⌋| =
      rankOf durations part - ⌊rankOf durations part⌋₊ := by
    rw [abs_of_nonneg (sub_nonneg.mpr (Int.floor_le _)), floored]
  have below : ⌊rankOf durations part⌋₊ < durations.length := by
    have ordered := Nat.floor_le_ceil (rankOf durations part)
    omega
  unfold percentile
  rw [← bind_assoc, counted]
  change (if |rankOf durations part - ⌊rankOf durations part⌋| < floatErrorMargin then
      getAt (sorted durations) (toUsize (rankOf durations part))
    else getAt (sorted durations) (toUsize ⌊rankOf durations part⌋) >>= fun lowerDuration =>
      getAt (sorted durations) (toUsize ⌈rankOf durations part⌉) >>= fun upperDuration =>
        half <$> add lowerDuration upperDuration) = _
  rw [near, toUsize_eq_floor, toUsize_floor, toUsize_ceil, getAt_sorted below, atRank]
  split
  · rfl
  · rename_i far
    have apart : ⌊rankOf durations part⌋₊ < ⌈rankOf durations part⌉₊ := by
      apply Nat.lt_ceil.mpr
      have margin := floatErrorMargin_pos
      linarith
    rw [getAt_sorted (show ⌈rankOf durations part⌉₊ < durations.length by omega)]
    exact half_add (ranked_fits averaged apart (by omega))

/-- The middle of the list is the value at half of the last rank. -/
theorem median_eq (averaged : Averaged durations) :
    median durations = .ok (atRank (ranked durations) midpoint floatErrorMargin (rankOf durations 50)) := by
  have size : 0 < durations.length := List.length_pos_iff.mpr averaged.nonempty
  have rank : rankOf durations 50 = ((durations.length - 1 : Nat) : ℚ) / 2 := by
    rw [rankOf]
    ring
  unfold median
  dsimp only
  rw [length_sorted]
  split
  case isTrue even =>
    obtain ⟨count, length⟩ : ∃ count, durations.length = 2 * count + 2 := ⟨durations.length / 2 - 1, by omega⟩
    have halved : rankOf durations 50 = count + 1 / 2 := by
      rw [rank, length, show 2 * count + 2 - 1 = 2 * count + 1 by omega]
      push_cast
      ring
    have floor : ⌊(count + 1 / 2 : ℚ)⌋₊ = count := by
      rw [Nat.floor_eq_iff (by positivity)]
      constructor
      · linarith
      · linarith
    have ceil : ⌈(count + 1 / 2 : ℚ)⌉₊ = count + 1 := by
      rw [Nat.ceil_eq_iff (by omega)]
      push_cast [Nat.add_sub_cancel]
      constructor
      · linarith
      · linarith
    have far : ¬ (count + 1 / 2 : ℚ) - count < floatErrorMargin := by
      rw [add_sub_cancel_left]
      norm_num [floatErrorMargin]
    rw [halved, atRank, floor, ceil, if_neg far, length, show (2 * count + 2) / 2 = count + 1 by omega, subtract,
      if_pos (by omega)]
    show (getAt (sorted durations) count >>= fun lower => _) = _
    rw [getAt_sorted (by omega), getAt_sorted (by omega)]
    exact half_add (ranked_fits averaged (by omega) (by omega))
  case isFalse odd =>
    have whole : rankOf durations 50 = (durations.length / 2 : Nat) := by
      rw [rank, show durations.length - 1 = 2 * (durations.length / 2) by omega]
      push_cast
      ring
    rw [whole, atRank_natCast floatErrorMargin_pos]
    exact getAt_sorted (by omega)

theorem rankOf_mono {lower upper : ℚ} (ordered : lower ≤ upper) : rankOf durations lower ≤ rankOf durations upper := by
  unfold rankOf
  gcongr

/-- A list that is too long for a 32-bit index has no percentile. -/
theorem percentile_long (long : 2 ^ 32 < durations.length) (part : ℚ) :
    percentile durations part = .error (.error "out of range integral type conversion attempted") := by
  have counted : (subtract (sorted durations).length 1 >>= toU32) =
      .error (.error "out of range integral type conversion attempted") := by
    have large : ¬ durations.length - 1 ≤ u32Max := by simp only [u32Max]; omega
    rw [length_sorted, subtract, if_pos (by omega)]
    show toU32 (durations.length - 1) = _
    rw [toU32, if_neg large]
  unfold percentile
  rw [← bind_assoc, counted]
  rfl

end Ranked

/-- Percentiles of a list that is short enough are order statistics, and no longer list has one. -/
theorem percentiles_are_order_statistics (durations : List Duration) (averaged : Averaged durations) :
    (∀ reordered : List Duration, reordered.Perm durations →
      (∀ part, percentile reordered part = percentile durations part) ∧ median reordered = median durations) ∧
    (durations.length ≤ 2 ^ 32 →
      ∃ least greatest, minDuration durations = .ok least ∧ maxDuration durations = .ok greatest ∧
        percentile durations 0 = .ok least ∧ percentile durations 100 = .ok greatest ∧
        percentile durations 50 = median durations ∧
        ∀ part other, 0 ≤ part → part ≤ other → other ≤ 100 →
          ∃ lower upper, percentile durations part = .ok lower ∧ percentile durations other = .ok upper ∧
            least ≤ lower ∧ lower ≤ upper ∧ upper ≤ greatest) ∧
    (2 ^ 32 < durations.length →
      ∀ part, percentile durations part = .error (.error "out of range integral type conversion attempted")) := by
  refine ⟨fun reordered perm => ⟨percentile_congr perm, median_congr perm⟩, ?_, percentile_long⟩
  intro short
  have ascending := ranked_mono averaged.nonempty
  have zero : rankOf durations 0 = (0 : Nat) := by simp [rankOf]
  have hundred : rankOf durations 100 = (durations.length - 1 : Nat) := by
    rw [rankOf, div_self (by norm_num), one_mul]
  have value {part : ℚ} (least : 0 ≤ part) (greatest : part ≤ 100) := percentile_eq averaged short least greatest
  refine ⟨ranked durations 0, ranked durations (durations.length - 1), minDuration_eq averaged.nonempty,
    maxDuration_eq averaged.nonempty, ?_, ?_, ?_, ?_⟩
  · rw [value (by norm_num) (by norm_num), zero, atRank_natCast floatErrorMargin_pos]
  · rw [value (by norm_num) (by norm_num), hundred, atRank_natCast floatErrorMargin_pos]
  · rw [value (by norm_num) (by norm_num), median_eq averaged]
  · intro part other positive ordered most
    refine ⟨_, _, value positive (ordered.trans most), value (positive.trans ordered) most, ?_, ?_, ?_⟩
    · have above : _ ≤ atRank (ranked durations) midpoint floatErrorMargin (rankOf durations part) :=
        (atRank_bounds ascending midpoint_between (rankOf durations part)).1
      exact (ascending (Nat.zero_le _)).trans above
    · exact atRank_mono ascending midpoint_between (rankOf_mono ordered)
    · have below : atRank (ranked durations) midpoint floatErrorMargin (rankOf durations other) ≤ _ :=
        (atRank_bounds ascending midpoint_between (rankOf durations other)).2
      exact below.trans (ascending (rankOf_bounds (positive.trans ordered) most).2)

/-- Three durations, the longest one first. -/
def sampleDurations : List Duration :=
  [⟨3, 0, by decide, Duration.zero.proper⟩, ⟨1, 0, by decide, Duration.zero.proper⟩, ⟨2, 1, by decide, by decide⟩]

theorem percentiles_are_order_statistics_sample :
    percentile sampleDurations 50 = median sampleDurations ∧ percentile sampleDurations 75 =
      .ok ⟨2, 500000000, by decide, by decide⟩ := by
  have averaged : Averaged sampleDurations := ⟨by decide, by decide⟩
  obtain ⟨least, greatest, -, -, -, -, middle, -⟩ :=
    (percentiles_are_order_statistics sampleDurations averaged).2.1 (by decide)
  exact ⟨middle, by decide +kernel⟩

/-- One duration more than a 32-bit index can count has a least element and no percentile. -/
theorem long_list_has_no_percentile :
    Averaged (List.replicate (2 ^ 32 + 1) Duration.zero) ∧
      minDuration (List.replicate (2 ^ 32 + 1) Duration.zero) = .ok .zero ∧
      percentile (List.replicate (2 ^ 32 + 1) Duration.zero) 0 ≠
        minDuration (List.replicate (2 ^ 32 + 1) Duration.zero) := by
  generalize count : 2 ^ 32 + 1 = size
  have long : 2 ^ 32 < (List.replicate size Duration.zero).length := by
    rw [List.length_replicate]
    omega
  have nonempty : List.replicate size Duration.zero ≠ [] := by
    rw [Ne, List.replicate_eq_nil_iff]
    omega
  have least : minDuration (List.replicate size Duration.zero) = .ok .zero := by
    rw [minDuration_eq nonempty]
    have member := ranked_mem (List.length_pos_iff.mpr nonempty)
    rw [List.eq_of_mem_replicate member]
  refine ⟨⟨nonempty, ?_⟩, least, ?_⟩
  · rw [List.pairwise_replicate]
    exact Or.inr (by decide)
  · rw [percentile_long long, least]
    exact fun same => nomatch same

end Spicebench.Metrics
