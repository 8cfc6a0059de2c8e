import Spicebench.Construction.Duration
import Mathlib.Tactic.IntervalCases
import Mathlib.Tactic.Ring

namespace Spicebench.DurationParse
open Library

namespace Duration

/-- The length of a duration in nanoseconds. -/
def asNanos (duration : Duration) : Nat := duration.secs * 1000000000 + duration.nanos

theorem asNanos_eq (duration : Duration) : duration.asNanos = duration.secs * 1000000000 + duration.nanos := rfl

theorem asNanos_max : max.asNanos = u64Max * 1000000000 + 999999999 := rfl

theorem eq_of_asNanos {left right : Duration} (same : left.asNanos = right.asNanos) : left = right := by
  have leftProper := left.proper
  have rightProper := right.proper
  rw [asNanos_eq, asNanos_eq] at same
  ext
  · omega
  · omega

theorem asNanos_le_max (duration : Duration) : duration.asNanos ≤ max.asNanos := by
  have bounded := duration.bounded
  have proper := duration.proper
  rw [asNanos_eq, asNanos_max]
  omega

/-- A sum that fits is exact. -/
theorem asNanos_saturatingAdd {left right : Duration} (fits : left.asNanos + right.asNanos ≤ max.asNanos) :
    (left.saturatingAdd right).asNanos = left.asNanos + right.asNanos := by
  rw [asNanos_max, asNanos_eq, asNanos_eq] at fits
  unfold saturatingAdd
  dsimp only
  rw [dif_pos (by omega)]
  simp only [asNanos_eq]
  omega

end Duration

/-- A number of nanoseconds that fits is exact. -/
theorem asNanos_nanosToDuration {nanos : Nat} (fits : nanos ≤ Duration.max.asNanos) :
    (nanosToDuration nanos).asNanos = nanos := by
  rw [Duration.asNanos_max] at fits
  unfold nanosToDuration
  rw [dif_pos (by omega)]
  simp only [Duration.asNanos_eq]
  omega

/-- A segment of a formatted duration has a value and a unit. -/
structure Segment where
  value : Nat
  suffix : List Char
  unitNanos : Nat

namespace Segment

def render (segment : Segment) : List Char := Nat.toDigits 10 segment.value ++ segment.suffix

def nanos (segment : Segment) : Nat := segment.value * segment.unitNanos

/-- The formatter writes these units. -/
def Written (segment : Segment) : Prop :=
  segment.value ≤ u64Max ∧ (segment.suffix, segment.unitNanos) ∈
    [(['w'], nanosPerWeek), (['d'], nanosPerDay), (['h'], nanosPerHour), (['m'], nanosPerMinute),
      (['s'], nanosPerSecond), (['m', 's'], nanosPerMillisecond), (['u', 's'], nanosPerMicrosecond),
      (['n', 's'], nanosPerNanosecond)]

end Segment

/-- A text ends or goes on with a blank. -/
def Separated (rest : List Char) : Prop := rest = [] ∨ ∃ tail, rest = ' ' :: tail

section Segments

variable {segment : Segment} {rest input : List Char} {total : Duration}

/-- The unit of a segment is told apart from the units that it starts with. -/
theorem parseTimeUnit_suffix (written : segment.Written) (separated : Separated rest) :
    parseTimeUnit (segment.suffix ++ rest) = (segment.unitNanos, rest) := by
  obtain ⟨value, suffix, unitNanos⟩ := segment
  obtain ⟨_, listed⟩ := written
  simp only [List.mem_cons, Prod.mk.injEq, List.not_mem_nil, or_false] at listed
  rcases separated with rfl | ⟨tail, rfl⟩ <;>
    rcases listed with ⟨rfl, rfl⟩ | ⟨rfl, rfl⟩ | ⟨rfl, rfl⟩ | ⟨rfl, rfl⟩ | ⟨rfl, rfl⟩ | ⟨rfl, rfl⟩ | ⟨rfl, rfl⟩ |
      ⟨rfl, rfl⟩ <;>
    simp [parseTimeUnit, stripUnit, units, List.cons_prefix_cons]

/-- The unit of a segment starts with a letter that is no part of a number. -/
theorem exists_suffix_cons (written : segment.Written) :
    ∃ first others, segment.suffix = first :: others ∧ first.isDigit = false ∧ first ≠ '.' ∧ first ≠ 'e' ∧
      first ≠ 'E' := by
  obtain ⟨value, suffix, unitNanos⟩ := segment
  obtain ⟨_, listed⟩ := written
  simp only [List.mem_cons, Prod.mk.injEq, List.not_mem_nil, or_false] at listed
  rcases listed with ⟨rfl, rfl⟩ | ⟨rfl, rfl⟩ | ⟨rfl, rfl⟩ | ⟨rfl, rfl⟩ | ⟨rfl, rfl⟩ | ⟨rfl, rfl⟩ | ⟨rfl, rfl⟩ |
    ⟨rfl, rfl⟩ <;> exact ⟨_, _, rfl, by decide, by decide, by decide, by decide⟩

/-- The number of a segment is read, and its unit is left. -/
theorem parseNumber_render (written : segment.Written) (rest : List Char) :
    parseNumber (segment.render ++ rest) = .ok (⟨segment.value, 0, 0⟩, segment.suffix ++ rest) := by
  obtain ⟨first, others, starts, plain, point, lower, upper⟩ := exists_suffix_cons written
  obtain ⟨digit, digits, listed, _⟩ := exists_decimal_cons segment.value
  have stops : ∀ next ∈ (segment.suffix ++ rest).head?, next.isDigit = false := by
    simp [starts, plain]
  have taken := @takeWhile_decimal segment.value _ stops
  have left := @dropWhile_decimal segment.value _ stops
  have bounded : segment.value < u64Max + 1 := Nat.lt_succ_of_le written.1
  have fraction : readFraction (segment.suffix ++ rest) = ([], segment.suffix ++ rest) := by
    simp [starts, readFraction, point]
  have exponent : ∀ number, readExponent number (segment.suffix ++ rest) = .ok (number, segment.suffix ++ rest) := by
    simp [starts, readExponent, lower, upper]
  unfold parseNumber Segment.render
  rw [List.append_assoc, taken, left, fraction]
  simp only [readU64, parseUnsigned_decimal bounded, exponent, Nat.toDigits_ne_nil, if_false, false_and, if_true,
    List.append_eq_nil_iff]
  rfl

/-- A digit is neither a sign nor the start of an infinity. -/
theorem digit_plain {digit : Char} (isDigit : digit.isDigit = true) :
    digit ≠ '-' ∧ digit ≠ '+' ∧ digit.toLower ≠ 'i' := by
  obtain ⟨low, high⟩ := isDigit_iff_range.mp isDigit
  rw [← Char.ofNat_toNat digit]
  interval_cases digit.toNat <;> decide

theorem trimStart_digit {text : List Char} (digit : Char) (isDigit : digit.isDigit = true) :
    trimStart (digit :: text) = digit :: text := by
  have visible : isWhitespace digit = false := by
    obtain ⟨low, high⟩ := isDigit_iff_range.mp isDigit
    simp only [isWhitespace, Bool.or_eq_false_iff, Bool.and_eq_false_iff, decide_eq_false_iff_not, beq_eq_false_iff_ne]
    omega
  simp [trimStart, visible]

/-- A segment is added to the total, with or without a blank before it. -/
theorem parseSegments_render (written : segment.Written) (separated : Separated rest) (parsedAny : Bool)
    {blank : List Char} (blanks : blank = [] ∨ blank = [' ']) :
    parseSegments input total parsedAny (blank ++ (segment.render ++ rest)) =
      parseSegments input (total.saturatingAdd (nanosToDuration segment.nanos)) true rest := by
  obtain ⟨digit, digits, listed, isDigit⟩ := exists_decimal_cons segment.value
  have starts : segment.render ++ rest = digit :: (digits ++ (segment.suffix ++ rest)) := by
    simp [Segment.render, listed]
  have trimmed : trimStart (blank ++ (segment.render ++ rest)) = segment.render ++ rest := by
    rw [starts]
    rcases blanks with rfl | rfl
    · exact trimStart_digit digit isDigit
    · exact (List.dropWhile_cons_of_pos (by decide)).trans (trimStart_digit digit isDigit)
  have read := parseNumber_render written rest
  rw [parseSegments]
  split
  · rename_i empty
    rw [trimmed, starts] at empty
    cases empty
  · rename_i first others same
    rw [trimmed] at same
    rw [same] at read
    split
    · rename_i failure failed
      simp [failed] at read
    · rename_i number left parsed
      obtain ⟨rfl, rfl⟩ := Prod.mk.inj (Except.ok.inj (parsed.symm.trans read))
      rw [parseTimeUnit_suffix written separated]
      simp [multiplyToNanos, Segment.nanos]

/-- The text behind the first of several segments. -/
def following (segments : List Segment) : List Char := segments.flatMap fun segment => ' ' :: segment.render

theorem following_separated (segments : List Segment) : Separated (following segments) := by
  cases segments with
  | nil => exact .inl rfl
  | cons segment others => exact .inr ⟨_, rfl⟩

theorem intercalate_render (segment : Segment) (others : List Segment) :
    List.intercalate [' '] ((segment :: others).map Segment.render) = segment.render ++ following others := by
  induction others generalizing segment with
  | nil => simp [following]
  | cons next others joined =>
      rw [List.map_cons, List.map_cons, List.intercalate_cons_cons, ← List.map_cons, joined]
      simp [following]

/-- The total of a text is the sum of its segments. -/
def addUp (total : Duration) (segments : List Segment) : Duration :=
  segments.foldl (fun total segment => total.saturatingAdd (nanosToDuration segment.nanos)) total

theorem parseSegments_following {segments : List Segment} (written : ∀ segment ∈ segments, segment.Written) :
    parseSegments input total true (following segments) = .ok (addUp total segments) := by
  induction segments generalizing total with
  | nil =>
      rw [parseSegments]
      split
      · rfl
      · rename_i first others same
        simp [following, trimStart] at same
  | cons segment others parsed =>
      have split : following (segment :: others) = [' '] ++ (segment.render ++ following others) := by
        simp [following]
      rw [split, parseSegments_render (written segment List.mem_cons_self) (following_separated others) true (.inr rfl),
        parsed fun other member => written other (List.mem_cons_of_mem _ member)]
      rfl

/-- The sum of segments is exact when it fits. -/
theorem asNanos_addUp {segments : List Segment}
    (fits : total.asNanos + (segments.map Segment.nanos).sum ≤ Duration.max.asNanos) :
    (addUp total segments).asNanos = total.asNanos + (segments.map Segment.nanos).sum := by
  induction segments generalizing total with
  | nil => simp [addUp]
  | cons segment others summed =>
      rw [List.map_cons, List.sum_cons] at fits
      have exact := @asNanos_nanosToDuration segment.nanos (by omega)
      have added := @Duration.asNanos_saturatingAdd total (nanosToDuration segment.nanos) (by omega)
      have rest := @summed (total.saturatingAdd (nanosToDuration segment.nanos)) (by omega)
      rw [List.map_cons, List.sum_cons]
      change (addUp (total.saturatingAdd (nanosToDuration segment.nanos)) others).asNanos = _
      omega

/-- The unit of a segment ends with a letter. -/
theorem exists_suffix_concat (written : segment.Written) :
    ∃ front last, segment.suffix = front ++ [last] ∧ isWhitespace last = false := by
  obtain ⟨value, suffix, unitNanos⟩ := segment
  obtain ⟨_, listed⟩ := written
  simp only [List.mem_cons, Prod.mk.injEq, List.not_mem_nil, or_false] at listed
  rcases listed with ⟨rfl, rfl⟩ | ⟨rfl, rfl⟩ | ⟨rfl, rfl⟩ | ⟨rfl, rfl⟩ | ⟨rfl, rfl⟩ | ⟨rfl, rfl⟩ | ⟨rfl, rfl⟩ | ⟨rfl, rfl⟩
  · exact ⟨[], 'w', rfl, by decide⟩
  · exact ⟨[], 'd', rfl, by decide⟩
  · exact ⟨[], 'h', rfl, by decide⟩
  · exact ⟨[], 'm', rfl, by decide⟩
  · exact ⟨[], 's', rfl, by decide⟩
  · exact ⟨['m'], 's', rfl, by decide⟩
  · exact ⟨['u'], 's', rfl, by decide⟩
  · exact ⟨['n'], 's', rfl, by decide⟩

theorem exists_render_concat {others : List Segment} (written : ∀ other ∈ segment :: others, other.Written) :
    ∃ front last, segment.render ++ following others = front ++ [last] ∧ isWhitespace last = false := by
  induction others generalizing segment with
  | nil =>
      obtain ⟨front, last, ends, visible⟩ := exists_suffix_concat (written segment List.mem_cons_self)
      exact ⟨Nat.toDigits 10 segment.value ++ front, last, by simp [Segment.render, following, ends], visible⟩
  | cons next others ended =>
      obtain ⟨front, last, ends, visible⟩ := ended fun other member => written other (List.mem_cons_of_mem _ member)
      refine ⟨segment.render ++ ' ' :: front, last, ?_, visible⟩
      have tail : following (next :: others) = ' ' :: (next.render ++ following others) := by
        simp [following]
      rw [tail, ends]
      simp

/-- A text of segments is parsed as their sum. -/
theorem parseDuration_render {others : List Segment} (written : ∀ other ∈ segment :: others, other.Written) :
    parseDuration (List.intercalate [' '] ((segment :: others).map Segment.render)) =
      .ok (addUp .zero (segment :: others)) := by
  obtain ⟨digit, digits, listed, isDigit⟩ := exists_decimal_cons segment.value
  obtain ⟨front, last, ends, visible⟩ := exists_render_concat written
  rw [intercalate_render]
  have starts : segment.render ++ following others = digit :: (digits ++ (segment.suffix ++ following others)) := by
    simp [Segment.render, listed]
  have trimmed : trim (segment.render ++ following others) = segment.render ++ following others := by
    have same : (segment.render ++ following others).dropWhile isWhitespace = segment.render ++ following others := by
      rw [starts]
      exact trimStart_digit digit isDigit
    rw [trim, same, ends]
    exact List.rdropWhile_concat_neg _ _ _ (by simp [visible])
  have parsed : parseCompoundDuration (segment.render ++ following others) = .ok (addUp .zero (segment :: others)) := by
    have first := @parseSegments_render segment (following others) (segment.render ++ following others) .zero
      (written segment List.mem_cons_self) (following_separated others) false [] (.inl rfl)
    rw [List.nil_append] at first
    rw [parseCompoundDuration, first,
      parseSegments_following fun other member => written other (List.mem_cons_of_mem _ member)]
    rfl
  obtain ⟨negative, positive, finite⟩ := digit_plain isDigit
  have infinite : ∀ others, eqIgnoreAsciiCase (digit :: others) "inf" = false ∧
      eqIgnoreAsciiCase (digit :: others) "infinity" = false := by
    simp [eqIgnoreAsciiCase, finite]
  unfold parseDuration
  rw [trimmed]
  rw [starts] at parsed ⊢
  simp [negative, positive, infinite, parsed]

end Segments

/-- The formatter writes these segments, except those of zero. -/
def segmentsOf (duration : Duration) : List Segment :=
  let secs := duration.secs
  let nanos := duration.nanos
  [⟨secs / (7 * 24 * 3600), "w".toList, nanosPerWeek⟩,
    ⟨secs % (7 * 24 * 3600) / (24 * 3600), "d".toList, nanosPerDay⟩,
    ⟨secs % (7 * 24 * 3600) % (24 * 3600) / 3600, "h".toList, nanosPerHour⟩,
    ⟨secs % (7 * 24 * 3600) % (24 * 3600) % 3600 / 60, "m".toList, nanosPerMinute⟩,
    ⟨secs % (7 * 24 * 3600) % (24 * 3600) % 3600 % 60, "s".toList, nanosPerSecond⟩,
    ⟨nanos / 1000000, "ms".toList, nanosPerMillisecond⟩,
    ⟨nanos % 1000000 / 1000, "us".toList, nanosPerMicrosecond⟩,
    ⟨nanos % 1000000 % 1000, "ns".toList, nanosPerNanosecond⟩]

theorem segmentsOf_written (duration : Duration) : ∀ segment ∈ segmentsOf duration, segment.Written := by
  have bounded := duration.bounded
  have proper := duration.proper
  have large : 1000000000 ≤ u64Max := by decide
  intro segment member
  simp only [segmentsOf, List.mem_cons, List.not_mem_nil, or_false] at member
  rcases member with rfl | rfl | rfl | rfl | rfl | rfl | rfl | rfl <;>
    exact ⟨by dsimp only; omega, by simp⟩

theorem seconds_split (secs : Nat) : secs / (7 * 24 * 3600) * 604800 + secs % (7 * 24 * 3600) / (24 * 3600) * 86400 +
    secs % (7 * 24 * 3600) % (24 * 3600) / 3600 * 3600 + secs % (7 * 24 * 3600) % (24 * 3600) % 3600 / 60 * 60 +
    secs % (7 * 24 * 3600) % (24 * 3600) % 3600 % 60 = secs := by
  omega

theorem nanos_split (nanos : Nat) :
    nanos / 1000000 * 1000000 + nanos % 1000000 / 1000 * 1000 + nanos % 1000000 % 1000 = nanos := by
  omega

theorem units_sum (weeks days hours minutes seconds millis micros nanos : Nat) :
    weeks * nanosPerWeek + (days * nanosPerDay + (hours * nanosPerHour + (minutes * nanosPerMinute +
      (seconds * nanosPerSecond + (millis * nanosPerMillisecond +
        (micros * nanosPerMicrosecond + (nanos * nanosPerNanosecond + 0))))))) =
    (weeks * 604800 + days * 86400 + hours * 3600 + minutes * 60 + seconds) * 1000000000 +
      (millis * 1000000 + micros * 1000 + nanos) := by
  simp only [nanosPerWeek, nanosPerDay, nanosPerHour, nanosPerMinute, nanosPerSecond, nanosPerMillisecond,
    nanosPerMicrosecond, nanosPerNanosecond]
  ring

theorem sum_nanos_cons (segment : Segment) (others : List Segment) :
    ((segment :: others).map Segment.nanos).sum =
      segment.value * segment.unitNanos + (others.map Segment.nanos).sum := by
  rw [List.map_cons, List.sum_cons, Segment.nanos]

theorem segmentsOf_sum (duration : Duration) : ((segmentsOf duration).map Segment.nanos).sum = duration.asNanos := by
  have sum := units_sum (duration.secs / (7 * 24 * 3600)) (duration.secs % (7 * 24 * 3600) / (24 * 3600))
    (duration.secs % (7 * 24 * 3600) % (24 * 3600) / 3600)
    (duration.secs % (7 * 24 * 3600) % (24 * 3600) % 3600 / 60)
    (duration.secs % (7 * 24 * 3600) % (24 * 3600) % 3600 % 60) (duration.nanos / 1000000)
    (duration.nanos % 1000000 / 1000) (duration.nanos % 1000000 % 1000)
  rw [seconds_split, nanos_split] at sum
  unfold segmentsOf Duration.asNanos
  -- The sum is taken apart by rewriting: unfolding it would count the nanoseconds one by one.
  rw [sum_nanos_cons, sum_nanos_cons, sum_nanos_cons, sum_nanos_cons, sum_nanos_cons, sum_nanos_cons, sum_nanos_cons,
    sum_nanos_cons, List.map_nil, List.sum_nil]
  exact sum

/-- The segments of zero do not count. -/
theorem sum_filter_positive (segments : List Segment) :
    ((segments.filter fun segment => 0 < segment.value).map Segment.nanos).sum = (segments.map Segment.nanos).sum := by
  induction segments with
  | nil => rfl
  | cons segment others same =>
      rw [List.filter_cons]
      split
      · simp [same]
      · rename_i zero
        have none : segment.value = 0 := by simpa using zero
        simp [same, Segment.nanos, none]

/-- A formatted duration is the text of its segments. -/
theorem formatDuration_eq {duration : Duration} (positive : duration.isZero = false) :
    formatDuration duration = List.intercalate [' ']
      (((segmentsOf duration).filter fun segment => 0 < segment.value).map Segment.render) := by
  have part (value : Nat) (suffix : String) (unitNanos : Nat) (others : List Segment) :
      (List.filter (fun segment => 0 < segment.value) (⟨value, suffix.toList, unitNanos⟩ :: others)).map Segment.render =
        component value suffix ++ (others.filter fun segment => 0 < segment.value).map Segment.render := by
    rw [List.filter_cons]
    unfold component
    by_cases present : 0 < value
    · simp [present, Segment.render]
    · simp [present]
  unfold formatDuration
  rw [positive, if_neg (by decide)]
  simp only [segmentsOf]
  rw [part, part, part, part, part, part, part, part]
  simp [List.append_assoc]

/-- Parsing undoes formatting. -/
theorem parseDuration_formatDuration (duration : Duration) : parseDuration (formatDuration duration) = .ok duration := by
  by_cases zero : duration.isZero = true
  · obtain rfl : duration = .zero := by
      simp only [Duration.isZero, Bool.and_eq_true, beq_iff_eq] at zero
      ext
      · exact zero.1
      · exact zero.2
    have written : ∀ other ∈ [(⟨0, ['s'], nanosPerSecond⟩ : Segment)], other.Written := by
      intro other member
      rw [List.mem_singleton.mp member]
      exact ⟨by decide, by simp⟩
    exact parseDuration_render written
  have positive : duration.isZero = false := by simpa using zero
  rw [formatDuration_eq positive]
  have sum := sum_filter_positive (segmentsOf duration)
  rw [segmentsOf_sum] at sum
  match listed : (segmentsOf duration).filter fun segment => 0 < segment.value with
  | [] =>
      -- Without a positive segment the duration would be zero.
      rw [listed] at sum
      have none : Duration.zero = duration := Duration.eq_of_asNanos sum
      rw [← none] at positive
      cases positive
  | segment :: others =>
      have written : ∀ other ∈ segment :: others, other.Written := by
        intro other member
        rw [← listed] at member
        exact segmentsOf_written duration other (List.mem_of_mem_filter member)
      rw [listed] at sum ⊢
      rw [parseDuration_render written]
      have fits := duration.asNanos_le_max
      have total := @asNanos_addUp .zero (segment :: others) (by rw [sum]; simpa [Duration.asNanos, Duration.zero] using fits)
      rw [sum] at total
      rw [Duration.eq_of_asNanos (total.trans (Nat.zero_add _))]

end Spicebench.DurationParse
