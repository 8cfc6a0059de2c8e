import Spicebench.Proof.Duration
import Spicebench.Proof.DurationGrammar
import Mathlib.Algebra.Order.Floor.Semifield
import Mathlib.Data.Rat.Floor

namespace Spicebench.DurationParse
open Library

section Values

/-- A number without the mark of an exponent has the exponent zero. -/
def writtenExponent (text : List Char) : Int :=
  match exponentText text with
  | some mark => exponentValue mark
  | none => 0

/-- The value of the number at the start of a text. -/
def writtenValue (text : List Char) : ℚ :=
  (digitsValue (wholeText text) + digitsValue (fractionText text) / 10 ^ (fractionText text).length) *
    10 ^ writtenExponent text

def unitNanos (text : List Char) : Nat := (parseTimeUnit (behindNumber text)).1

/-- The whole nanoseconds of the segment at the start of a text. -/
def writtenNanos (text : List Char) : Nat := ⌊writtenValue text * unitNanos text⌋₊

/-- The whole nanoseconds that the parser makes of a segment. -/
def readNanos (text : List Char) : Nat := multiplyToNanos (numberOf text) (unitNanos text)

/-- The segments of a text, each of them as the text that starts with it. -/
inductive Segmented : List Char → List (List Char) → Prop
  | done {text : List Char} (blank : trimStart text = []) : Segmented text []
  | next {text : List Char} {others : List (List Char)}
      (digits : wholeText (trimStart text) ≠ [] ∨ fractionText (trimStart text) ≠ [])
      (later : Segmented (parseTimeUnit (behindNumber (trimStart text))).2 others) :
      Segmented text (trimStart text :: others)

/-- What a segment loses where its exponent makes an integer of more than 64 bits. -/
def lostNanos (text : List Char) : Nat :=
  match exponentText text with
  | some mark =>
      if places text ≤ exponentValue mark then
        (mantissa text * 10 ^ (exponentValue mark - places text).toNat - u64Max) * unitNanos text
      else 0
  | none => 0

/-- What a segment gains where its exponent makes a fraction whose number of digits does not fit in 32 bits. -/
def gainedNanos (text : List Char) : Nat :=
  match exponentText text with
  | some mark =>
      let count := (places text - exponentValue mark).toNat
      if 2 ^ 32 < count then mantissa text % 10 ^ count * unitNanos text / 10 ^ (count - 2 ^ 32) else 0
  | none => 0

def total (nanos : List Char → Nat) (segments : List (List Char)) : Nat := (segments.map nanos).sum

/-- The segments lose what they gain, or they reach the largest duration as they are written and as they are read. -/
def Exact (segments : List (List Char)) : Prop :=
  total lostNanos segments = total gainedNanos segments ∨
    (Duration.max.asNanos ≤ total writtenNanos segments ∧
      Duration.max.asNanos + total lostNanos segments ≤ total writtenNanos segments + total gainedNanos segments)

end Values

section Rounding

/-- The floor of a decimal number of units. -/
theorem floor_decimal (mantissa places unit : Nat) (exponent : Int) :
    ⌊(mantissa : ℚ) / 10 ^ places * 10 ^ exponent * unit⌋₊ =
      if places ≤ exponent then mantissa * 10 ^ (exponent - places).toNat * unit
      else mantissa * unit / 10 ^ (places - exponent).toNat := by
  have ten : (10 : ℚ) ≠ 0 := by norm_num
  have value : (mantissa : ℚ) / 10 ^ places * 10 ^ exponent = mantissa * 10 ^ (exponent - places) := by
    rw [zpow_sub₀ ten, zpow_natCast, div_mul_eq_mul_div, mul_div_assoc]
  rw [value]
  split_ifs with small
  · have exact : exponent - places = ((exponent - places).toNat : Int) := by omega
    have cast : (mantissa : ℚ) * 10 ^ (exponent - places) * unit =
        ((mantissa * 10 ^ (exponent - places).toNat * unit : Nat) : ℚ) := by
      rw [exact, zpow_natCast]
      push_cast
      simp
    rw [cast, Nat.floor_natCast]
  · have negative : exponent - places = -((places - exponent).toNat : Int) := by omega
    have cast : (mantissa : ℚ) * 10 ^ (exponent - places) * unit =
        ((mantissa * unit : Nat) : ℚ) / ((10 ^ (places - exponent).toNat : Nat) : ℚ) := by
      rw [negative, zpow_neg, zpow_natCast]
      push_cast
      ring
    rw [cast, Nat.floor_div_eq_div]

variable {unit : Nat}

/-- A part of 64 bits vanishes behind 39 digits. -/
theorem tiny_div {part count : Nat} (fits : part ≤ u64Max) (small : unit ≤ nanosPerWeek) (many : 39 ≤ count) :
    part * unit / 10 ^ count = 0 := by
  have product : part * unit ≤ u64Max * nanosPerWeek := Nat.mul_le_mul fits small
  have wide : u64Max * nanosPerWeek < 10 ^ 39 := by decide
  exact Nat.div_eq_of_lt ((product.trans_lt wide).trans_le (Nat.pow_le_pow_right (by decide) many))

/-- The product of a number and a unit is exact for the digits that the number keeps. -/
theorem multiplyToNanos_eq {number : ParsedNumber} (fits : number.Fits) (small : unit ≤ nanosPerWeek) :
    multiplyToNanos number unit =
      number.integer * unit +
        if 0 < number.fracDigits then number.fracValue * unit / 10 ^ number.fracDigits else 0 := by
  have product : number.fracValue * unit ≤ u64Max * nanosPerWeek := Nat.mul_le_mul fits.2 small
  have wide : u64Max * nanosPerWeek ≤ u128Max := by decide
  unfold multiplyToNanos
  dsimp only
  by_cases digits : 0 < number.fracDigits
  · rw [if_pos digits]
    by_cases value : 0 < number.fracValue
    · rw [if_pos ⟨digits, value⟩]
      by_cases denominator : 10 ^ number.fracDigits ≤ u128Max
      · rw [if_pos denominator, if_pos (product.trans wide)]
      · rw [if_neg denominator, Nat.div_eq_of_lt (by omega), Nat.add_zero]
    · have zero : number.fracValue = 0 := by omega
      rw [if_neg fun fine => value fine.2, zero, Nat.zero_mul, Nat.zero_div, Nat.add_zero]
  · rw [if_neg fun fine => digits fine.1, if_neg digits, Nat.add_zero]

/-- A number times a unit is split at the point of the number. -/
theorem mul_div_split (mantissa count unit : Nat) :
    mantissa * unit / 10 ^ count = mantissa / 10 ^ count * unit + mantissa % 10 ^ count * unit / 10 ^ count := by
  have positive : 0 < 10 ^ count := by positivity
  have parts : mantissa * unit = 10 ^ count * (mantissa / 10 ^ count * unit) + mantissa % 10 ^ count * unit := by
    calc
      mantissa * unit = (10 ^ count * (mantissa / 10 ^ count) + mantissa % 10 ^ count) * unit := by
        rw [Nat.div_add_mod]
      _ = 10 ^ count * (mantissa / 10 ^ count * unit) + mantissa % 10 ^ count * unit := by ring
  rw [parts, Nat.mul_add_div positive]

/-- A number times a unit where what is behind its point is too small to count. -/
theorem block_mul_div {block part count unit : Nat} (fits : part ≤ u64Max) (small : unit ≤ nanosPerWeek)
    (many : 39 ≤ count) : (10 ^ count * block + part) * unit / 10 ^ count = block * unit := by
  have positive : 0 < 10 ^ count := by positivity
  have below : part < 10 ^ count := by
    have narrow : u64Max < 10 ^ 39 := by decide
    exact (fits.trans_lt narrow).trans_le (Nat.pow_le_pow_right (by decide) many)
  rw [mul_div_split, Nat.mul_add_div positive, Nat.mul_add_mod, Nat.div_eq_of_lt below, Nat.mod_eq_of_lt below,
    tiny_div fits small many, Nat.add_zero, Nat.add_zero]

/-- A small fraction behind many digits stays apart from a number whose point has moved. -/
theorem mod_of_many_digits {whole fraction places count : Nat} (fits : fraction ≤ u64Max) (manyPlaces : 39 ≤ places)
    (many : 39 ≤ count) (kept : (whole * 10 ^ places + fraction) % 10 ^ count ≤ u64Max) :
    10 ^ count ∣ whole * 10 ^ places ∧ (whole * 10 ^ places + fraction) % 10 ^ count = fraction := by
  have narrow : u64Max < 10 ^ 39 := by decide
  have dvdPlaces : 10 ^ 39 ∣ whole * 10 ^ places := (pow_dvd_pow 10 manyPlaces).mul_left whole
  have dvdCount : 10 ^ 39 ∣ 10 ^ count := pow_dvd_pow 10 many
  obtain ⟨multiple, same⟩ := (Nat.dvd_mod_iff dvdCount).mpr dvdPlaces
  obtain ⟨blocks, power⟩ := dvdCount
  have below : whole * 10 ^ places % 10 ^ count < 10 ^ count := Nat.mod_lt _ (by positivity)
  rw [same, power] at below
  have inside : multiple + 1 ≤ blocks := Nat.lt_of_mul_lt_mul_left below
  have room : 10 ^ 39 * multiple + fraction < 10 ^ count := by
    calc
      10 ^ 39 * multiple + fraction < 10 ^ 39 * (multiple + 1) := by omega
      _ ≤ 10 ^ 39 * blocks := Nat.mul_le_mul_left _ inside
      _ = 10 ^ count := power.symm
  have remainder : (whole * 10 ^ places + fraction) % 10 ^ count = 10 ^ 39 * multiple + fraction := by
    rw [Nat.add_mod, same, Nat.add_mod_mod, Nat.mod_eq_of_lt room]
  rw [remainder] at kept ⊢
  have none : multiple = 0 := by omega
  rw [none] at same ⊢
  exact ⟨Nat.dvd_of_mod_eq_zero (by simpa using same), by simp⟩

end Rounding

section Segments

variable {text mark : List Char}

/-- The digits of a number without its point, none of them left out. -/
def writtenMantissa (text : List Char) : Nat :=
  digitsValue (wholeText text) * 10 ^ (fractionText text).length + digitsValue (fractionText text)

theorem writtenNanos_eq (text : List Char) :
    writtenNanos text =
      if (fractionText text).length ≤ writtenExponent text then
        writtenMantissa text * 10 ^ (writtenExponent text - (fractionText text).length).toNat * unitNanos text
      else
        writtenMantissa text * unitNanos text / 10 ^ ((fractionText text).length - writtenExponent text).toNat := by
  have value : writtenValue text =
      (writtenMantissa text : ℚ) / 10 ^ (fractionText text).length * 10 ^ writtenExponent text := by
    rw [writtenValue, writtenMantissa]
    push_cast
    field_simp
  rw [writtenNanos, value, floor_decimal]

/-- The number of places is the length of the fraction, unless that is not a number of 32 bits. -/
theorem places_cases (text : List Char) :
    (places text = (fractionText text).length ∧ writtenMantissa text = mantissa text) ∨
      (places text = u32Max ∧ u32Max < (fractionText text).length) := by
  by_cases fits : (fractionText text).length ≤ u32Max
  · have same : places text = (fractionText text).length := if_pos fits
    exact .inl ⟨same, by rw [writtenMantissa, mantissa, same]⟩
  · exact .inr ⟨if_neg fits, by omega⟩

theorem unitNanos_le (text : List Char) : unitNanos text ≤ nanosPerWeek := parseTimeUnit_le _

/-- A number with digits behind its point has the nanoseconds of its parts. -/
theorem writtenNanos_parts (fraction : digitsValue (fractionText text) ≤ u64Max)
    (behind : writtenExponent text < places text) (little : -20 ≤ writtenExponent text ∧ writtenExponent text ≤ 20)
    {count : Nat} (counted : count = (places text - writtenExponent text).toNat)
    (kept : mantissa text % 10 ^ count ≤ u64Max) :
    writtenNanos text =
      mantissa text / 10 ^ count * unitNanos text + mantissa text % 10 ^ count * unitNanos text / 10 ^ count := by
  rw [writtenNanos_eq, if_neg]
  · rcases places_cases text with ⟨same, whole⟩ | ⟨cut, long⟩
    · rw [whole, ← same, ← counted, mul_div_split]
    · -- Both fractions are too fine to count, and the rest of the number does not depend on the cut.
      have manyPlaces : 39 ≤ places text := by rw [cut]; decide
      have many : 39 ≤ count := by
        rw [cut] at counted
        have wide : 59 ≤ u32Max := by decide
        omega
      have more : ((fractionText text).length - writtenExponent text).toNat =
          count + ((fractionText text).length - places text) := by omega
      obtain ⟨⟨block, divides⟩, _⟩ := mod_of_many_digits fraction manyPlaces many kept
      have written : writtenMantissa text =
          10 ^ (count + ((fractionText text).length - places text)) * block + digitsValue (fractionText text) := by
        have split : (fractionText text).length = places text + ((fractionText text).length - places text) := by omega
        rw [writtenMantissa, split, Nat.add_sub_cancel_left, pow_add, ← Nat.mul_assoc, divides, pow_add]
        ring
      rw [more, written, block_mul_div fraction (unitNanos_le text) (by omega), ← mul_div_split, mantissa, divides,
        block_mul_div fraction (unitNanos_le text) many]
  · rcases places_cases text with ⟨same, _⟩ | ⟨cut, long⟩
    · omega
    · omega

theorem exponentValue_bounds (readable : Readable text) (marked : exponentText text = some mark) :
    -20 ≤ exponentValue mark ∧ exponentValue mark ≤ 20 := by
  have little := natAbs_exponentValue (readable.exponent mark marked).2.1
  unfold maxExponentMagnitude at little
  omega

theorem readNanos_eq (readable : Readable text) :
    readNanos text = (numberOf text).integer * unitNanos text +
      if 0 < (numberOf text).fracDigits then
        (numberOf text).fracValue * unitNanos text / 10 ^ (numberOf text).fracDigits
      else 0 := multiplyToNanos_eq (numberOf_fits readable) (unitNanos_le text)

/-- A number without an exponent is read as it is written. -/
theorem readNanos_plain (readable : Readable text) (unmarked : exponentText text = none) :
    readNanos text = writtenNanos text := by
  have zero : writtenExponent text = 0 := by rw [writtenExponent, unmarked]
  have number : numberOf text = ⟨digitsValue (wholeText text), places text, digitsValue (fractionText text)⟩ := by
    rw [numberOf, unmarked]
  rw [readNanos_eq readable, number]
  dsimp only
  by_cases digits : 0 < places text
  · have proper := fraction_proper readable.fraction
    have counted : places text = ((places text : Int) - writtenExponent text).toNat := by omega
    have remainder : mantissa text % 10 ^ places text = digitsValue (fractionText text) := by
      rw [mantissa, Nat.mul_comm, Nat.mul_add_mod, Nat.mod_eq_of_lt proper]
    have quotient : mantissa text / 10 ^ places text = digitsValue (wholeText text) := by
      rw [mantissa, Nat.mul_comm, Nat.mul_add_div (by positivity), Nat.div_eq_of_lt proper, Nat.add_zero]
    rw [if_pos digits, writtenNanos_parts readable.fraction (by omega) (by omega) counted
      (by rw [remainder]; exact readable.fraction), remainder, quotient]
  · have missing : fractionText text = [] := by
      have none := mt toU32_pos.mpr digits
      exact List.length_eq_zero_iff.mp (by omega)
    rw [if_neg digits, writtenNanos_eq, writtenMantissa, missing, zero]
    simp [digitsValue]

/-- A number whose point moves behind its last digit loses what is above 64 bits. -/
theorem readNanos_integer (readable : Readable text) (marked : exponentText text = some mark)
    (moved : places text ≤ exponentValue mark) :
    readNanos text + lostNanos text = writtenNanos text ∧ gainedNanos text = 0 := by
  have bounds := exponentValue_bounds readable marked
  have exponent : writtenExponent text = exponentValue mark := by rw [writtenExponent, marked]
  have number : numberOf text =
      ⟨min (mantissa text * 10 ^ (exponentValue mark - places text).toNat) u64Max, 0, 0⟩ := by
    rw [numberOf, marked]
    exact if_pos moved
  obtain ⟨same, whole⟩ : places text = (fractionText text).length ∧ writtenMantissa text = mantissa text := by
    rcases places_cases text with short | ⟨cut, _⟩
    · exact short
    · have wide : 20 < u32Max := by decide
      omega
  have written : writtenNanos text =
      mantissa text * 10 ^ (exponentValue mark - places text).toNat * unitNanos text := by
    rw [writtenNanos_eq, exponent, ← same, whole, if_pos moved]
  have lost : lostNanos text =
      (mantissa text * 10 ^ (exponentValue mark - places text).toNat - u64Max) * unitNanos text := by
    rw [lostNanos, marked]
    exact if_pos moved
  constructor
  · rw [readNanos_eq readable, number, written, lost]
    generalize mantissa text * 10 ^ (exponentValue mark - places text).toNat = integer
    have parts : min integer u64Max + (integer - u64Max) = integer := by omega
    calc
      min integer u64Max * unitNanos text + 0 + (integer - u64Max) * unitNanos text =
          (min integer u64Max + (integer - u64Max)) * unitNanos text := by rw [Nat.add_zero, Nat.add_mul]
      _ = integer * unitNanos text := by rw [parts]
  · have count : ((places text : Int) - exponentValue mark).toNat = 0 := by omega
    rw [gainedNanos, marked]
    dsimp only
    rw [count, if_neg (by decide)]

/-- A number with digits behind its point gains what the number of its digits loses above 32 bits. -/
theorem readNanos_fraction (readable : Readable text) (marked : exponentText text = some mark)
    (moved : ¬places text ≤ exponentValue mark) :
    readNanos text = writtenNanos text + gainedNanos text ∧ lostNanos text = 0 := by
  have bounds := exponentValue_bounds readable marked
  have exponent : writtenExponent text = exponentValue mark := by rw [writtenExponent, marked]
  refine ⟨?_, by rw [lostNanos, marked]; exact if_neg moved⟩
  obtain ⟨count, counted⟩ : ∃ count, count = ((places text : Int) - exponentValue mark).toNat := ⟨_, rfl⟩
  have number : numberOf text = ⟨mantissa text / 10 ^ count, asU32 count, mantissa text % 10 ^ count⟩ := by
    rw [numberOf, marked, counted]
    exact if_neg moved
  have kept : mantissa text % 10 ^ count ≤ u64Max := by
    have fits := (numberOf_fits readable).2
    rwa [number] at fits
  have gained : gainedNanos text =
      if 2 ^ 32 < count then mantissa text % 10 ^ count * unitNanos text / 10 ^ (count - 2 ^ 32) else 0 := by
    rw [gainedNanos, marked, counted]
  have few : places text ≤ u32Max := by
    unfold places toU32
    split_ifs
    · assumption
    · exact le_rfl
  have width : u32Max + 1 = 2 ^ 32 := by decide
  rw [readNanos_eq readable, number, gained,
    writtenNanos_parts readable.fraction (by omega) (by omega) (by rw [exponent]; exact counted) kept]
  dsimp only
  rcases Nat.lt_or_ge count (2 ^ 32) with narrow | wide
  · have same : asU32 count = count := Nat.mod_eq_of_lt narrow
    rw [same, if_pos (by omega), if_neg (by omega), Nat.add_zero]
  · have tiny : mantissa text % 10 ^ count * unitNanos text / 10 ^ count = 0 :=
      tiny_div kept (unitNanos_le text) (le_trans (by decide) wide)
    have rest : asU32 count = count - 2 ^ 32 := by
      rw [asU32, Nat.mod_eq_sub_mod wide, Nat.mod_eq_of_lt (by omega)]
    rw [tiny, Nat.add_zero, rest]
    by_cases more : 2 ^ 32 < count
    · rw [if_pos more, if_pos (by omega)]
    · rw [if_neg more, if_neg (by omega)]

/-- What is read of a segment is what is written in it without what it loses and with what it gains. -/
theorem readNanos_balance (readable : Readable text) :
    readNanos text + lostNanos text = writtenNanos text + gainedNanos text := by
  cases marked : exponentText text with
  | none =>
      have lost : lostNanos text = 0 := by rw [lostNanos, marked]
      have gained : gainedNanos text = 0 := by rw [gainedNanos, marked]
      rw [lost, gained, readNanos_plain readable marked]
  | some mark =>
      by_cases moved : places text ≤ exponentValue mark
      · obtain ⟨balance, gained⟩ := readNanos_integer readable marked moved
        rw [balance, gained, Nat.add_zero]
      · obtain ⟨balance, lost⟩ := readNanos_fraction readable marked moved
        rw [balance, lost, Nat.add_zero]

end Segments

section Runs

/-- A sum that does not fit is the largest duration. -/
theorem asNanos_saturatingAdd_min (left right : Duration) :
    (left.saturatingAdd right).asNanos = min (left.asNanos + right.asNanos) Duration.max.asNanos := by
  by_cases fits : left.asNanos + right.asNanos ≤ Duration.max.asNanos
  · rw [Duration.asNanos_saturatingAdd fits, min_eq_left fits]
  · rw [min_eq_right (by omega), Duration.saturatingAdd]
    simp only [Duration.asNanos, Duration.max] at fits
    rw [dif_neg (by omega)]

theorem asNanos_nanosToDuration_min (nanos : Nat) :
    (nanosToDuration nanos).asNanos = min nanos Duration.max.asNanos := by
  by_cases fits : nanos ≤ Duration.max.asNanos
  · rw [asNanos_nanosToDuration fits, min_eq_left fits]
  · rw [min_eq_right (by omega), nanosToDuration]
    simp only [Duration.asNanos, Duration.max] at fits
    rw [dif_neg (by omega)]

@[simp] theorem total_nil (nanos : List Char → Nat) : total nanos [] = 0 := rfl

@[simp] theorem total_cons (nanos : List Char → Nat) (segment : List Char) (others : List (List Char)) :
    total nanos (segment :: others) = nanos segment + total nanos others := rfl

theorem min_add_min (first second others limit : Nat) :
    min (min (first + min second limit) limit + others) limit = min (first + (second + others)) limit := by
  omega

variable {input remaining : List Char} {sum duration : Duration} {parsedAny : Bool}

theorem readable_of_parsed (digits : trimStart remaining ≠ [])
    (parsed : parseSegments input sum parsedAny remaining = .ok duration) : Readable (trimStart remaining) := by
  by_contra unreadable
  obtain ⟨failure, failed⟩ := parseNumber_fails unreadable
  rw [parseSegments_stop _ _ _ digits failed] at parsed
  contradiction

theorem ne_nil_of_digits {text : List Char} (digits : wholeText text ≠ [] ∨ fractionText text ≠ []) : text ≠ [] := by
  rintro rfl
  rcases digits with whole | fraction
  · exact whole rfl
  · exact fraction rfl

/-- An accepted text has exactly one list of segments. -/
theorem exists_segmented (parsed : parseSegments input sum parsedAny remaining = .ok duration) :
    ∃ segments, ∀ others, Segmented remaining others ↔ others = segments := by
  induction size : remaining.length using Nat.strong_induction_on generalizing sum parsedAny remaining with
  | _ size cut =>
      by_cases blank : trimStart remaining = []
      · refine ⟨[], fun others => ⟨fun segmented => ?_, fun same => same ▸ .done blank⟩⟩
        cases segmented with
        | done => rfl
        | next digits => exact absurd blank (ne_nil_of_digits digits)
      · have readable := readable_of_parsed blank parsed
        have shorter := behind_shorter readable
        rw [parseSegments_next _ _ _ readable] at parsed
        obtain ⟨segments, unique⟩ := cut _ (by omega) parsed rfl
        refine ⟨trimStart remaining :: segments, fun others => ⟨fun segmented => ?_, ?_⟩⟩
        · cases segmented with
          | done empty => exact absurd empty blank
          | next _ later => rw [(unique _).mp later]
        · rintro rfl
          exact .next readable.digits ((unique _).mpr rfl)

/-- The parser adds up what it reads of the segments, up to the largest duration. -/
theorem parseSegments_total {segments : List (List Char)} (segmented : Segmented remaining segments)
    (parsed : parseSegments input sum parsedAny remaining = .ok duration) :
    duration.asNanos = min (sum.asNanos + total readNanos segments) Duration.max.asNanos ∧
      total readNanos segments + total lostNanos segments =
        total writtenNanos segments + total gainedNanos segments := by
  induction segmented generalizing sum parsedAny with
  | done blank =>
      rw [parseSegments_blank _ _ _ blank] at parsed
      split at parsed
      · obtain rfl := Except.ok.inj parsed
        rw [total_nil, Nat.add_zero, min_eq_left (Duration.asNanos_le_max sum)]
        exact ⟨rfl, rfl⟩
      · contradiction
  | @next text others digits _ later =>
      have readable := readable_of_parsed (ne_nil_of_digits digits) parsed
      have first := readNanos_balance readable
      rw [parseSegments_next _ _ _ readable] at parsed
      obtain ⟨value, balance⟩ := later parsed
      rw [asNanos_saturatingAdd_min, asNanos_nanosToDuration_min, ← unitNanos, ← readNanos] at value
      rw [total_cons, total_cons, total_cons, total_cons]
      constructor
      · rw [value, min_add_min]
      · omega

/-- The name of infinity is read as the largest duration. -/
def Infinite (input : List Char) : Prop :=
  eqIgnoreAsciiCase (segmentText input) "inf" = true ∨ eqIgnoreAsciiCase (segmentText input) "infinity" = true

theorem parseCompoundDuration_of_finite {input : List Char} (finite : ¬Infinite input)
    (parsed : parseDuration input = .ok duration) : parseCompoundDuration (segmentText input) = .ok duration := by
  have positive : (trim input).head? ≠ some '-' := by
    intro negative
    obtain ⟨rest, trimmed⟩ := List.head?_eq_some_iff.mp negative
    simp [parseDuration, trimmed, invalidInput] at parsed
  rcases parseDuration_eq positive with ⟨_, error, failed⟩ | read
  · rw [failed] at parsed
    contradiction
  · rwa [parsed, if_neg (by simpa [Infinite] using finite), eq_comm] at read

/-- An accepted text has one list of segments, and its value is theirs exactly if they lose nothing that counts. -/
theorem parseDuration_value_iff {input : List Char} (finite : ¬Infinite input)
    (parsed : parseDuration input = .ok duration) :
    ∃ segments, (∀ others, Segmented (segmentText input) others ↔ others = segments) ∧
      (duration.asNanos = min (total writtenNanos segments) Duration.max.asNanos ↔ Exact segments) := by
  have compound := parseCompoundDuration_of_finite finite parsed
  obtain ⟨segments, unique⟩ := exists_segmented compound
  obtain ⟨value, balance⟩ := parseSegments_total ((unique segments).mpr rfl) compound
  refine ⟨segments, unique, ?_⟩
  have zero : Duration.zero.asNanos = 0 := rfl
  rw [value, zero, Nat.zero_add, Exact]
  constructor
  · intro same
    omega
  · rintro (none | ⟨reached, read⟩)
    · omega
    · omega

theorem parseDuration_value_iff_sample :
    ∃ segments, (∀ others, Segmented (segmentText "1.5h 2e1ms".toList) others ↔ others = segments) ∧
      ((⟨5400, 20000000, by decide, by decide⟩ : Duration).asNanos =
        min (total writtenNanos segments) Duration.max.asNanos ↔ Exact segments) :=
  parseDuration_value_iff (by simp [Infinite]; decide) ((parseDuration_bytes _).symm.trans (by rfl))

/-- The integer is cut at 64 bits before it is multiplied by the unit. -/
theorem large_exponent_is_cut : ¬∀ (input : List Char) (duration : Duration) (segments : List (List Char)),
    ¬Infinite input → parseDuration input = .ok duration → Segmented (segmentText input) segments →
      duration.asNanos = min (total writtenNanos segments) Duration.max.asNanos := by
  intro exact
  have parsed : parseDuration "1e20ns".toList = .ok ⟨18446744073, 709551615, by decide, by decide⟩ :=
    (parseDuration_bytes _).symm.trans (by rfl)
  have segmented : Segmented (segmentText "1e20ns".toList) ["1e20ns".toList] :=
    .next (.inl (by decide)) (.done (by decide))
  have same := exact _ _ _ (by simp [Infinite]; decide) parsed segmented
  rw [total_cons, total_nil, writtenNanos_eq] at same
  exact absurd same (by decide)

end Runs

end Spicebench.DurationParse
