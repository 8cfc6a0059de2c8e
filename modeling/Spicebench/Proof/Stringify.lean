import Spicebench.Construction.Stringify
import Mathlib.Algebra.Order.Field.Rat
import Mathlib.Data.Rat.Floor
import Mathlib.Tactic.FieldSimp
import Mathlib.Tactic.Ring

namespace Spicebench.Validation

open Library

/-- The text behind a mark. -/
def readMark (mark : Char) : List Char → Option (List Char)
  | first :: rest => if first = mark then some rest else none
  | [] => none

@[simp]
theorem readMark_cons (mark : Char) (rest : List Char) : readMark mark (mark :: rest) = some rest := by
  simp [readMark]

def readSign : List Char → Int × List Char
  | '-' :: rest => (-1, rest)
  | '+' :: rest => (1, rest)
  | text => (1, text)

@[simp]
theorem readSign_minus (rest : List Char) : readSign ('-' :: rest) = (-1, rest) := rfl

@[simp]
theorem readSign_plus (rest : List Char) : readSign ('+' :: rest) = (1, rest) := rfl

theorem readSign_padded (width number : Nat) (rest : List Char) :
    readSign (padded width number ++ rest) = (1, padded width number ++ rest) := by
  match listed : padded width number with
  | [] => exact absurd listed (padded_ne_nil width number)
  | digit :: digits =>
      have member : digit ∈ padded width number := by simp [listed]
      have isDigit := isDigit_of_mem_padded member
      unfold readSign
      split
      · rename_i same
        obtain ⟨rfl, _⟩ := List.cons.inj same
        cases isDigit
      · rename_i same
        obtain ⟨rfl, _⟩ := List.cons.inj same
        cases isDigit
      · rfl

/-- The digits behind a decimal point, if there is one. -/
def readFraction : List Char → Option ℚ
  | [] => some 0
  | '.' :: digits =>
      if digits ≠ [] ∧ digits.all Char.isDigit then some ((Nat.ofDigitChars 10 digits 0 : ℚ) / 10 ^ digits.length)
      else none
  | _ => none

theorem readFraction_padded {places number : Nat} (positive : 0 < places) (fits : number < 10 ^ places) :
    readFraction ('.' :: padded places number) = some ((number : ℚ) / 10 ^ places) := by
  have digits : (padded places number).all Char.isDigit = true :=
    List.all_eq_true.mpr fun _ => isDigit_of_mem_padded
  simp [readFraction, digits, length_padded positive fits]

/-- The value of a text with a sign, a whole number and a fraction. -/
def readDecimal (text : List Char) : Option ℚ := do
  let (sign, text) := readSign text
  let (whole, text) ← readNat text
  let fraction ← readFraction text
  return sign * (whole + fraction)

section Decimals

theorem padded_succ {width : Nat} (positive : 0 < width) (number : Nat) :
    padded (width + 1) number = padded width (number / 10) ++ [Nat.digitChar (number % 10)] := by
  unfold padded List.leftpad
  rw [Nat.toDigits_eq_if (by decide)]
  split
  · rename_i small
    have zero : number / 10 = 0 := by omega
    have same : number % 10 = number := by omega
    obtain ⟨width, rfl⟩ := Nat.exists_eq_succ_of_ne_zero positive.ne'
    rw [zero, same]
    simp [List.replicate_succ']
  · simp

/-- The last digits of a number are those of its remainder. -/
theorem toDigits_split {places number : Nat} (positive : 0 < places) (large : 10 ^ places ≤ number) :
    Nat.toDigits 10 number =
      Nat.toDigits 10 (number / 10 ^ places) ++ padded places (number % 10 ^ places) := by
  induction places, positive using Nat.le_induction generalizing number with
  | base =>
      rw [Nat.toDigits_of_base_le (by decide) (by simpa using large)]
      have last : Nat.toDigits 10 (number % 10) = [Nat.digitChar (number % 10)] :=
        Nat.toDigits_of_lt_base (Nat.mod_lt number (by decide))
      simp [padded, List.leftpad, last]
  | succ places positive split =>
      have power : 10 ^ (places + 1) = 10 * 10 ^ places := by ring
      have rest : 10 ^ places ≤ number / 10 := by omega
      have least : 10 ≤ number := by
        have := Nat.one_le_pow places 10 (by decide)
        omega
      rw [Nat.toDigits_of_base_le (by decide) least, split rest, padded_succ positive, List.append_assoc]
      have quotient : number / 10 / 10 ^ places = number / 10 ^ (places + 1) := by
        rw [Nat.div_div_eq_div_mul, power]
      have remainder : number % 10 ^ (places + 1) / 10 = number / 10 % 10 ^ places := by
        rw [power, Nat.mod_mul_right_div_self]
      have last : number % 10 ^ (places + 1) % 10 = number % 10 := by
        rw [power, Nat.mod_mul_right_mod]
      rw [quotient, remainder, last]

/-- The digits before the last `scale` are those of the quotient, and the last ones are padded. -/
theorem splitDigits_toDigits (number scale : Nat) :
    splitDigits (Nat.toDigits 10 number) scale = (Nat.toDigits 10 (number / 10 ^ scale),
      if scale = 0 then [] else padded scale (number % 10 ^ scale)) := by
  unfold splitDigits
  rcases Nat.eq_zero_or_pos scale with rfl | positive
  · simp [Nat.length_toDigits_pos]
  have fits := Nat.length_toDigits_le_iff (n := number) (b := 10) (by decide) positive
  by_cases small : number < 10 ^ scale
  · have short := fits.mpr small
    rw [if_neg (by omega), if_neg positive.ne', Nat.div_eq_of_lt small, Nat.mod_eq_of_lt small]
    rfl
  · have long : scale < (Nat.toDigits 10 number).length := by
      by_contra short
      exact small (fits.mp (by omega))
    have remainder : number % 10 ^ scale < 10 ^ scale := Nat.mod_lt _ (by positivity)
    have split := toDigits_split positive (Nat.le_of_not_lt small)
    rw [if_pos long, if_neg positive.ne', List.splitAt_eq]
    have front : (Nat.toDigits 10 number).length - scale = (Nat.toDigits 10 (number / 10 ^ scale)).length := by
      rw [split, List.length_append, length_padded positive remainder]
      omega
    rw [front, split, List.take_left, List.drop_left]

/-- The string of a decimal has its sign, its whole part without leading zeros and `scale` digits behind the point. -/
theorem decimal128ToString_eq {value : Int} (bounded : minI128 < value) (scale : Nat) :
    decimal128ToString value scale = .ok (String.ofList ((if value < 0 then ['-'] else []) ++
      Nat.toDigits 10 (value.natAbs / 10 ^ scale) ++
        if scale = 0 then [] else '.' :: padded scale (value.natAbs % 10 ^ scale))) := by
  have usable : absI128 value = .ok value.natAbs := if_neg bounded.ne'
  have unsigned : toUsize scale = .ok scale := by simp [toUsize]
  unfold decimal128ToString
  rw [usable, unsigned]
  rcases Nat.eq_zero_or_pos scale with rfl | positive
  · simp [splitDigits_toDigits, bind, Except.bind, pure, Except.pure]
  · simp [splitDigits_toDigits, positive.ne', bind, Except.bind, pure, Except.pure]

/-- The fraction behind a whole number, if there is one. -/
def pointed (scale rest : Nat) : List Char := if scale = 0 then [] else '.' :: padded scale rest

theorem readFraction_pointed {scale rest : Nat} (fits : rest < 10 ^ scale) :
    readFraction (pointed scale rest) = some ((rest : ℚ) / 10 ^ scale) := by
  unfold pointed
  split
  · rename_i zero
    obtain rfl : rest = 0 := by simpa [zero] using fits
    simp [readFraction]
  · rename_i positive
    exact readFraction_padded (Nat.pos_of_ne_zero positive) fits

theorem pointed_stops (scale rest : Nat) : ∀ next ∈ (pointed scale rest).head?, next.isDigit = false := by
  unfold pointed
  split
  · simp
  · simp

/-- A whole number with its sign and its fraction is read as their sum. -/
theorem readDecimal_parts (negative : Prop) [Decidable negative] (whole : Nat) {scale rest : Nat}
    (fits : rest < 10 ^ scale) :
    readDecimal ((if negative then ['-'] else []) ++ Nat.toDigits 10 whole ++ pointed scale rest) =
      some ((if negative then -1 else 1) * ((whole : ℚ) + rest / 10 ^ scale)) := by
  have number : readNat (padded 0 whole ++ pointed scale rest) = some (whole, pointed scale rest) :=
    readNat_padded 0 (pointed_stops scale rest)
  have sign := readSign_padded 0 whole (pointed scale rest)
  rw [padded_zero] at number sign
  unfold readDecimal
  by_cases minus : negative
  · simp [minus, number, readFraction_pointed fits]
  · simp [minus, sign, number, readFraction_pointed fits]

/-- The parts of a decimal add up to it. -/
theorem decimal_parts (value : Int) (scale : Nat) :
    (if value < 0 then -1 else 1) *
      (((value.natAbs / 10 ^ scale : Nat) : ℚ) + ((value.natAbs % 10 ^ scale : Nat) : ℚ) / 10 ^ scale) =
        (value : ℚ) / 10 ^ scale := by
  have power : (10 ^ scale : ℚ) ≠ 0 := by positivity
  have whole : ((value.natAbs / 10 ^ scale : Nat) : ℚ) * 10 ^ scale + ((value.natAbs % 10 ^ scale : Nat) : ℚ) =
      (value.natAbs : ℚ) := by
    exact_mod_cast Nat.div_add_mod' value.natAbs (10 ^ scale)
  have signed : (if value < 0 then -1 else 1) * (value.natAbs : ℚ) = value := by
    rcases lt_or_ge value 0 with negative | positive
    · have magnitude : (value.natAbs : Int) = -value := by omega
      rw [if_pos negative, ← Int.cast_natCast, magnitude]
      simp
    · have magnitude : (value.natAbs : Int) = value := by omega
      rw [if_neg (not_lt.mpr positive), ← Int.cast_natCast, magnitude]
      simp
  rw [eq_div_iff power, mul_assoc, add_mul, div_mul_cancel₀ _ power, whole, signed]

/-- The string of a decimal is read as the decimal. -/
theorem readDecimal_string {value scale : Int} {text : String} (bounded : minI128 < value) (nonneg : 0 ≤ scale)
    (written : decimal128ToString value scale = .ok text) :
    readDecimal text.toList = some ((value : ℚ) / 10 ^ scale.toNat) := by
  obtain ⟨scale, rfl⟩ := Int.eq_ofNat_of_zero_le nonneg
  rw [decimal128ToString_eq bounded] at written
  have fits : value.natAbs % 10 ^ scale < 10 ^ scale := Nat.mod_lt _ (by positivity)
  rw [← Except.ok.inj written, String.toList_ofList, Int.toNat_natCast, ← decimal_parts value scale]
  exact readDecimal_parts (value < 0) (value.natAbs / 10 ^ scale) fits

/-- The string of a decimal denotes the decimal, so it determines the decimal of its scale. -/
theorem decimal_strings_exact {value scale : Int} (bounded : minI128 < value) (nonneg : 0 ≤ scale) :
    ∃ (text : String) (fraction : List Char), decimal128ToString value scale = .ok text ∧
      text.toList = (if value < 0 then ['-'] else []) ++ Nat.toDigits 10 (value.natAbs / 10 ^ scale.toNat) ++
        (if scale = 0 then [] else '.' :: fraction) ∧
      (∀ digit ∈ fraction, digit.isDigit = true) ∧ (fraction.length : Int) = scale ∧
      readDecimal text.toList = some ((value : ℚ) / 10 ^ scale.toNat) ∧
      ∀ other, minI128 < other → decimal128ToString other scale = .ok text → other = value := by
  obtain ⟨places, rfl⟩ := Int.eq_ofNat_of_zero_le nonneg
  have written := decimal128ToString_eq bounded places
  have read := readDecimal_string bounded nonneg written
  have fits : value.natAbs % 10 ^ places < 10 ^ places := Nat.mod_lt _ (by positivity)
  refine ⟨_, if places = 0 then [] else padded places (value.natAbs % 10 ^ places), written, ?_, ?_, ?_, read, ?_⟩
  · rcases Nat.eq_zero_or_pos places with rfl | positive
    · simp
    · simp [positive.ne']
  · intro digit member
    split at member
    · cases member
    · exact isDigit_of_mem_padded member
  · split
    · rename_i zero
      simp [zero]
    · rename_i positive
      exact congrArg Nat.cast (length_padded (Nat.pos_of_ne_zero positive) fits)
  · intro other least same
    have power : (10 ^ (places : Int).toNat : ℚ) ≠ 0 := by positivity
    have values := (readDecimal_string least nonneg same).symm.trans read
    have equal := (div_left_inj' power).mp (Option.some.inj values)
    exact_mod_cast equal

/-- A value between minus one and zero keeps its sign and its zeros. -/
theorem decimal_strings_exact_sample : decimal128ToString (-5) 3 = .ok "-0.005" ∧
    ∃ (text : String) (fraction : List Char), decimal128ToString (-5) 3 = .ok text ∧
      text.toList =
        (if (-5 : Int) < 0 then ['-'] else []) ++ Nat.toDigits 10 ((-5 : Int).natAbs / 10 ^ (3 : Int).toNat) ++
        (if (3 : Int) = 0 then [] else '.' :: fraction) ∧
      (∀ digit ∈ fraction, digit.isDigit = true) ∧ (fraction.length : Int) = 3 ∧
      readDecimal text.toList = some (((-5 : Int) : ℚ) / 10 ^ (3 : Int).toNat) ∧
      ∀ other, minI128 < other → decimal128ToString other 3 = .ok text → other = -5 :=
  ⟨by decide, decimal_strings_exact (by decide) (by decide)⟩

end Decimals

section Instants

/-- The day of a date at the start of a text, counted from 1970-01-01. -/
def readDays (text : List Char) : Option (Int × List Char) := do
  let (sign, text) := readSign text
  let (year, text) ← readNat text
  let text ← readMark '-' text
  let (month, text) ← readNat text
  let text ← readMark '-' text
  let (day, text) ← readNat text
  return (CivilDate.toDays ⟨sign * year, month, day⟩, text)

/-- The seconds of a time of day at the start of a text. -/
def readTime (text : List Char) : Option (Nat × List Char) := do
  let (hours, text) ← readNat text
  let text ← readMark ':' text
  let (minutes, text) ← readNat text
  let text ← readMark ':' text
  let (seconds, text) ← readNat text
  return (3600 * hours + 60 * minutes + seconds, text)

/-- The instant that a text denotes, in seconds; a date alone denotes the start of its day. -/
def readInstant (text : List Char) : Option ℚ := do
  let (days, text) ← readDays text
  if text = [] then return days * 86400
  else
    let text ← readMark ' ' text
    let (seconds, text) ← readTime text
    let fraction ← readFraction text
    return days * 86400 + seconds + fraction

theorem readDays_dateText (date : CivilDate) {rest : List Char}
    (stops : ∀ next ∈ rest.head?, next.isDigit = false) :
    readDays (dateText date ++ rest) = some (date.toDays, rest) := by
  obtain ⟨year, month, day⟩ := date
  have dashed (text : List Char) : ∀ next ∈ ('-' :: text).head?, next.isDigit = false := by simp
  unfold readDays dateText yearText
  dsimp only
  split
  · rename_i plain
    have magnitude : (year.natAbs : Int) = year := by omega
    rw [List.append_assoc, readSign_padded]
    simp [readNat_padded _ (dashed _), readNat_padded _ stops, magnitude]
  · by_cases negative : year < 0
    · have magnitude : -|year| = year := by rw [abs_of_neg negative]; exact neg_neg year
      simp [negative, readNat_padded _ (dashed _), readNat_padded _ stops, magnitude]
    · have magnitude : |year| = year := abs_of_nonneg (not_lt.mp negative)
      simp [negative, readNat_padded _ (dashed _), readNat_padded _ stops, magnitude]

theorem readTime_timeText {time : DateTime} (plain : time.nanos < 1000000000) {rest : List Char}
    (stops : ∀ next ∈ rest.head?, next.isDigit = false) :
    readTime (timeText time ++ rest) = some (time.secondOfDay, rest) := by
  have colon (text : List Char) : ∀ next ∈ (':' :: text).head?, next.isDigit = false := by simp
  have none : time.nanos / 1000000000 = 0 := Nat.div_eq_of_lt plain
  have sum : 3600 * (time.secondOfDay / 3600) + 60 * (time.secondOfDay / 60 % 60) + time.secondOfDay % 60 =
      time.secondOfDay := by omega
  unfold readTime timeText
  simp [readNat_padded _ (colon _), readNat_padded _ stops, none, sum]

/-- A date and a time denote their sum, down to the last decimal place. -/
theorem readInstant_dateTimeText {time : DateTime} {places : Nat} (fine : places ≤ 9)
    (plain : time.nanos < 1000000000) :
    readInstant (dateTimeText time places) = some ((time.date.toDays * 86400 : ℚ) + time.secondOfDay +
      ((time.nanos / 10 ^ (9 - places) : Nat) : ℚ) / 10 ^ places) := by
  have blank (text : List Char) : ∀ next ∈ (' ' :: text).head?, next.isDigit = false := by simp
  have fits : time.nanos / 10 ^ (9 - places) < 10 ^ places := by
    rw [Nat.div_lt_iff_lt_mul (by positivity), ← pow_add, Nat.add_sub_cancel' fine]
    exact plain
  have written : dateTimeText time places = dateText time.date ++ ' ' :: (timeText time ++
      pointed places (time.nanos / 10 ^ (9 - places))) := by
    unfold dateTimeText pointed
    rw [Nat.mod_eq_of_lt plain]
  unfold readInstant
  rw [written]
  simp [readDays_dateText _ (blank _), readTime_timeText plain (pointed_stops _ _), readFraction_pointed fits]

theorem readInstant_dateText (date : CivilDate) : readInstant (dateText date) = some ((date.toDays * 86400 : ℚ)) := by
  have read := @readDays_dateText date [] (by simp)
  rw [List.append_nil] at read
  unfold readInstant
  simp [read]

/-- The units of one second. -/
def TimeUnit.scale : TimeUnit → Int
  | .second => 1
  | .millisecond => 1000
  | .microsecond => 1000000
  | .nanosecond => 1000000000

/-- A whole number of seconds that the calendar has a date for. -/
def InCalendar (secs : Int) : Prop := minDays ≤ secs / 86400 ∧ secs / 86400 ≤ maxDays

/-- A fraction of a second does not take a timestamp out of the calendar. -/
theorem InCalendar.tdiv {ts scale : Int} (positive : 0 < scale) (inside : InCalendar (ts / scale)) :
    InCalendar (ts.tdiv scale) := by
  have early : minDays ≤ 0 := by decide
  have late : 0 ≤ maxDays := by decide
  obtain ⟨lower, upper⟩ := inside
  rcases le_or_gt 0 ts with nonneg | negative
  · rw [Int.tdiv_eq_ediv_of_nonneg nonneg]
    exact ⟨lower, upper⟩
  · have floor : ts / scale < 0 := Int.ediv_neg_of_neg_of_pos negative positive
    have sign := Int.sign_eq_one_of_pos positive
    have near : ts / scale ≤ ts.tdiv scale ∧ ts.tdiv scale ≤ 0 := by
      rw [Int.tdiv_eq_ediv]
      split <;> omega
    constructor
    · exact lower.trans (Int.ediv_le_ediv (by decide) near.1)
    · omega

theorem fromTimestamp_reads {secs : Int} {nanos places : Nat} (inside : InCalendar secs)
    (plain : nanos < 1000000000) (fine : places ≤ 9) :
    ∃ time, fromTimestamp secs nanos = some time ∧ readInstant (dateTimeText time places) =
      some ((secs : ℚ) + ((nanos / 10 ^ (9 - places) : Nat) : ℚ) / 10 ^ places) := by
  refine ⟨⟨CivilDate.ofDays (secs / 86400), (secs % 86400).toNat, nanos⟩, ?_, ?_⟩
  · exact if_pos ⟨inside.1, inside.2, .inl plain⟩
  · have seconds : ((secs / 86400 : Int) : ℚ) * 86400 + ((secs % 86400).toNat : ℚ) = secs := by
      have least : ((secs % 86400).toNat : Int) = secs % 86400 := by omega
      rw [← Int.cast_natCast, least]
      exact_mod_cast Int.ediv_mul_add_emod secs 86400
    rw [readInstant_dateTimeText fine plain, CivilDate.toDays_ofDays]
    rw [seconds]

/-- The units of a second with `places` decimal places are read back from the nanoseconds. -/
theorem fromTimestamp_units {ts : Int} {places : Nat} (inside : InCalendar (ts.tdiv (10 ^ places)))
    (fine : places ≤ 9) :
    ∃ time, fromTimestamp (ts.tdiv (10 ^ places)) ((ts % 10 ^ places).toNat * 10 ^ (9 - places)) = some time ∧
      readInstant (dateTimeText time places) =
        some ((ts.tdiv (10 ^ places) : ℚ) + ((ts % 10 ^ places : Int) : ℚ) / 10 ^ places) := by
  have positive : (0 : Int) < 10 ^ places := by positivity
  have least := Int.emod_nonneg ts positive.ne'
  have fits : (ts % 10 ^ places).toNat < 10 ^ places := by
    rw [Int.toNat_lt least]
    exact_mod_cast Int.emod_lt_of_pos ts positive
  have plain : (ts % 10 ^ places).toNat * 10 ^ (9 - places) < 1000000000 := by
    calc (ts % 10 ^ places).toNat * 10 ^ (9 - places)
        < 10 ^ places * 10 ^ (9 - places) := Nat.mul_lt_mul_of_pos_right fits (by positivity)
      _ = 1000000000 := by rw [← pow_add, Nat.add_sub_cancel' fine]; rfl
  obtain ⟨time, found, read⟩ := fromTimestamp_reads inside plain fine
  refine ⟨time, found, ?_⟩
  have same : ((ts % 10 ^ places).toNat : ℚ) = ((ts % 10 ^ places : Int) : ℚ) := by
    exact_mod_cast Int.toNat_of_nonneg least
  rw [read, Nat.mul_div_cancel _ (by positivity), same]

theorem toU32_emod (ts : Int) {scale : Int} (positive : 0 < scale) (small : scale ≤ 2 ^ 32) (failure : String) :
    toU32 (ts % scale) failure = .ok (ts % scale).toNat := by
  have below := Int.emod_lt_of_pos ts positive
  exact if_pos ⟨Int.emod_nonneg ts positive.ne', by omega⟩

theorem stringifyTs_reads {ts : Int} {places : Nat} (inside : InCalendar (ts.tdiv (10 ^ places)))
    (fine : places ≤ 9) :
    ∃ text, stringifyTs ts (10 ^ places) places = .ok text ∧ readInstant text.toList =
      some ((ts.tdiv (10 ^ places) : ℚ) + ((ts % 10 ^ places : Int) : ℚ) / 10 ^ places) := by
  obtain ⟨time, found, read⟩ := fromTimestamp_units inside fine
  have small : (10 : Int) ^ places ≤ 2 ^ 32 := by
    calc (10 : Int) ^ places ≤ 10 ^ 9 := pow_le_pow_right₀ (by decide) fine
      _ ≤ 2 ^ 32 := by decide
  have factor : 1000000000 / ((10 : Int) ^ places).toNat = 10 ^ (9 - places) := by
    have power : ((10 : Int) ^ places).toNat = 10 ^ places := by
      rw [Int.toNat_pow_of_nonneg (by decide)]
      rfl
    rw [power, show 1000000000 = 10 ^ 9 from rfl]
    exact Nat.pow_div fine (by decide)
  refine ⟨String.ofList (dateTimeText time places), ?_, ?_⟩
  · unfold stringifyTs
    dsimp only
    rw [toU32_emod ts (by positivity) small, factor]
    simp only [bind, Except.bind, found]
    rfl
  · rw [String.toList_ofList, read]

/-- The string of a timestamp has the seconds that the division leaves, and the units that do not fill a second. -/
theorem timestampToString_reads (unit : TimeUnit) {ts : Int} (inside : InCalendar (ts / unit.scale)) :
    ∃ text, timestampToString unit ts = .ok text ∧
      readInstant text.toList = some ((ts.tdiv unit.scale : ℚ) + ((ts % unit.scale : Int) : ℚ) / unit.scale) := by
  have positive : 0 < unit.scale := by cases unit <;> decide
  have inside := inside.tdiv positive
  cases unit with
  | second =>
      obtain ⟨time, found, read⟩ := @fromTimestamp_reads (ts.tdiv 1) 0 0 inside (by decide) (by decide)
      rw [Int.tdiv_one] at found
      refine ⟨String.ofList (dateTimeText time 0), ?_, ?_⟩
      · simp [timestampToString, found]
      · rw [String.toList_ofList, read]
        simp [TimeUnit.scale]
  | millisecond =>
      obtain ⟨time, found, read⟩ := @fromTimestamp_units ts 3 inside (by decide)
      refine ⟨String.ofList (dateTimeText time 3), ?_, ?_⟩
      · unfold timestampToString
        dsimp only
        rw [toU32_emod ts (by decide) (by decide)]
        simp only [bind, Except.bind]
        have same : fromTimestamp (ts.tdiv 1000) ((ts % 1000).toNat * 1000000) = some time := found
        rw [same]
        rfl
      · rw [String.toList_ofList, read]
        norm_num [TimeUnit.scale]
  | microsecond =>
      obtain ⟨text, written, read⟩ := @stringifyTs_reads ts 6 inside (by decide)
      refine ⟨text, written, ?_⟩
      rw [read]
      norm_num [TimeUnit.scale]
  | nanosecond =>
      obtain ⟨text, written, read⟩ := @stringifyTs_reads ts 9 inside (by decide)
      refine ⟨text, written, ?_⟩
      rw [read]
      norm_num [TimeUnit.scale]

theorem date64ToString_reads {millis : Int} (inside : InCalendar (millis / 1000)) :
    ∃ text, date64ToString millis = .ok text ∧
      readInstant text.toList = some ((millis.tdiv 86400000 : ℚ) * 86400) := by
  have days : millis / 1000 / 86400 = millis / 86400000 := by
    rw [Int.ediv_ediv_of_nonneg (by decide)]
    rfl
  have early : minDays ≤ 0 := by decide
  have late : 0 ≤ maxDays := by decide
  obtain ⟨lower, upper⟩ := inside
  rw [days] at lower upper
  have bounds : minDays ≤ millis.tdiv 86400000 ∧ millis.tdiv 86400000 ≤ maxDays := by
    rw [Int.tdiv_eq_ediv]
    split
    · omega
    · simp only [show Int.sign 86400000 = 1 from rfl]
      omega
  refine ⟨_, if_pos bounds, ?_⟩
  rw [String.toList_ofList, readInstant_dateText, CivilDate.toDays_ofDays]

/-- The division rounds down when there is no fraction below zero. -/
theorem tdiv_of_whole {ts scale : Int} (whole : 0 ≤ ts ∨ scale ∣ ts) : ts.tdiv scale = ts / scale := by
  rcases whole with nonneg | divides
  · exact Int.tdiv_eq_ediv_of_nonneg nonneg
  · exact Int.tdiv_eq_ediv_of_dvd divides

/-- The division and the remainder belong together exactly when there is no fraction below zero. -/
theorem tdiv_mul_add_emod_iff {ts scale : Int} (positive : 0 < scale) :
    ts.tdiv scale * scale + ts % scale = ts ↔ 0 ≤ ts ∨ scale ∣ ts := by
  constructor
  · intro same
    by_contra fraction
    have rounded : ts.tdiv scale = ts / scale + 1 := by
      rw [Int.tdiv_eq_ediv, if_neg fraction, Int.sign_eq_one_of_pos positive]
    have split := Int.ediv_mul_add_emod ts scale
    rw [rounded, add_mul] at same
    omega
  · intro whole
    rw [tdiv_of_whole whole]
    exact Int.ediv_mul_add_emod ts scale

/-- The string of a timestamp denotes it unless it has a fraction of a second before 1970. -/
theorem timestampToString_exact_iff (unit : TimeUnit) {ts : Int} (inside : InCalendar (ts / unit.scale)) :
    (∃ text, timestampToString unit ts = .ok text ∧ readInstant text.toList = some ((ts : ℚ) / unit.scale)) ↔
      0 ≤ ts ∨ unit.scale ∣ ts := by
  have positive : 0 < unit.scale := by cases unit <;> decide
  have nonzero : (unit.scale : ℚ) ≠ 0 := by exact_mod_cast positive.ne'
  obtain ⟨text, written, read⟩ := timestampToString_reads unit inside
  rw [← tdiv_mul_add_emod_iff positive]
  have same : ((ts.tdiv unit.scale : ℚ) + ((ts % unit.scale : Int) : ℚ) / unit.scale = (ts : ℚ) / unit.scale) ↔
      ts.tdiv unit.scale * unit.scale + ts % unit.scale = ts := by
    rw [eq_div_iff nonzero, add_mul, div_mul_cancel₀ _ nonzero]
    exact_mod_cast Iff.rfl
  rw [← same]
  constructor
  · rintro ⟨other, otherWritten, otherRead⟩
    obtain rfl := Except.ok.inj (otherWritten.symm.trans written)
    exact Option.some.inj (read.symm.trans otherRead)
  · intro equal
    exact ⟨text, written, read.trans (congrArg some equal)⟩

/-- A column of timestamps or of dates in milliseconds. -/
inductive Temporal where
  | timestamp (unit : TimeUnit) (timezone : Option String)
  | date64

namespace Temporal

def dataType : Temporal → DataType
  | timestamp unit timezone => .timestamp unit timezone
  | date64 => .date64

def toText : Temporal → Int → Except String String
  | timestamp unit _ => timestampToString unit
  | date64 => date64ToString

/-- The units of one second. -/
def scale : Temporal → Int
  | timestamp unit _ => unit.scale
  | date64 => 1000

/-- The units that are divided out: a second of a timestamp, a day of a date. -/
def divisor : Temporal → Int
  | timestamp unit _ => unit.scale
  | date64 => 86400000

/-- A timestamp is an instant, and a date is the start of its day. -/
def instant : Temporal → Int → ℚ
  | timestamp unit _, ts => ts / unit.scale
  | date64, millis => (millis / 86400000 : Int) * 86400

/-- There is no fraction of the divisor below zero. -/
def Whole (kind : Temporal) (value : Int) : Prop := 0 ≤ value ∨ kind.divisor ∣ value

variable {kind : Temporal} {value other : Int} {text : String}

theorem toText_reads (inside : InCalendar (value / kind.scale)) (whole : kind.Whole value) :
    ∃ text, kind.toText value = .ok text ∧ readInstant text.toList = some (kind.instant value) := by
  cases kind with
  | timestamp unit timezone =>
      exact (timestampToString_exact_iff unit inside).mpr whole
  | date64 =>
      obtain ⟨text, written, read⟩ := date64ToString_reads inside
      refine ⟨text, written, ?_⟩
      have floor : value.tdiv 86400000 = value / 86400000 := tdiv_of_whole whole
      rw [read, instant, floor]

/-- Strings of timestamps and dates are compared as they are. -/
theorem compareCells_eq_none {Value : Type} (rendering : Rendering Value) {field : Field} (rowNumber : Nat)
    {left right : String} (typed : field.dataType = kind.dataType)
    (equal : compareCells rendering field rowNumber (some left) (some right) = none) : left = right := by
  have plain : field.dataType.isNumeric = false := by
    rw [typed]
    cases kind <;> rfl
  unfold compareCells at equal
  simp only [plain, Bool.false_and, Bool.false_eq_true, if_false] at equal
  by_contra different
  simp [different] at equal

end Temporal

/-- Strings denote instants and dates, so different ones do not compare as equal. -/
theorem temporal_strings_exact (kind : Temporal) {value : Int} (inside : InCalendar (value / kind.scale))
    (whole : kind.Whole value) :
    ∃ text, kind.toText value = .ok text ∧ readInstant text.toList = some (kind.instant value) ∧
      ∀ other otherText, InCalendar (other / kind.scale) → kind.Whole other →
        kind.toText other = .ok otherText → kind.instant other ≠ kind.instant value →
          otherText ≠ text ∧ ∀ {Value : Type} (rendering : Rendering Value) (field : Field) (rowNumber : Nat),
            field.dataType = kind.dataType →
              compareCells rendering field rowNumber (some otherText) (some text) ≠ none := by
  obtain ⟨text, written, read⟩ := Temporal.toText_reads inside whole
  refine ⟨text, written, read, ?_⟩
  intro other otherText otherInside otherWhole otherWritten different
  have unequal : otherText ≠ text := by
    rintro rfl
    obtain ⟨sameText, sameWritten, sameRead⟩ := Temporal.toText_reads otherInside otherWhole
    obtain rfl := Except.ok.inj (sameWritten.symm.trans otherWritten)
    exact different (Option.some.inj (sameRead.symm.trans read))
  refine ⟨unequal, ?_⟩
  intro Value rendering field rowNumber typed equal
  exact unequal (Temporal.compareCells_eq_none rendering rowNumber typed equal)

/-- A year with five digits has a sign, and a whole second before 1970 has its own string. -/
theorem temporal_strings_exact_sample : timestampToString .second 253402300800 = .ok "+10000-01-01 00:00:00" ∧
    ∃ text, (Temporal.timestamp .millisecond none).toText (-1000) = .ok text ∧
      readInstant text.toList = some ((Temporal.timestamp .millisecond none).instant (-1000)) ∧
      ∀ other otherText, InCalendar (other / 1000) → (Temporal.timestamp .millisecond none).Whole other →
        timestampToString .millisecond other = .ok otherText →
          (Temporal.timestamp .millisecond none).instant other ≠ (Temporal.timestamp .millisecond none).instant (-1000) →
          otherText ≠ text ∧ ∀ {Value : Type} (rendering : Rendering Value) (field : Field) (rowNumber : Nat),
            field.dataType = .timestamp .millisecond none →
              compareCells rendering field rowNumber (some otherText) (some text) ≠ none :=
  ⟨by decide, temporal_strings_exact (.timestamp .millisecond none) ⟨by decide, by decide⟩
    (.inr ⟨-1, rfl⟩)⟩

/-- Midnight and noon of a day have one date. -/
theorem date_string_drops_time : ∃ text, date64ToString 0 = .ok text ∧ date64ToString 43200000 = .ok text ∧
    readInstant text.toList ≠ some ((43200000 : ℚ) / 1000) :=
  ⟨"1970-01-01", by decide, by decide, by decide +kernel⟩

end Instants

end Spicebench.Validation
