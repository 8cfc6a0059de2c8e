/-
This file embeds the strings that decimals, dates and timestamps are compared by.
-/

import Spicebench.Construction.Validation
import Spicebench.Library.Calendar

namespace Spicebench.Validation

open Library

/-- A value has no string, or an operation on it overflows. -/
inductive StringifyFailure where
  | error (message : String)
  | panicked
  deriving DecidableEq, Repr

/-- The smallest `i128` value, whose absolute value is no `i128`. -/
def minI128 : Int := -2 ^ 127

/-- `i128::abs`. -/
def absI128 (value : Int) : Except StringifyFailure Nat :=
  if value = minI128 then .error .panicked else .ok value.natAbs

/-- `usize::try_from`, for a scale of eight bits. -/
def toUsize (scale : Int) : Except StringifyFailure Nat :=
  if 0 ≤ scale then .ok scale.toNat
  else .error (.error "out of range integral type conversion attempted")

/-- The digits of a decimal, split before the last `scale` of them. -/
def splitDigits (digits : List Char) (scale : Nat) : List Char × List Char :=
  if scale < digits.length then digits.splitAt (digits.length - scale)
  else (['0'], digits.leftpad scale '0')

def decimal128ToString (value scale : Int) : Except StringifyFailure String := do
  let sign := if value < 0 then ['-'] else []
  let absVal ← absI128 value
  let scale ← toUsize scale
  let (intPart, fracPart) := splitDigits (Nat.toDigits 10 absVal) scale
  if fracPart.isEmpty then return String.ofList (sign ++ intPart)
  else return String.ofList (sign ++ intPart ++ '.' :: fracPart)

/-- `NaiveDate::MIN` and `NaiveDate::MAX`, as days. -/
def minDays : Int := CivilDate.toDays ⟨-262143, 1, 1⟩

def maxDays : Int := CivilDate.toDays ⟨262142, 12, 31⟩

/-- A date and a time, with the nanoseconds of the last second. -/
structure DateTime where
  date : CivilDate
  secondOfDay : Nat
  nanos : Nat

/-- `DateTime::from_timestamp`; a minute may end with a leap second. -/
def fromTimestamp (secs : Int) (nanos : Nat) : Option DateTime :=
  let days := secs / 86400
  if minDays ≤ days ∧ days ≤ maxDays ∧ (nanos < 1000000000 ∨ (nanos < 2000000000 ∧ secs % 60 = 59)) then
    some ⟨CivilDate.ofDays days, (secs % 86400).toNat, nanos⟩
  else none

/-- `%Y`: a year with more than four digits or before the year zero has a sign. -/
def yearText (year : Int) : List Char :=
  if 0 ≤ year ∧ year < 10000 then padded 4 year.natAbs
  else (if year < 0 then '-' else '+') :: padded 4 year.natAbs

/-- `%Y-%m-%d`. -/
def dateText (date : CivilDate) : List Char :=
  yearText date.year ++ '-' :: (padded 2 date.month ++ '-' :: padded 2 date.day)

/-- `%H:%M:%S`; a leap second is the sixtieth. -/
def timeText (time : DateTime) : List Char :=
  let secs := time.secondOfDay
  padded 2 (secs / 3600) ++ ':' :: (padded 2 (secs / 60 % 60) ++
    ':' :: padded 2 (secs % 60 + time.nanos / 1000000000))

/-- `%Y-%m-%d %H:%M:%S`, and the given number of decimal places behind it. -/
def dateTimeText (time : DateTime) (places : Nat) : List Char :=
  dateText time.date ++ ' ' :: (timeText time ++
    if places = 0 then [] else '.' :: padded places (time.nanos % 1000000000 / 10 ^ (9 - places)))

/-- `u32::try_from`, for the units of a second. -/
def toU32 (sub : Int) (failure : String) : Except String Nat :=
  if 0 ≤ sub ∧ sub < 2 ^ 32 then .ok sub.toNat else .error failure

/-- A timestamp in units of which a second has `scale`; the division drops the fraction. -/
def stringifyTs (ts scale : Int) (places : Nat) : Except String String := do
  let secs := ts.tdiv scale
  let sub := ts % scale
  let sub ← toU32 sub s!"Subsecond value out of range for u32: {sub}"
  let nanos := sub * (1000000000 / scale.toNat)
  match fromTimestamp secs nanos with
  | none => .error s!"Invalid timestamp from seconds={secs} nanos={nanos}"
  | some time => return String.ofList (dateTimeText time places)

def timestampToString (unit : TimeUnit) (ts : Int) : Except String String :=
  match unit with
  | .second =>
      match fromTimestamp ts 0 with
      | none => .error s!"Invalid timestamp for seconds={ts}"
      | some time => .ok (String.ofList (dateTimeText time 0))
  | .millisecond => do
      let secs := ts.tdiv 1000
      let sub ← toU32 (ts % 1000) "out of range integral type conversion attempted"
      match fromTimestamp secs (sub * 1000000) with
      | none => .error "Invalid timestamp"
      | some time => return String.ofList (dateTimeText time 3)
  | .microsecond => stringifyTs ts 1000000 6
  | .nanosecond => stringifyTs ts 1000000000 9

/-- The day is added to the first of January 1970. -/
def dateOfDays (days : Int) : Except String String :=
  if minDays ≤ days ∧ days ≤ maxDays then .ok (String.ofList (dateText (CivilDate.ofDays days)))
  else .error "Date out of range"

def date32ToString (days : Int) : Except String String := dateOfDays days

def date64ToString (millis : Int) : Except String String := dateOfDays (millis.tdiv 86400000)

end Spicebench.Validation
