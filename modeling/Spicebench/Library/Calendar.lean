/-
This file relates days and the dates of the proleptic Gregorian calendar.
-/

import Spicebench.Library.Decimal
import Mathlib.Tactic.Linarith

namespace Spicebench.Library

structure CivilDate where
  year : Int
  month : Nat
  day : Nat
  deriving DecidableEq, Repr

namespace CivilDate

/-- The year of an era of 400 years and the day of that year, which begins in March. -/
def splitYear (dayOfEra : Nat) : Nat × Nat :=
  -- The last century of an era and the last year of a cycle of four have one day more.
  let century := min (dayOfEra / 36524) 3
  let dayOfCentury := dayOfEra - century * 36524
  let dayOfCycle := dayOfCentury % 1461
  let year := min (dayOfCycle / 365) 3
  (100 * century + 4 * (dayOfCentury / 1461) + year, dayOfCycle - 365 * year)

/-- The days of an era before a year. -/
def daysBefore (yearOfEra : Nat) : Nat := 365 * yearOfEra + yearOfEra / 4 - yearOfEra / 100

/-- The month, counted from March. -/
def monthOfYear (dayOfYear : Nat) : Nat := (5 * dayOfYear + 2) / 153

/-- The days of a year before a month, both counted from March. -/
def daysBeforeMonth (month : Nat) : Nat := (153 * month + 2) / 5

def toDays (date : CivilDate) : Int :=
  let year := if date.month ≤ 2 then date.year - 1 else date.year
  let month := if date.month ≤ 2 then date.month + 9 else date.month - 3
  year / 400 * 146097 + (daysBefore (year % 400).toNat + (daysBeforeMonth month + date.day - 1)) - 719468

theorem splitYear_spec {dayOfEra : Nat} (inside : dayOfEra < 146097) :
    (splitYear dayOfEra).1 < 400 ∧ (splitYear dayOfEra).2 < 366 ∧
      daysBefore (splitYear dayOfEra).1 + (splitYear dayOfEra).2 = dayOfEra := by
  unfold daysBefore splitYear
  dsimp only
  generalize least : min (dayOfEra / 36524) 3 = century
  generalize left : dayOfEra - century * 36524 = dayOfCentury
  generalize last : min (dayOfCentury % 1461 / 365) 3 = year
  have fours : (100 * century + 4 * (dayOfCentury / 1461) + year) / 4 = 25 * century + dayOfCentury / 1461 := by
    omega
  have hundreds : (100 * century + 4 * (dayOfCentury / 1461) + year) / 100 = century := by
    omega
  refine ⟨by omega, by omega, ?_⟩
  rw [fours, hundreds]
  omega

theorem monthOfYear_spec {dayOfYear : Nat} (inside : dayOfYear < 366) :
    monthOfYear dayOfYear < 12 ∧ daysBeforeMonth (monthOfYear dayOfYear) ≤ dayOfYear := by
  unfold monthOfYear daysBeforeMonth
  omega

/-- The date of a day of a year in an era, all counted from March. -/
def ofMarch (era : Int) (year dayOfYear : Nat) : CivilDate :=
  let month := monthOfYear dayOfYear
  { year := era * 400 + year + if month < 10 then 0 else 1
    month := if month < 10 then month + 3 else month - 9
    day := dayOfYear - daysBeforeMonth month + 1 }

theorem toDays_ofMarch (era : Int) {year dayOfYear : Nat} (small : year < 400) (short : dayOfYear < 366) :
    toDays (ofMarch era year dayOfYear) = era * 146097 + (daysBefore year + dayOfYear) - 719468 := by
  obtain ⟨twelve, early⟩ := monthOfYear_spec short
  unfold ofMarch toDays
  dsimp only
  generalize monthOfYear dayOfYear = month at *
  by_cases spring : month < 10
  · have later : ¬month + 3 ≤ 2 := by omega
    have quotient : (era * 400 + year + 0) / 400 = era := by omega
    have left : ((era * 400 + year + 0) % 400).toNat = year := by omega
    simp only [spring, if_true, later, if_false, Nat.add_sub_cancel]
    rw [quotient, left]
    omega
  · -- January and February belong to the year that began in March before them.
    have winter : month - 9 ≤ 2 := by omega
    have quotient : (era * 400 + year + 1 - 1) / 400 = era := by omega
    have left : ((era * 400 + year + 1 - 1) % 400).toNat = year := by omega
    simp only [spring, winter, if_true, if_false, Nat.sub_add_cancel (show 9 ≤ month by omega)]
    rw [quotient, left]
    omega

/-- Day zero is the first of January 1970. -/
def ofDays (days : Int) : CivilDate :=
  let split := splitYear ((days + 719468) % 146097).toNat
  ofMarch ((days + 719468) / 146097) split.1 split.2

/-- The date of a day determines the day. -/
theorem toDays_ofDays (days : Int) : toDays (ofDays days) = days := by
  have inside : ((days + 719468) % 146097).toNat < 146097 := by omega
  obtain ⟨small, short, same⟩ := splitYear_spec inside
  have whole := Int.mul_ediv_add_emod (days + 719468) 146097
  unfold ofDays
  rw [toDays_ofMarch _ small short]
  omega

example : ofDays 11016 = ⟨2000, 2, 29⟩ := by decide

end CivilDate

end Spicebench.Library
