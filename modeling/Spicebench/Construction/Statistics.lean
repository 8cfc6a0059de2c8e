/-
This file embeds the statistics over the durations of a query.
-/

import Spicebench.Construction.Duration
import Mathlib.Data.List.Sort
import Mathlib.Data.Prod.Lex
import Mathlib.Data.Rat.Floor

namespace Spicebench.Metrics

open DurationParse (Duration u32Max)

/-- Durations are compared by their seconds first. -/
instance : LinearOrder Duration :=
  LinearOrder.lift' (fun duration => toLex (duration.secs, duration.nanos)) fun left right same => by
    have parts := Prod.ext_iff.mp (toLex.injective same)
    exact Duration.ext parts.1 parts.2

inductive Failure where
  | error (message : String)
  | panicked
  deriving DecidableEq, Repr

def subtract (left right : Nat) : Except Failure Nat := if right ≤ left then .ok (left - right) else .error .panicked

def toU32 (value : Nat) : Except Failure Nat :=
  if value ≤ u32Max then .ok value else .error (.error "out of range integral type conversion attempted")

/-- The cast of a float to an index drops its fraction and what is below zero. -/
def toUsize (value : ℚ) : Nat := ⌊value⌋.toNat

def getAt (durations : List Duration) (index : Nat) : Except Failure Duration :=
  match durations[index]? with
  | some duration => .ok duration
  | none => .error .panicked

/-- A sum of durations that does not fit panics. -/
def add (left right : Duration) : Except Failure Duration :=
  let nanos := left.nanos + right.nanos
  let secs := left.secs + right.secs + nanos / 1000000000
  if bounded : secs ≤ DurationParse.u64Max then
    .ok ⟨secs, nanos % 1000000000, bounded, DurationParse.Duration.mod_proper nanos⟩
  else .error .panicked

/-- The second that is left over is divided with the nanoseconds. -/
def half (duration : Duration) : Duration where
  secs := duration.secs / 2
  nanos := duration.nanos / 2 + (duration.secs % 2 * 1000000000 + duration.nanos % 2) / 2
  bounded := (Nat.div_le_self _ _).trans duration.bounded
  proper := by have proper := duration.proper; omega

def floatErrorMargin : ℚ := 1 / 10000

def sorted (durations : List Duration) : List Duration := durations.insertionSort (· ≤ ·)

/-- The rank is computed exactly. -/
def percentile (durations : List Duration) (percentile : ℚ) : Except Failure Duration := do
  let sortedDurations := sorted durations
  let rank := percentile / 100 * (← toU32 (← subtract sortedDurations.length 1))
  if |rank - ⌊rank⌋| < floatErrorMargin then getAt sortedDurations (toUsize rank)
  else
    let lowerDuration ← getAt sortedDurations (toUsize ⌊rank⌋)
    let upperDuration ← getAt sortedDurations (toUsize ⌈rank⌉)
    return half (← add lowerDuration upperDuration)

def median (durations : List Duration) : Except Failure Duration := do
  let sortedDurations := sorted durations
  let middle := sortedDurations.length / 2
  if sortedDurations.length % 2 = 0 then
    return half (← add (← getAt sortedDurations (← subtract middle 1)) (← getAt sortedDurations middle))
  else getAt sortedDurations middle

def minDuration (durations : List Duration) : Except Failure Duration :=
  match durations.min? with
  | some duration => .ok duration
  | none => .error (.error "Cannot get min of empty duration list")

def maxDuration (durations : List Duration) : Except Failure Duration :=
  match durations.max? with
  | some duration => .ok duration
  | none => .error (.error "Cannot get max of empty duration list")

end Spicebench.Metrics
