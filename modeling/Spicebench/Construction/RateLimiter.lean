/-
This file embeds the rate limiter that the calls of many tasks share.
-/

import Spicebench.Library.Machine
import Mathlib.Algebra.Order.Ring.Unbundled.Rat
import Mathlib.Logic.Function.Basic

namespace Spicebench.Util

open Library

/-- The earliest moment of the next reservation lies behind a lock; times are exact seconds. -/
structure RateLimiter where
  unitsPerSec : Nat
  nextAvailable : ℚ

namespace RateLimiter

def new (unitsPerSec : Nat) (now : ℚ) : RateLimiter := ⟨unitsPerSec, now⟩

/-- Nothing is reserved for no units, or without a rate. -/
def passes (limiter : RateLimiter) (units : Nat) : Bool := units = 0 ∨ limiter.unitsPerSec ≤ 0

def cost (limiter : RateLimiter) (units : Nat) : ℚ := units / limiter.unitsPerSec

def start (limiter : RateLimiter) (now : ℚ) : ℚ := max limiter.nextAvailable now

/-- The wait for a moment that has passed is zero. -/
def wait (limiter : RateLimiter) (now : ℚ) : ℚ := max 0 (limiter.start now - now)

/-- The cursor moves behind the slot of the caller. -/
def advance (limiter : RateLimiter) (units : Nat) (now : ℚ) : RateLimiter :=
  { limiter with nextAvailable := limiter.start now + limiter.cost units }

/-- A call with its own reading of the clock takes the lock, and learns how long it has to wait. -/
def reserve (limiter : RateLimiter) (units : Nat) (now : ℚ) : ℚ × RateLimiter :=
  if limiter.passes units then (0, limiter) else (limiter.wait now, limiter.advance units now)

end RateLimiter

/-- A task has read the clock and waits for the lock, or it sleeps until a moment. -/
inductive Acquiring where
  | idle
  | reserving (units : Nat) (now : ℚ)
  | sleeping (wake : ℚ)

/-- A call has been granted its units: the moment it read, and the wait it was told. -/
structure Grant where
  units : Nat
  now : ℚ
  wait : ℚ

namespace Grant

def start (grant : Grant) : ℚ := grant.now + grant.wait

end Grant

/-- The units of the calls that were let through without a reservation are kept beside the grants. -/
structure LimiterState (Task : Type) where
  clock : ℚ
  limiter : RateLimiter
  tasks : Task → Acquiring
  grants : List Grant
  passed : List Nat

inductive LimiterAction (Task : Type) where
  | tick (elapsed : ℚ)
  | call (task : Task) (units : Nat)
  | lock (task : Task)
  | wake (task : Task)

namespace LimiterState

variable {Task : Type}

def created (unitsPerSec : Nat) (now : ℚ) : LimiterState Task :=
  ⟨now, .new unitsPerSec now, fun _ => .idle, [], []⟩

variable [DecidableEq Task]

def move (state : LimiterState Task) (task : Task) (acquiring : Acquiring) : LimiterState Task :=
  { state with tasks := Function.update state.tasks task acquiring }

/-- The task has the lock: its grant is noted, and it goes on at once or after its wait. -/
def grant (state : LimiterState Task) (task : Task) (units : Nat) (now : ℚ) : LimiterState Task :=
  let (wait, limiter) := state.limiter.reserve units now
  let granted : LimiterState Task := { state with limiter, grants := state.grants ++ [⟨units, now, wait⟩] }
  granted.move task (if wait = 0 then .idle else .sleeping (state.clock + wait))

/-- The clock is read before the lock is taken, and any time may pass between the two. -/
def step (state : LimiterState Task) : LimiterAction Task → Option (LimiterState Task)
  | .tick elapsed => if 0 ≤ elapsed then some { state with clock := state.clock + elapsed } else none
  | .call task units =>
      match state.tasks task with
      | .idle =>
          if state.limiter.passes units then some { state with passed := state.passed ++ [units] }
          else some (state.move task (.reserving units state.clock))
      | _ => none
  | .lock task =>
      match state.tasks task with
      | .reserving units now => some (state.grant task units now)
      | _ => none
  | .wake task =>
      match state.tasks task with
      | .sleeping wake => if wake ≤ state.clock then some (state.move task .idle) else none
      | _ => none

end LimiterState

def limiterMachine (Task : Type) [DecidableEq Task] : Machine (LimiterState Task) (LimiterAction Task) :=
  ⟨LimiterState.step, fun _ => True⟩

end Spicebench.Util
