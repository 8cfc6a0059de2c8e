/-
This file embeds the probe phase of a checkpoint validation.
-/

import Spicebench.Construction.Dataset.KeySet
import Spicebench.Construction.Validation
import Spicebench.Library.Machine
import Mathlib.Logic.Function.Basic

namespace Spicebench.Commands

open Library Validation
open DataGeneration (swapRemove)

variable {Value : Type}

def maxProbeInFlight : Nat := 5

/-- The task of a probe panics, its query fails, or the query returns batches. -/
inductive ProbeResult (Value : Type) where
  | panicked
  | failed
  | executed (batches : List (RecordBatch Value))

/-- A probe carries the moment at which it was dispatched; probes are numbered across calls. -/
structure ProbeFlight where
  number : Nat
  sendTime : Nat
  deriving DecidableEq, Repr

inductive ProbeOutcome where
  | passed (sendTime : Nat)
  | timedOut
  | interrupted
  deriving DecidableEq, Repr

/-- A call knows its deadline and the expected batches; the executor decides what each probe comes to. -/
structure ProbeCall (Value : Type) where
  rendering : Rendering Value
  probeExpected : List (RecordBatch Value)
  deadline : Nat
  results : Nat → ProbeResult Value

/-- The probe executed, and its batches validate as `Pass`. -/
def ProbeCall.passes (call : ProbeCall Value) (flight : ProbeFlight) : Bool :=
  match call.results flight.number with
  | .panicked => false
  | .failed => false
  | .executed batches => validateWithExpectedBatches call.rendering batches call.probeExpected == .ok .pass

/-- The clock, the shutdown token and the tasks of the probes run beside the command. -/
structure World where
  now : Nat
  cancelled : Bool
  probeCount : Nat
  finished : Nat → Bool

inductive WorldAction where
  | elapse (nanos : Nat)
  | cancel
  | finish (number : Nat)

/-- Only a dispatched probe finishes. -/
def World.step (world : World) : WorldAction → Option World
  | .elapse nanos => some { world with now := world.now + nanos }
  | .cancel => some { world with cancelled := true }
  | .finish number =>
      if number < world.probeCount then some { world with finished := Function.update world.finished number true }
      else none

/-- The loop is at its head, waits for a tick, dispatches, scans an index, or awaits what is left after a pass. -/
inductive ProbePhase where
  | atDeadline
  | selecting
  | dispatching
  | draining (index : Nat)
  | awaiting (sendTime : Nat) (rest : List ProbeFlight)
  | returned (outcome : ProbeOutcome)
  deriving DecidableEq, Repr

/-- All probes of the call are kept beside those in flight. -/
structure ProbeLoop where
  phase : ProbePhase
  inFlight : List ProbeFlight
  dispatched : List ProbeFlight

namespace ProbeLoop

def start : ProbeLoop := ⟨.atDeadline, [], []⟩

def goto (loop : ProbeLoop) (phase : ProbePhase) : ProbeLoop := { loop with phase }

/-- A probe is dispatched if fewer than the cap are in flight. -/
def dispatch (world : World) (loop : ProbeLoop) : World × ProbeLoop :=
  if loop.inFlight.length < maxProbeInFlight then
    let flight : ProbeFlight := ⟨world.probeCount, world.now⟩
    ({ world with probeCount := world.probeCount + 1 },
      ⟨.draining 0, loop.inFlight ++ [flight], loop.dispatched ++ [flight]⟩)
  else (world, loop.goto (.draining 0))

/-- A finished probe is taken out, and the last one moves to its place, which is scanned next. -/
def scan (call : ProbeCall Value) (world : World) (loop : ProbeLoop) (index : Nat) : ProbeLoop :=
  match loop.inFlight[index]? with
  | none => loop.goto .atDeadline
  | some flight =>
      if world.finished flight.number then
        let inFlight := swapRemove loop.inFlight index
        if call.passes flight then { loop with phase := .awaiting flight.sendTime inFlight, inFlight }
        else { loop with inFlight }
      else loop.goto (.draining (index + 1))

/-- The cancelled token comes before the tick. -/
def proceed (call : ProbeCall Value) (world : World) (loop : ProbeLoop) : Option (World × ProbeLoop) :=
  match loop.phase with
  | .atDeadline =>
      if call.deadline ≤ world.now then some (world, loop.goto (.returned .timedOut))
      else some (world, loop.goto .selecting)
  | .selecting => if world.cancelled then some (world, loop.goto (.returned .interrupted)) else none
  | .dispatching => some (loop.dispatch world)
  | .draining index => some (world, loop.scan call world index)
  | .awaiting sendTime [] => some (world, loop.goto (.returned (.passed sendTime)))
  | .awaiting sendTime (flight :: rest) =>
      if world.finished flight.number then some (world, loop.goto (.awaiting sendTime rest)) else none
  | .returned _ => none

def tick (world : World) (loop : ProbeLoop) : Option (World × ProbeLoop) :=
  match loop.phase with
  | .selecting => if world.cancelled then none else some (world, loop.goto .dispatching)
  | _ => none

end ProbeLoop

/-- The surroundings move, the ticker ticks, or the loop takes its next step. -/
inductive ProbeAction where
  | world (action : WorldAction)
  | tick
  | proceed

def probeStep (call : ProbeCall Value) (state : World × ProbeLoop) : ProbeAction → Option (World × ProbeLoop)
  | .world action => (state.1.step action).map fun world => (world, state.2)
  | .tick => state.2.tick state.1
  | .proceed => state.2.proceed call state.1

/-- `probe_until_pass` as a machine. -/
def probeMachine (call : ProbeCall Value) : Machine (World × ProbeLoop) ProbeAction := ⟨probeStep call, fun _ => True⟩

end Spicebench.Commands
