/-
This file embeds the streaming exporter of query metrics: workers send events over a bounded channel to one task, which
records them until the exporter is shut down.
-/

import Spicebench.Library.Machine

namespace Spicebench.StreamingMetrics

open Library

/-- A duration counts nanoseconds. -/
structure QueryMetricEvent where
  queryName : String
  duration : Nat
  success : Bool
  workerId : Nat
  failureReason : Option String
  deriving DecidableEq, Repr

abbrev Attributes := List (String × String)

def QueryMetricEvent.attributes (event : QueryMetricEvent) : Attributes :=
  [("query_name", event.queryName), ("worker_id", toString event.workerId), ("success", toString event.success)] ++
    match event.failureReason with
    | some reason => [("failure_reason", reason)]
    | none => []

/-- The instruments keep one series for each list of attributes. -/
structure Instruments where
  durations : Attributes → List Nat
  queryCount : Attributes → Nat
  successCount : Attributes → Nat
  failureCount : Attributes → Nat

def Instruments.new : Instruments := ⟨fun _ => [], fun _ => 0, fun _ => 0, fun _ => 0⟩

def increment (count : Attributes → Nat) (attributes : Attributes) : Attributes → Nat :=
  Function.update count attributes (count attributes + 1)

def Instruments.record (instruments : Instruments) (event : QueryMetricEvent) : Instruments :=
  let attributes := event.attributes
  { durations := Function.update instruments.durations attributes (instruments.durations attributes ++ [event.duration])
    queryCount := increment instruments.queryCount attributes
    successCount := if event.success then increment instruments.successCount attributes else instruments.successCount
    failureCount := if event.success then instruments.failureCount else increment instruments.failureCount attributes }

/-- The task of the exporter receives events, drains the channel once it is shut down, and ends with a flush. -/
inductive ExporterPhase where
  | receiving
  | draining
  | finished
  deriving DecidableEq, Repr

structure Exporter where
  channel : List QueryMetricEvent
  cancelled : Bool
  phase : ExporterPhase
  instruments : Instruments

def Exporter.spawn : Exporter := ⟨[], false, .receiving, .new⟩

inductive ExporterAction where
  | send (event : QueryMetricEvent)
  | receive
  | shutdown
  | notice
  | drain
  | flush

def channelCapacity : Nat := 10000

/-- A send that finds the channel full or closed drops its event; the task picks any branch that is ready. -/
def exporterStep (state : Exporter) : ExporterAction → Option Exporter
  | .send event =>
      if state.phase ≠ .finished ∧ state.channel.length < channelCapacity then
        some { state with channel := state.channel ++ [event] }
      else some state
  | .receive =>
      match state.phase, state.channel with
      | .receiving, event :: rest => some { state with channel := rest, instruments := state.instruments.record event }
      | _, _ => none
  | .shutdown => if state.cancelled then none else some { state with cancelled := true }
  | .notice => if state.phase = .receiving ∧ state.cancelled then some { state with phase := .draining } else none
  | .drain =>
      match state.phase, state.channel with
      | .draining, event :: rest => some { state with channel := rest, instruments := state.instruments.record event }
      | _, _ => none
  | .flush => if state.phase = .draining ∧ state.channel = [] then some { state with phase := .finished } else none

end Spicebench.StreamingMetrics
