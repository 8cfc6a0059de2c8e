import Spicebench.Construction.StreamingMetrics
import Mathlib.Data.List.Induction

namespace Spicebench.StreamingMetrics

open Library

/-- The events that the workers try to send. -/
def sentOf (actions : List ExporterAction) : List QueryMetricEvent :=
  actions.filterMap fun
    | .send event => some event
    | _ => none

def recordAll (events : List QueryMetricEvent) : Instruments := events.foldl Instruments.record .new

theorem recordAll_concat (events : List QueryMetricEvent) (event : QueryMetricEvent) :
    recordAll (events ++ [event]) = (recordAll events).record event := by
  rw [recordAll, List.foldl_append]
  rfl

section Series

end Series

/-- What a step can do. -/
inductive ExporterMove (state next : Exporter) : ExporterAction → Prop where
  | accepts (event : QueryMetricEvent) (busy : state.phase ≠ .finished)
      (room : state.channel.length < channelCapacity)
      (moved : next = { state with channel := state.channel ++ [event] }) : ExporterMove state next (.send event)
  | drops (event : QueryMetricEvent) (shut : state.phase = .finished ∨ channelCapacity ≤ state.channel.length)
      (same : next = state) : ExporterMove state next (.send event)
  | takes (action : ExporterAction) (own : action = .receive ∨ action = .drain) (event : QueryMetricEvent)
      (rest : List QueryMetricEvent) (waiting : state.channel = event :: rest) (busy : state.phase ≠ .finished)
      (moved : next = { state with channel := rest, instruments := state.instruments.record event }) :
      ExporterMove state next action
  | shuts (fresh : state.cancelled = false) (moved : next = { state with cancelled := true }) :
      ExporterMove state next .shutdown
  | notices (busy : state.phase = .receiving) (cancelled : state.cancelled = true)
      (moved : next = { state with phase := .draining }) : ExporterMove state next .notice
  | flushes (busy : state.phase = .draining) (empty : state.channel = [])
      (moved : next = { state with phase := .finished }) : ExporterMove state next .flush

theorem step_cases {state next : Exporter} {action : ExporterAction} (moved : exporterStep state action = some next) :
    ExporterMove state next action := by
  cases action with
  | send event =>
      simp only [exporterStep] at moved
      split at moved
      · rename_i room
        exact .accepts event room.1 room.2 (Option.some.inj moved).symm
      · rename_i shut
        refine .drops event ?_ (Option.some.inj moved).symm
        by_contra both
        rw [not_or] at both
        exact shut ⟨both.1, Nat.not_le.mp both.2⟩
  | receive =>
      simp only [exporterStep] at moved
      split at moved
      · rename_i event rest phase waiting
        exact .takes _ (.inl rfl) event rest waiting (by simp [phase]) (Option.some.inj moved).symm
      · exact nomatch moved
  | shutdown =>
      simp only [exporterStep, Option.ite_none_left_eq_some, Bool.not_eq_true] at moved
      exact .shuts moved.1 (Option.some.inj moved.2).symm
  | notice =>
      simp only [exporterStep, Option.ite_none_right_eq_some] at moved
      exact .notices moved.1.1 moved.1.2 (Option.some.inj moved.2).symm
  | drain =>
      simp only [exporterStep] at moved
      split at moved
      · rename_i event rest phase waiting
        exact .takes _ (.inr rfl) event rest waiting (by simp [phase]) (Option.some.inj moved).symm
      · exact nomatch moved
  | flush =>
      simp only [exporterStep, Option.ite_none_right_eq_some] at moved
      exact .flushes moved.1.1 moved.1.2 (Option.some.inj moved.2).symm

/-- The recorded events and those in the channel are the accepted ones, in their order. -/
structure Tracked (state : Exporter) (accepted : List QueryMetricEvent) : Prop where
  split : ∃ recorded, recorded ++ state.channel = accepted ∧ state.instruments = recordAll recorded
  closed : state.phase ≠ .receiving → state.cancelled = true
  drained : state.phase = .finished → state.channel = []

/-- A step but a send neither loses nor adds an event. -/
theorem Tracked.quiet {state next : Exporter} {accepted : List QueryMetricEvent} {action : ExporterAction}
    (tracked : Tracked state accepted) (silent : ∀ event, action ≠ .send event)
    (moved : ExporterMove state next action) : Tracked next accepted := by
  obtain ⟨recorded, split, instruments⟩ := tracked.split
  cases moved with
  | accepts event => exact absurd rfl (silent event)
  | drops event => exact absurd rfl (silent event)
  | takes _ _ event rest waiting busy moved =>
      subst moved
      refine ⟨⟨recorded ++ [event], ?_, ?_⟩, tracked.closed, fun ended => absurd ended busy⟩
      · rw [← split, waiting, List.append_assoc]
        rfl
      · rw [recordAll_concat, ← instruments]
  | shuts _ moved =>
      subst moved
      exact ⟨⟨recorded, split, instruments⟩, fun _ => rfl, tracked.drained⟩
  | notices _ cancelled moved =>
      subst moved
      exact ⟨⟨recorded, split, instruments⟩, fun _ => cancelled, nofun⟩
  | flushes busy empty moved =>
      subst moved
      exact ⟨⟨recorded, split, instruments⟩, fun _ => tracked.closed (by simp [busy]), fun _ => empty⟩

/-- What the workers have sent so far was accepted in its order, and wholly unless the channel was full. -/
structure Sending (state : Exporter) (sent : List QueryMetricEvent) : Prop where
  running : state.cancelled = false
  accepted : ∃ accepted, Tracked state accepted ∧ accepted.Sublist sent ∧
    (sent.length ≤ channelCapacity → accepted = sent)

/-- Before the shutdown each step keeps this, and a send is accepted or finds the channel full. -/
theorem Sending.step {state next : Exporter} {sent : List QueryMetricEvent} {action : ExporterAction}
    (sending : Sending state sent) (stays : next.cancelled = false) (moved : ExporterMove state next action) :
    Sending next (sent ++ sentOf [action]) := by
  obtain ⟨running, accepted, tracked, part, whole⟩ := sending
  have busy : state.phase = .receiving := by
    by_contra other
    exact nomatch running.symm.trans (tracked.closed other)
  have silent : (∀ event, action ≠ .send event) → Sending next (sent ++ sentOf [action]) := by
    intro silent
    have nothing : sentOf [action] = [] := by
      cases action <;> first | rfl | exact absurd rfl (silent _)
    rw [nothing, List.append_nil]
    exact ⟨stays, accepted, tracked.quiet silent moved, part, whole⟩
  have waiting : state.channel.length ≤ accepted.length := by
    obtain ⟨recorded, split, _⟩ := tracked.split
    rw [← split, List.length_append]
    omega
  cases moved with
  | accepts event _ room moved =>
      subst moved
      obtain ⟨recorded, split, instruments⟩ := tracked.split
      refine ⟨stays, accepted ++ [event], ⟨⟨recorded, ?_, instruments⟩, tracked.closed, ?_⟩,
        part.append (.refl _), ?_⟩
      · rw [← split, List.append_assoc]
      · intro ended
        exact nomatch busy.symm.trans ended
      · intro few
        rw [whole (by simp at few; omega)]
        rfl
  | drops event shut same =>
      subst same
      refine ⟨stays, accepted, tracked, part.trans (List.sublist_append_left _ _), ?_⟩
      intro few
      have short := part.length_le
      simp only [sentOf, List.filterMap_cons, List.filterMap_nil, List.length_append, List.length_singleton] at few
      obtain ended | full := shut
      · exact nomatch busy.symm.trans ended
      · omega
  | takes _ own => exact silent (by rintro event rfl; simp at own)
  | shuts => exact silent (by simp)
  | notices => exact silent (by simp)
  | flushes => exact silent (by simp)

/-- The shutdown cannot be taken back. -/
theorem ExporterMove.cancelled {state next : Exporter} {action : ExporterAction}
    (moved : ExporterMove state next action) (cancelled : state.cancelled = true) : next.cancelled = true := by
  cases moved with
  | accepts _ _ _ moved | takes _ _ _ _ _ _ moved | shuts _ moved | notices _ _ moved | flushes _ _ moved =>
      subst moved
      first | rfl | exact cancelled
  | drops _ _ same => rw [same, cancelled]

def ExporterPhase.rank : ExporterPhase → Nat
  | .receiving => 2
  | .draining => 1
  | .finished => 0

def Exporter.rank (state : Exporter) : Nat :=
  state.channel.length + state.phase.rank + if state.cancelled then 0 else 1

end Spicebench.StreamingMetrics
