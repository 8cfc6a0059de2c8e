import Spicebench.Construction.Commands.Probe
import Spicebench.Proof.Dataset.KeySet
import Mathlib.Order.Bounds.Basic

namespace Spicebench.Commands

open Library
open DataGeneration (swapRemove)
open DataGeneration.IndexedKeySet (swapRemove_perm mem_swapRemove)

variable {Value : Type}

/-- The send time of the probe that has been accepted. -/
def ProbePhase.sendTime? : ProbePhase → Option Nat
  | awaiting sendTime _ => some sendTime
  | returned (.passed sendTime) => some sendTime
  | _ => none

/-- One step of the probe phase, with what it changes. -/
inductive ProbeMove (call : ProbeCall Value) : World × ProbeLoop → ProbeAction → World × ProbeLoop → Prop where
  | world {world next : World} {loop : ProbeLoop} {action : ProbeAction} (counted : next.probeCount = world.probeCount)
      (later : world.now ≤ next.now) (grows : ∀ number, world.finished number = true → next.finished number = true) :
      ProbeMove call (world, loop) action (next, loop)
  | goto {world : World} {loop : ProbeLoop} {action : ProbeAction} {phase : ProbePhase}
      (same : phase.sendTime? = loop.phase.sendTime?) : ProbeMove call (world, loop) action (world, loop.goto phase)
  | dispatch {world : World} {loop : ProbeLoop} (phase : loop.phase = .dispatching)
      (room : loop.inFlight.length < maxProbeInFlight) : ProbeMove call (world, loop) .proceed (loop.dispatch world)
  | drop {world : World} {loop : ProbeLoop} {index : Nat} {flight : ProbeFlight} (phase : loop.phase = .draining index)
      (stands : loop.inFlight[index]? = some flight) (finished : world.finished flight.number = true)
      (fails : call.passes flight = false) :
      ProbeMove call (world, loop) .proceed (world, { loop with inFlight := swapRemove loop.inFlight index })
  | accept {world : World} {loop : ProbeLoop} {index : Nat} {flight : ProbeFlight}
      (phase : loop.phase = .draining index) (stands : loop.inFlight[index]? = some flight)
      (finished : world.finished flight.number = true) (passes : call.passes flight = true) :
      ProbeMove call (world, loop) .proceed (world, ⟨.awaiting flight.sendTime (swapRemove loop.inFlight index),
        swapRemove loop.inFlight index, loop.dispatched⟩)

theorem World.step_grows {world next : World} {action : WorldAction} (stepped : world.step action = some next) :
    next.probeCount = world.probeCount ∧ world.now ≤ next.now ∧
      ∀ number, world.finished number = true → next.finished number = true := by
  cases action with
  | elapse nanos =>
      cases stepped
      exact ⟨rfl, Nat.le_add_right .., fun number finished => finished⟩
  | cancel =>
      cases stepped
      exact ⟨rfl, le_rfl, fun number finished => finished⟩
  | finish number =>
      obtain ⟨-, stepped⟩ := Option.ite_none_right_eq_some.mp stepped
      cases stepped
      refine ⟨rfl, le_rfl, ?_⟩
      intro other finished
      by_cases same : other = number
      · subst same
        exact Function.update_self ..
      · exact (Function.update_of_ne same ..).trans finished

theorem ProbeLoop.scan_moves (call : ProbeCall Value) (world : World) (loop : ProbeLoop) {index : Nat}
    (phase : loop.phase = .draining index) :
    ProbeMove call (world, loop) .proceed (world, loop.scan call world index) := by
  unfold ProbeLoop.scan
  split
  · exact .goto (by rw [phase]; rfl)
  · rename_i flight stands
    split
    · rename_i finished
      by_cases passes : call.passes flight
      · simp only [passes, if_true]
        exact .accept phase stands finished passes
      · simp only [passes, Bool.false_eq_true, if_false]
        exact .drop phase stands finished (Bool.eq_false_iff.mpr passes)
    · exact .goto (by rw [phase]; rfl)

theorem ProbeLoop.proceed_moves {call : ProbeCall Value} {world : World} {loop : ProbeLoop} {next : World × ProbeLoop}
    (stepped : loop.proceed call world = some next) : ProbeMove call (world, loop) .proceed next := by
  unfold ProbeLoop.proceed at stepped
  split at stepped
  case h_1 phase =>
    split at stepped
    all_goals
      cases stepped
      exact .goto (by rw [phase]; rfl)
  case h_2 phase =>
    obtain ⟨-, stepped⟩ := Option.ite_none_right_eq_some.mp stepped
    cases stepped
    exact .goto (by rw [phase]; rfl)
  case h_3 phase =>
    cases stepped
    by_cases room : loop.inFlight.length < maxProbeInFlight
    · exact .dispatch phase room
    · rw [ProbeLoop.dispatch, if_neg room]
      exact .goto (by rw [phase]; rfl)
  case h_4 index phase =>
    cases stepped
    exact loop.scan_moves call world phase
  case h_5 sendTime phase =>
    cases stepped
    exact .goto (by rw [phase]; rfl)
  case h_6 sendTime flight rest phase =>
    obtain ⟨-, stepped⟩ := Option.ite_none_right_eq_some.mp stepped
    cases stepped
    exact .goto (by rw [phase]; rfl)
  case h_7 => cases stepped

theorem probeStep_moves {call : ProbeCall Value} {state next : World × ProbeLoop} {action : ProbeAction}
    (stepped : probeStep call state action = some next) : ProbeMove call state action next := by
  obtain ⟨world, loop⟩ := state
  cases action with
  | world action =>
      obtain ⟨after, moved, rfl⟩ := Option.map_eq_some_iff.mp stepped
      obtain ⟨counted, later, grows⟩ := World.step_grows moved
      exact .world counted later grows
  | tick =>
      simp only [probeStep, ProbeLoop.tick] at stepped
      split at stepped
      case h_1 phase =>
        obtain ⟨-, stepped⟩ := Option.ite_none_left_eq_some.mp stepped
        cases stepped
        exact .goto (by rw [phase]; rfl)
      case h_2 => cases stepped
  | proceed => exact ProbeLoop.proceed_moves stepped

/-- What has left the probes in flight is finished, and it has failed unless it was accepted. -/
structure ProbeLoop.Tracked (call : ProbeCall Value) (world : World) (loop : ProbeLoop) : Prop where
  fresh : ∀ flight ∈ loop.dispatched, flight.number < world.probeCount
  distinct : loop.dispatched.Nodup
  nodup : loop.inFlight.Nodup
  known : ∀ flight ∈ loop.inFlight, flight ∈ loop.dispatched
  capped : loop.inFlight.length ≤ maxProbeInFlight
  drained : ∀ flight ∈ loop.dispatched, flight ∉ loop.inFlight → world.finished flight.number = true
  undecided : loop.phase.sendTime? = none →
    ∀ flight ∈ loop.dispatched, flight ∉ loop.inFlight → call.passes flight = false
  accepted : ∀ sendTime, loop.phase.sendTime? = some sendTime →
    ∃ accepted ∈ loop.dispatched, accepted ∉ loop.inFlight ∧ call.passes accepted = true ∧
      accepted.sendTime = sendTime ∧
      ∀ flight ∈ loop.dispatched, flight ∉ loop.inFlight → flight = accepted ∨ call.passes flight = false

namespace ProbeLoop.Tracked

theorem start (call : ProbeCall Value) (world : World) : Tracked call world .start where
  fresh := by simp [ProbeLoop.start]
  distinct := List.nodup_nil
  nodup := List.nodup_nil
  known := by simp [ProbeLoop.start]
  capped := Nat.zero_le _
  drained := by simp [ProbeLoop.start]
  undecided := by simp [ProbeLoop.start]
  accepted := by simp [ProbeLoop.start, ProbePhase.sendTime?]

variable {call : ProbeCall Value} {world : World} {loop : ProbeLoop}

theorem dispatch (tracked : Tracked call world loop) (phase : loop.phase = .dispatching)
    (room : loop.inFlight.length < maxProbeInFlight) :
    Tracked call (loop.dispatch world).1 (loop.dispatch world).2 := by
  have new : (⟨world.probeCount, world.now⟩ : ProbeFlight) ∉ loop.dispatched := by
    intro member
    exact absurd (tracked.fresh _ member) (lt_irrefl _)
  have absent : (⟨world.probeCount, world.now⟩ : ProbeFlight) ∉ loop.inFlight := fun member =>
    new (tracked.known _ member)
  have left : ∀ flight ∈ loop.dispatched ++ [⟨world.probeCount, world.now⟩],
      flight ∉ loop.inFlight ++ [⟨world.probeCount, world.now⟩] →
        flight ∈ loop.dispatched ∧ flight ∉ loop.inFlight := by
    intro flight member gone
    simp only [List.mem_append, List.mem_singleton, not_or] at member gone
    exact ⟨member.resolve_right gone.2, gone.1⟩
  have pushed {flights : List ProbeFlight} {flight : ProbeFlight} (nodup : flights.Nodup) (apart : flight ∉ flights) :
      (flights ++ [flight]).Nodup := by
    rw [← List.concat_eq_append]
    exact (List.nodup_concat _ _).mpr ⟨apart, nodup⟩
  rw [ProbeLoop.dispatch, if_pos room]
  refine {
    fresh := ?_
    distinct := pushed tracked.distinct new
    nodup := pushed tracked.nodup absent
    known := ?_
    capped := ?_
    drained := ?_
    undecided := ?_
    accepted := ?_ }
  · intro flight member
    rcases List.mem_append.mp member with earlier | last
    · exact Nat.lt_succ_of_lt (tracked.fresh flight earlier)
    · rw [List.mem_singleton.mp last]
      exact Nat.lt_succ_self _
  · intro flight member
    rcases List.mem_append.mp member with earlier | last
    · exact List.mem_append_left _ (tracked.known flight earlier)
    · exact List.mem_append_right _ last
  · rw [List.length_append, List.length_singleton]
    omega
  · intro flight member gone
    obtain ⟨earlier, gone⟩ := left flight member gone
    exact tracked.drained flight earlier gone
  · intro _ flight member gone
    obtain ⟨earlier, gone⟩ := left flight member gone
    exact tracked.undecided (by rw [phase]; rfl) flight earlier gone
  · intro sendTime accepted
    cases accepted

/-- A finished probe is taken out, and the others stay. -/
theorem take (tracked : Tracked call world loop) {index : Nat} {flight : ProbeFlight}
    (stands : loop.inFlight[index]? = some flight) :
    (swapRemove loop.inFlight index).Nodup ∧ (swapRemove loop.inFlight index).length ≤ maxProbeInFlight ∧
      (∀ other ∈ swapRemove loop.inFlight index, other ∈ loop.dispatched) ∧
      ∀ other, other ∉ swapRemove loop.inFlight index → other = flight ∨ other ∉ loop.inFlight := by
  have perm := swapRemove_perm stands
  have nodup := perm.nodup_iff.mpr tracked.nodup
  have length := perm.length_eq
  rw [List.length_cons] at length
  have capped := tracked.capped
  refine ⟨(List.nodup_cons.mp nodup).2, by omega, ?_, ?_⟩
  · intro other member
    exact tracked.known other (perm.mem_iff.mp (List.mem_cons_of_mem _ member))
  · intro other gone
    rw [mem_swapRemove tracked.nodup stands] at gone
    tauto

/-- Every step keeps the probes of the call tracked. -/
theorem move {state next : World × ProbeLoop} {action : ProbeAction} (tracked : Tracked call state.1 state.2)
    (moved : ProbeMove call state action next) : Tracked call next.1 next.2 := by
  cases moved with
  | world counted later grows =>
      exact { tracked with
        fresh := fun flight member => counted ▸ tracked.fresh flight member
        drained := fun flight member gone => grows _ (tracked.drained flight member gone) }
  | goto same =>
      exact { tracked with
        undecided := fun none => tracked.undecided (same.symm.trans none)
        accepted := fun sendTime some => tracked.accepted sendTime (same.symm.trans some) }
  | dispatch phase room => exact tracked.dispatch phase room
  | @drop world loop index flight phase stands finished fails =>
      obtain ⟨nodup, capped, known, left⟩ := tracked.take stands
      have undecided : loop.phase.sendTime? = none := by rw [phase]; rfl
      refine { tracked with nodup, capped, known, drained := ?_, undecided := ?_, accepted := ?_ }
      · intro other member gone
        rcases left other gone with rfl | gone
        · exact finished
        · exact tracked.drained other member gone
      · intro _ other member gone
        rcases left other gone with rfl | gone
        · exact fails
        · exact tracked.undecided undecided other member gone
      · intro sendTime accepted
        rw [undecided] at accepted
        cases accepted
  | @accept world loop index flight phase stands finished passes =>
      obtain ⟨nodup, capped, known, left⟩ := tracked.take stands
      have undecided : loop.phase.sendTime? = none := by rw [phase]; rfl
      refine { tracked with nodup, capped, known, drained := ?_, undecided := ?_, accepted := ?_ }
      · intro other member gone
        rcases left other gone with rfl | gone
        · exact finished
        · exact tracked.drained other member gone
      · intro none
        cases none
      · intro sendTime accepted
        cases accepted
        have taken : flight ∉ swapRemove loop.inFlight index := by
          rw [mem_swapRemove tracked.nodup stands]
          exact fun left => left.2 rfl
        refine ⟨flight, tracked.known flight (List.mem_of_getElem? stands), taken, passes, rfl, ?_⟩
        intro other member gone
        rcases left other gone with same | gone
        · exact Or.inl same
        · exact Or.inr (tracked.undecided undecided other member gone)

/-- No more probes are outstanding than in flight. -/
theorem outstanding_le (tracked : Tracked call world loop) :
    (loop.dispatched.filter fun flight => !world.finished flight.number).length ≤ loop.inFlight.length := by
  have distinct : (loop.dispatched.filter fun flight => !world.finished flight.number).Nodup :=
    tracked.distinct.filter _
  have inside : (loop.dispatched.filter fun flight => !world.finished flight.number) ⊆ loop.inFlight := by
    intro flight member
    obtain ⟨member, running⟩ := List.mem_filter.mp member
    by_contra gone
    simp [tracked.drained flight member gone] at running
  exact (distinct.subperm inside).length_le

end ProbeLoop.Tracked

/-- The send times of the probes of a call that executed and validate as `Pass`. -/
def ProbeLoop.passingTimes (call : ProbeCall Value) (loop : ProbeLoop) : Set Nat :=
  {sendTime | ∃ flight ∈ loop.dispatched, call.passes flight = true ∧ flight.sendTime = sendTime}

/-- The accepted send time is the least one when no earlier probe that is still in flight passes. -/
theorem ProbeLoop.Tracked.isLeast_iff {call : ProbeCall Value} {world : World} {loop : ProbeLoop}
    (tracked : Tracked call world loop) {sendTime : Nat} (accepted : loop.phase.sendTime? = some sendTime) :
    IsLeast (loop.passingTimes call) sendTime ↔
      ∀ flight ∈ loop.inFlight, call.passes flight = true → sendTime ≤ flight.sendTime := by
  obtain ⟨first, member, -, passes, sent, others⟩ := tracked.accepted sendTime accepted
  constructor
  · intro least flight flying passing
    exact least.2 ⟨flight, tracked.known flight flying, passing, rfl⟩
  · intro later
    refine ⟨⟨first, member, passes, sent⟩, ?_⟩
    rintro _ ⟨flight, dispatched, passing, rfl⟩
    by_cases flying : flight ∈ loop.inFlight
    · exact later flight flying passing
    · rcases others flight dispatched flying with rfl | fails
      · exact sent.ge
      · rw [fails] at passing
        cases passing

/-- A drain that takes a finished probe which passes finds no earlier probe in flight that passes as well. -/
def inSendOrder (call : ProbeCall Value) (state : World × ProbeLoop) : ProbeAction → Bool
  | .proceed =>
      match state.2.phase with
      | .draining index =>
          match state.2.inFlight[index]? with
          | some flight => !(state.1.finished flight.number && call.passes flight) ||
              state.2.inFlight.all fun other => !call.passes other || flight.sendTime ≤ other.sendTime
          | none => true
      | _ => true
  | _ => true

/-- No probe that is still in flight passes with an earlier send time than the accepted one. -/
def ProbeLoop.Settled (call : ProbeCall Value) (loop : ProbeLoop) : Prop :=
  ∀ sendTime, loop.phase.sendTime? = some sendTime →
    ∀ flight ∈ loop.inFlight, call.passes flight = true → sendTime ≤ flight.sendTime

/-- A move that accepts a probe settles the loop when the drain is in send order, and only then. -/
theorem accept_settled_iff {call : ProbeCall Value} {world : World} {loop : ProbeLoop}
    (tracked : loop.Tracked call world) {index : Nat} {flight : ProbeFlight} (phase : loop.phase = .draining index)
    (stands : loop.inFlight[index]? = some flight) (finished : world.finished flight.number = true)
    (passes : call.passes flight = true) :
    (∀ other ∈ swapRemove loop.inFlight index, call.passes other = true → flight.sendTime ≤ other.sendTime) ↔
      inSendOrder call (world, loop) .proceed = true := by
  have taken (other : ProbeFlight) := mem_swapRemove tracked.nodup stands other
  simp only [inSendOrder, phase, stands, finished, passes, Bool.and_self, Bool.not_true, Bool.false_or,
    List.all_eq_true, Bool.or_eq_true, Bool.not_eq_true', decide_eq_true_eq]
  constructor
  · intro settled other member
    by_cases same : other = flight
    · subst same
      exact Or.inr le_rfl
    · by_cases passing : call.passes other = true
      · exact Or.inr (settled other ((taken other).mpr ⟨member, same⟩) passing)
      · exact Or.inl (Bool.eq_false_iff.mpr passing)
  · intro ordered other member passing
    have earlier := ordered other ((taken other).mp member).1
    rw [passing] at earlier
    exact earlier.resolve_left Bool.noConfusion

/-- A step in send order keeps the loop settled. -/
theorem ProbeLoop.Settled.move {call : ProbeCall Value} {state next : World × ProbeLoop} {action : ProbeAction}
    (settled : state.2.Settled call) (tracked : state.2.Tracked call state.1) (moved : ProbeMove call state action next)
    (ordered : inSendOrder call state action = true) : next.2.Settled call := by
  cases moved with
  | world counted later grows => exact settled
  | goto same => exact fun sendTime accepted => settled sendTime (same.symm.trans accepted)
  | @dispatch world loop phase room =>
      intro sendTime accepted
      rw [ProbeLoop.dispatch, if_pos room] at accepted
      cases accepted
  | @drop world loop index flight phase stands finished fails =>
      intro sendTime accepted
      have open' : loop.phase.sendTime? = some sendTime := accepted
      rw [phase] at open'
      cases open'
  | accept phase stands finished passes =>
      intro sendTime accepted
      cases accepted
      exact (accept_settled_iff tracked phase stands finished passes).mpr ordered

theorem tracked_of_reaches {call : ProbeCall Value} {world : World} {state : World × ProbeLoop}
    (reached : (probeMachine call).Reaches (world, .start) state) : state.2.Tracked call state.1 := by
  apply reached.invariant fun state => state.2.Tracked call state.1
  · intro before after tracked step
    obtain ⟨action, -, stepped⟩ := step
    exact tracked.move (probeStep_moves stepped)
  · exact .start call world

theorem settled_of_reachesWhen {call : ProbeCall Value} {world : World} {state : World × ProbeLoop}
    (reached : (probeMachine call).ReachesWhen (inSendOrder call) (world, .start) state) :
    state.2.Tracked call state.1 ∧ state.2.Settled call := by
  apply reached.invariant fun state => state.2.Tracked call state.1 ∧ state.2.Settled call
  · intro before after holds step
    obtain ⟨action, -, ordered, stepped⟩ := step
    have moved := probeStep_moves stepped
    exact ⟨holds.1.move moved, holds.2.move holds.1 moved ordered⟩
  · exact ⟨.start call world, fun sendTime accepted => nomatch accepted⟩

/-- The latency is that of the earliest passing probe while every drain is in send order; a drain out of order
accepts a later one. The cap holds in every run. -/
theorem earliest_passing_probe_when (call : ProbeCall Value) (world : World) :
    (∀ state, (probeMachine call).Reaches (world, .start) state →
      (state.2.dispatched.filter fun flight => !state.1.finished flight.number).length ≤ maxProbeInFlight) ∧
    (∀ state sendTime, (probeMachine call).ReachesWhen (inSendOrder call) (world, .start) state →
      state.2.phase = .returned (.passed sendTime) → IsLeast (state.2.passingTimes call) sendTime) ∧
    ∀ state next sendTime, (probeMachine call).Reaches (world, .start) state →
      state.2.phase.sendTime? = none → probeStep call state .proceed = some next →
      next.2.phase.sendTime? = some sendTime →
      (IsLeast (next.2.passingTimes call) sendTime ↔ inSendOrder call state .proceed = true) := by
  refine ⟨?_, ?_, ?_⟩
  · intro state reached
    have tracked := tracked_of_reaches reached
    exact tracked.outstanding_le.trans tracked.capped
  · intro state sendTime reached returned
    obtain ⟨tracked, settled⟩ := settled_of_reachesWhen reached
    have accepted : state.2.phase.sendTime? = some sendTime := by rw [returned]; rfl
    exact (tracked.isLeast_iff accepted).mpr (settled sendTime accepted)
  · intro state next sendTime reached undecided stepped accepted
    have tracked := tracked_of_reaches reached
    have moved := probeStep_moves stepped
    rw [(tracked.move moved).isLeast_iff accepted]
    cases moved with
    | world counted later grows =>
        rw [undecided] at accepted
        cases accepted
    | goto same =>
        have none := same.trans undecided
        exact absurd (none.symm.trans accepted) (nomatch ·)
    | @dispatch world loop phase room =>
        rw [ProbeLoop.dispatch, if_pos room] at accepted
        cases accepted
    | drop phase stands finished fails =>
        have none := undecided
        exact absurd (none.symm.trans accepted) (nomatch ·)
    | accept phase stands finished passes =>
        cases accepted
        exact accept_settled_iff tracked phase stands finished passes

/-- Two probes pass after a first one that fails; no batches are expected, and none are returned. -/
def sampleProbes : ProbeCall Nat where
  rendering := ⟨fun _ value => .ok (toString value), id, fun _ _ => false⟩
  probeExpected := []
  deadline := 100
  results number := if number = 0 then .failed else .executed []

def sampleWorld : World := ⟨0, false, 0, fun _ => false⟩

/-- A turn dispatches a probe five moments later and scans as many indexes as the drain looks at. -/
def sampleTurn (scans : Nat) : List ProbeAction :=
  [.world (.elapse 5), .proceed, .tick, .proceed] ++ List.replicate scans .proceed

/-- Each probe finishes before the next one but one is dispatched. -/
def answeredInTurn : List ProbeAction :=
  sampleTurn 2 ++ [.world (.finish 0)] ++ sampleTurn 3 ++ [.world (.finish 1)] ++ sampleTurn 1 ++
    [.world (.finish 2), .proceed, .proceed]

theorem earliest_passing_probe_when_in_turn :
    ∃ state, (probeMachine sampleProbes).runWhen (inSendOrder sampleProbes) (sampleWorld, .start) answeredInTurn =
      some state ∧ state.2.phase = .returned (.passed 10) ∧ IsLeast (state.2.passingTimes sampleProbes) 10 := by
  have seen : ((probeMachine sampleProbes).runWhen (inSendOrder sampleProbes) (sampleWorld, .start)
      answeredInTurn).map (fun state => state.2.phase) = some (.returned (.passed 10)) := by decide
  obtain ⟨state, ran, returned⟩ := Option.map_eq_some_iff.mp seen
  have reached := (probeMachine sampleProbes).reachesWhen_of_runWhen (fun _ _ => trivial) ran
  exact ⟨state, ran, returned, (earliest_passing_probe_when sampleProbes sampleWorld).2.1 state 10 reached returned⟩

/-- All three probes finish before the drain looks at them, and the last one takes the place of the first. -/
def answeredTogether : List ProbeAction :=
  sampleTurn 2 ++ sampleTurn 3 ++ [.world (.elapse 5), .proceed, .tick, .proceed, .world (.finish 0),
    .world (.finish 1), .world (.finish 2), .proceed, .proceed, .proceed, .proceed]

/-- The third probe is reported, although the second one passes as well and was sent five moments before. -/
theorem later_probe_is_reported :
    ∃ state, (probeMachine sampleProbes).run (sampleWorld, .start) answeredTogether = some state ∧
      state.2.phase = .returned (.passed 15) ∧ ¬ IsLeast (state.2.passingTimes sampleProbes) 15 := by
  have seen : ((probeMachine sampleProbes).run (sampleWorld, .start) answeredTogether).map
      (fun state => (state.2.phase, state.2.dispatched)) =
        some (.returned (.passed 15), [⟨0, 5⟩, ⟨1, 10⟩, ⟨2, 15⟩]) := by decide
  obtain ⟨state, ran, outcome⟩ := Option.map_eq_some_iff.mp seen
  have dispatched : state.2.dispatched = [⟨0, 5⟩, ⟨1, 10⟩, ⟨2, 15⟩] := congrArg Prod.snd outcome
  refine ⟨state, ran, congrArg Prod.fst outcome, ?_⟩
  intro least
  have earlier : 10 ∈ state.2.passingTimes sampleProbes := ⟨⟨1, 10⟩, by simp [dispatched], by decide, rfl⟩
  exact absurd (least.2 earlier) (by decide)

end Spicebench.Commands
