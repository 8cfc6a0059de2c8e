import Spicebench.Construction.Commands.Convergence
import Spicebench.Proof.Commands.Probe

namespace Spicebench.Commands

open Library Validation
open SpiceTest (Query)

variable {Value : Type}

/-- Each move only lets time pass, and it dispatches probes that carry the moment of the move. -/
theorem ProbeMove.sent {call : ProbeCall Value} {state next : World × ProbeLoop} {action : ProbeAction}
    (moved : ProbeMove call state action next) :
    state.1.now ≤ next.1.now ∧ ∃ fresh : List ProbeFlight, next.2.dispatched = state.2.dispatched ++ fresh ∧
      ∀ flight ∈ fresh, flight.sendTime = state.1.now := by
  cases moved with
  | world counted later grows => exact ⟨later, [], (List.append_nil _).symm, by simp⟩
  | goto same => exact ⟨le_rfl, [], (List.append_nil _).symm, by simp⟩
  | @dispatch world loop phase room =>
      rw [ProbeLoop.dispatch, if_pos room]
      exact ⟨le_rfl, [⟨world.probeCount, world.now⟩], rfl, by simp⟩
  | drop phase stands finished fails => exact ⟨le_rfl, [], (List.append_nil _).symm, by simp⟩
  | accept phase stands finished passes => exact ⟨le_rfl, [], (List.append_nil _).symm, by simp⟩

/-- The probe was dispatched, and no full validation has ended since. -/
def RecentDispatch (history : List (ValidationEvent Value)) (flight : ProbeFlight) : Prop :=
  ∃ before since, history = before ++ .dispatched flight :: since ∧ ∀ results, .validated results ∉ since

namespace RecentDispatch

theorem extend {history : List (ValidationEvent Value)} {flight : ProbeFlight} (recent : RecentDispatch history flight)
    (fresh : List ProbeFlight) : RecentDispatch (history ++ fresh.map .dispatched) flight := by
  obtain ⟨before, since, rfl, open'⟩ := recent
  refine ⟨before, since ++ fresh.map .dispatched, by simp, ?_⟩
  intro results member
  rcases List.mem_append.mp member with earlier | later
  · exact open' results earlier
  · obtain ⟨flight, -, same⟩ := List.mem_map.mp later
    cases same

theorem dispatched {history : List (ValidationEvent Value)} {flight : ProbeFlight} {fresh : List ProbeFlight}
    (member : flight ∈ fresh) : RecentDispatch (history ++ fresh.map .dispatched) flight := by
  obtain ⟨before, after, rfl⟩ := List.append_of_mem member
  refine ⟨history ++ before.map .dispatched, after.map .dispatched, by simp, ?_⟩
  intro results later
  obtain ⟨flight, -, same⟩ := List.mem_map.mp later
  cases same

end RecentDispatch

namespace CheckpointValidation

variable (validation : CheckpointValidation Value)

/-- In one round, the answer to the count of each expected table was its expected count. -/
def RowsPassed (history : List (ValidationEvent Value)) : Prop :=
  ∃ answers, .rowCountsPassed answers ∈ history ∧
    List.Forall₂ (fun entry answer => validation.countMatches entry.1 entry.2 answer = true)
      validation.expectedRowCounts.entries answers

/-- A probe of this call with this send time executed and validates as `Pass`. -/
structure PassingProbe (world : World) (sendTime : Nat) (flight : ProbeFlight) : Prop where
  passes : validation.probeCall.passes flight = true
  finished : world.finished flight.number = true
  sent : flight.sendTime = sendTime
  begun : validation.started ≤ sendTime

/-- The result of a query outside the skip list is no error, and it is the expected one if one is expected. -/
def Right (query : Query) (answer : Execution Value) : Prop :=
  query.name ∉ resultValidationSkip →
    ∃ batches, answer = .ok batches ∧ ∀ expected, validation.expectedResults query.name = some expected →
      validateWithExpectedBatches validation.rendering (batches.getD []) expected = .ok .pass

/-- A round of row counts has passed, then a probe, and after the probe was sent only the last full validation,
which was right about every query, has ended. -/
def Converged (world : World) (history : List (ValidationEvent Value)) (latency : Nat) : Prop :=
  validation.RowsPassed history ∧
    ∃ before since flight results, history = before ++ .dispatched flight :: since ++ [.validated results] ∧
      (∀ other, .validated other ∉ since) ∧ validation.PassingProbe world flight.sendTime flight ∧
      latency = flight.sendTime - validation.checkpointPauseTime ∧
      (results.map Prod.fst).Perm validation.queries ∧ ∀ result ∈ results, validation.Right result.1 result.2

/-- The second query exists, the deadline is an instant, and the ticker has a period if it is made. -/
def Enters : Prop :=
  2 ≤ validation.queries.length ∧ validation.deadline ≤ instantMax ∧
    (validation.probeExpected?.isSome → 0 < validation.probePeriod)

theorem queryPasses_right {query : Query} {answer : Execution Value}
    (passes : validation.queryPasses query answer = true) : validation.Right query answer := by
  intro checked
  have named : resultValidationSkip.contains query.name = false := by
    simpa [List.contains_iff_mem] using checked
  unfold queryPasses at passes
  rw [named, Bool.false_or] at passes
  cases answer with
  | error message => cases passes
  | ok batches =>
      refine ⟨batches, rfl, ?_⟩
      intro expected listed
      simpa only [listed, beq_iff_eq] using passes

theorem probeQuery_isSome_iff : validation.probeQuery?.isSome ↔ 2 ≤ validation.queries.length := by
  simp only [probeQuery?, Option.isSome_iff_ne_none, ne_eq, List.getElem?_eq_none_iff]
  omega

/-- The call panics when it enters with an argument that it does not expect, and only then. -/
theorem enter_panics_iff : validation.enter = .panicked ↔ ¬ validation.Enters := by
  have second := validation.probeQuery_isSome_iff
  unfold enter Enters
  by_cases overflows : instantMax < validation.deadline
  · simp only [overflows, if_true, true_iff]
    intro enters
    exact absurd enters.2.1 (not_le.mpr overflows)
  · have fits : validation.deadline ≤ instantMax := not_lt.mp overflows
    rw [if_neg overflows]
    cases found : validation.probeQuery? with
    | none =>
        have short : ¬ 2 ≤ validation.queries.length := by simp [← second, found]
        simp [short]
    | some query =>
        have long : 2 ≤ validation.queries.length := by simp [← second, found]
        cases listed : validation.expectedResults query.name with
        | none => simp [probeExpected?, found, listed, long, fits]
        | some expected =>
            by_cases zero : validation.probePeriod = 0
            · simp [probeExpected?, found, listed, zero]
            · simp [probeExpected?, found, listed, zero, long, fits, Nat.pos_of_ne_zero]

/-- What the phase has shown so far. -/
def Shown (world : World) (history : List (ValidationEvent Value)) : ValidationPhase Value → Prop
  | .entering => True
  | .roundAtDeadline => True
  | .roundSelecting => True
  | .counting rest answers => ∃ counted, validation.expectedRowCounts.entries = counted ++ rest ∧
      List.Forall₂ (fun entry answer => validation.countMatches entry.1 entry.2 answer = true) counted answers
  | .probing loop => validation.RowsPassed history ∧ loop.Tracked validation.probeCall world ∧
      ∀ flight ∈ loop.dispatched, RecentDispatch history flight ∧ validation.started ≤ flight.sendTime
  | .passed sendTime => validation.RowsPassed history ∧
      ∃ flight, RecentDispatch history flight ∧ validation.PassingProbe world sendTime flight
  | .validating sendTime waiting running results => validation.RowsPassed history ∧
      (∃ flight, RecentDispatch history flight ∧ validation.PassingProbe world sendTime flight) ∧
      (waiting ++ running ++ results.map Prod.fst).Perm validation.queries
  | .finished (.converged latency) => validation.Converged world history latency
  | .finished _ => True
  | .panicked => ¬ validation.Enters

variable {validation} {world next : World} {history : List (ValidationEvent Value)}

theorem PassingProbe.grow {sendTime : Nat} {flight : ProbeFlight}
    (passing : validation.PassingProbe world sendTime flight)
    (grows : ∀ number, world.finished number = true → next.finished number = true) :
    validation.PassingProbe next sendTime flight :=
  { passing with finished := grows _ passing.finished }

/-- The surroundings take nothing back of what has been shown. -/
theorem Shown.mono {phase : ValidationPhase Value} (shown : validation.Shown world history phase)
    (counted : next.probeCount = world.probeCount) (later : world.now ≤ next.now)
    (grows : ∀ number, world.finished number = true → next.finished number = true) :
    validation.Shown next history phase := by
  cases phase with
  | probing loop =>
      obtain ⟨rows, tracked, recent⟩ := shown
      have moved : ProbeMove validation.probeCall (world, loop) .tick (next, loop) := .world counted later grows
      exact ⟨rows, tracked.move moved, recent⟩
  | passed sendTime =>
      obtain ⟨rows, flight, recent, passing⟩ := shown
      exact ⟨rows, flight, recent, passing.grow grows⟩
  | validating sendTime waiting running results =>
      obtain ⟨rows, ⟨flight, recent, passing⟩, perm⟩ := shown
      exact ⟨rows, ⟨flight, recent, passing.grow grows⟩, perm⟩
  | finished result =>
      cases result with
      | converged latency =>
          obtain ⟨rows, before, since, flight, results, split, open', passing, rest⟩ := shown
          exact ⟨rows, before, since, flight, results, split, open', passing.grow grows, rest⟩
      | timedOut => trivial
      | interrupted => trivial
  | entering => trivial
  | roundAtDeadline => trivial
  | roundSelecting => trivial
  | counting rest answers => exact shown
  | panicked => exact shown

theorem Shown.enter : validation.Shown world history validation.enter := by
  by_cases panics : validation.enter = .panicked
  · rw [panics]
    exact validation.enter_panics_iff.mp panics
  · unfold CheckpointValidation.enter at panics ⊢
    split
    · simp_all
    · split
      · simp_all
      · split
        · trivial
        · split
          · simp_all
          · trivial

theorem RowsPassed.append {more : List (ValidationEvent Value)} (rows : validation.RowsPassed history) :
    validation.RowsPassed (history ++ more) := by
  obtain ⟨answers, member, matched⟩ := rows
  exact ⟨answers, List.mem_append_left _ member, matched⟩

/-- A round that has answered for every table lets the probes begin. -/
theorem Shown.rowCountsPassed {answers : List (Execution Value)}
    (shown : validation.Shown world history (.counting [] answers)) :
    validation.Shown world (history ++ [.rowCountsPassed answers]) (.probing .start) := by
  obtain ⟨counted, entries, matched⟩ := shown
  rw [List.append_nil] at entries
  refine ⟨⟨answers, by simp, entries ▸ matched⟩, .start _ _, ?_⟩
  intro flight member
  cases member

/-- A move of the probe phase notes the probes that it dispatches. -/
theorem Shown.probed {loop after : ProbeLoop} {action : ProbeAction}
    (shown : validation.Shown world history (.probing loop)) (begun : validation.started ≤ world.now)
    (moved : ProbeMove validation.probeCall (world, loop) action (next, after)) :
    validation.Shown next
      (history ++ (after.dispatched.drop loop.dispatched.length).map .dispatched) (.probing after) := by
  obtain ⟨rows, tracked, recent⟩ := shown
  obtain ⟨later, fresh, grown, sent⟩ := moved.sent
  have noted : after.dispatched.drop loop.dispatched.length = fresh := by
    show List.drop _ (next, after).2.dispatched = fresh
    rw [grown]
    exact List.drop_left
  refine ⟨rows.append, tracked.move moved, ?_⟩
  intro flight member
  rw [noted]
  have split : flight ∈ loop.dispatched ++ fresh := grown ▸ member
  rcases List.mem_append.mp split with earlier | new
  · exact ⟨(recent flight earlier).1.extend fresh, (recent flight earlier).2⟩
  · exact ⟨.dispatched new, begun.trans (sent flight new).ge⟩

/-- A loop that returns a send time has accepted a probe of that time. -/
theorem Shown.passed {loop : ProbeLoop} {sendTime : Nat} (shown : validation.Shown world history (.probing loop))
    (returned : loop.phase = .returned (.passed sendTime)) : validation.Shown world history (.passed sendTime) := by
  obtain ⟨rows, tracked, recent⟩ := shown
  obtain ⟨flight, dispatched, taken, passes, rfl, -⟩ := tracked.accepted sendTime (by rw [returned]; rfl)
  obtain ⟨recent, begun⟩ := recent flight dispatched
  exact ⟨rows, flight, recent, passes, tracked.drained flight dispatched taken, rfl, begun⟩

/-- The verdict converges on results that are right, and everything else probes again. -/
theorem Shown.verdict {state : ValidationState Value} {sendTime : Nat} {results : List (Query × Execution Value)}
    (shown : validation.Shown state.world state.history (.validating sendTime [] [] results)) :
    validation.Shown (validation.verdict state sendTime results).world
      (validation.verdict state sendTime results).history (validation.verdict state sendTime results).phase := by
  obtain ⟨rows, ⟨flight, ⟨before, since, history, open'⟩, passing⟩, perm⟩ := shown
  unfold CheckpointValidation.verdict
  split
  · rename_i valid
    rw [validateFullQuerySet, List.all_eq_true] at valid
    obtain rfl := passing.sent
    refine ⟨rows.append, before, since, flight, results, ?_, open', passing, rfl, by simpa using perm, ?_⟩
    · simp [ValidationState.goto, ValidationState.note, history]
    · exact fun result member => validation.queryPasses_right (valid result member)
  · refine ⟨rows.append, .start _ _, ?_⟩
    intro flight member
    cases member

/-- A step of the validation itself keeps what has been shown. -/
theorem Shown.proceed {state after : ValidationState Value} (begun : validation.started ≤ state.world.now)
    (shown : validation.Shown state.world state.history state.phase)
    (stepped : validation.proceed state = some after) :
    validation.started ≤ after.world.now ∧ validation.Shown after.world after.history after.phase := by
  obtain ⟨world, phase, history⟩ := state
  cases phase with
  | entering =>
      cases stepped
      exact ⟨begun, .enter⟩
  | roundAtDeadline =>
      simp only [CheckpointValidation.proceed] at stepped
      split at stepped
      all_goals
        cases stepped
        exact ⟨begun, trivial⟩
  | roundSelecting =>
      obtain ⟨-, stepped⟩ := Option.ite_none_right_eq_some.mp stepped
      cases stepped
      exact ⟨begun, trivial⟩
  | counting rest answers =>
      cases rest with
      | nil =>
          cases stepped
          exact ⟨begun, shown.rowCountsPassed⟩
      | cons entry rest => cases stepped
  | probing loop =>
      simp only [CheckpointValidation.proceed] at stepped
      split at stepped
      case h_1 sendTime returned =>
        cases stepped
        exact ⟨begun, shown.passed returned⟩
      case h_2 =>
        cases stepped
        exact ⟨begun, trivial⟩
      case h_3 =>
        cases stepped
        exact ⟨begun, trivial⟩
      case h_4 =>
        obtain ⟨⟨next, loop'⟩, proceeded, rfl⟩ := Option.map_eq_some_iff.mp stepped
        have moved := ProbeLoop.proceed_moves proceeded
        exact ⟨begun.trans moved.sent.1, shown.probed begun moved⟩
  | passed sendTime =>
      simp only [CheckpointValidation.proceed] at stepped
      split at stepped
      · cases stepped
        exact ⟨begun, trivial⟩
      · cases stepped
        exact ⟨begun, shown.1, shown.2, by simp⟩
  | validating sendTime waiting running results =>
      cases waiting with
      | nil =>
          cases running with
          | nil =>
              cases stepped
              refine ⟨?_, shown.verdict⟩
              unfold CheckpointValidation.verdict
              split
              · exact begun
              · exact begun
          | cons query running => cases stepped
      | cons query waiting => cases stepped
  | finished result => cases stepped
  | panicked => cases stepped

/-- Every step keeps what has been shown. -/
theorem Shown.step {state after : ValidationState Value} {action : ValidationAction Value}
    (begun : validation.started ≤ state.world.now)
    (shown : validation.Shown state.world state.history state.phase)
    (stepped : validation.step state action = some after) :
    validation.started ≤ after.world.now ∧ validation.Shown after.world after.history after.phase := by
  cases action with
  | world action =>
      obtain ⟨world, moved, rfl⟩ := Option.map_eq_some_iff.mp stepped
      obtain ⟨counted, later, grows⟩ := World.step_grows moved
      exact ⟨begun.trans later, shown.mono counted later grows⟩
  | proceed => exact shown.proceed begun stepped
  | tick =>
      simp only [CheckpointValidation.step] at stepped
      split at stepped
      case h_1 phase =>
        obtain ⟨-, stepped⟩ := Option.ite_none_left_eq_some.mp stepped
        cases stepped
        exact ⟨begun, [], rfl, .nil⟩
      case h_2 loop phase =>
        obtain ⟨⟨world, loop'⟩, ticked, rfl⟩ := Option.map_eq_some_iff.mp stepped
        have moved : ProbeMove validation.probeCall (state.world, loop) .tick (world, loop') := probeStep_moves ticked
        rw [phase] at shown
        exact ⟨begun.trans moved.sent.1, shown.probed begun moved⟩
      case h_3 => cases stepped
  | count answer =>
      simp only [CheckpointValidation.step] at stepped
      split at stepped
      case h_1 tableName expectedCount rest answers phase =>
        split at stepped
        · rename_i matched
          cases stepped
          rw [phase] at shown
          obtain ⟨counted, entries, each⟩ := shown
          refine ⟨begun, counted ++ [(tableName, expectedCount)], by simpa using entries, ?_⟩
          exact List.rel_append each (.cons matched .nil)
        · cases stepped
          exact ⟨begun, trivial⟩
      case h_2 => cases stepped
  | launch =>
      simp only [CheckpointValidation.step] at stepped
      split at stepped
      case h_1 sendTime query waiting running results phase =>
        obtain ⟨-, stepped⟩ := Option.ite_none_right_eq_some.mp stepped
        cases stepped
        rw [phase] at shown
        obtain ⟨rows, probe, perm⟩ := shown
        refine ⟨begun, rows, probe, ?_⟩
        have launched : (waiting ++ (running ++ [query]) ++ results.map Prod.fst).Perm
            (query :: waiting ++ running ++ results.map Prod.fst) := by
          rw [← List.append_assoc]
          exact (List.perm_append_singleton query (waiting ++ running)).append_right _
        exact launched.trans perm
      case h_2 => cases stepped
  | complete index answer =>
      simp only [CheckpointValidation.step] at stepped
      split at stepped
      case h_1 sendTime waiting running results phase =>
        obtain ⟨query, stands, rfl⟩ := Option.map_eq_some_iff.mp stepped
        rw [phase] at shown
        obtain ⟨rows, probe, perm⟩ := shown
        refine ⟨begun, rows, probe, ?_⟩
        obtain ⟨inside, stands⟩ := List.getElem?_eq_some_iff.mp stands
        have taken : (query :: running.eraseIdx index).Perm running :=
          stands ▸ List.getElem_cons_eraseIdx_perm inside
        have completed : (waiting ++ running.eraseIdx index ++ (results ++ [(query, answer)]).map Prod.fst).Perm
            (waiting ++ running ++ results.map Prod.fst) := by
          grind
        exact completed.trans perm
      case h_2 => cases stepped

theorem shown_of_reaches {cancelled : Bool} {state : ValidationState Value}
    (reached : validation.machine.Reaches (validation.begins cancelled) state) :
    validation.Shown state.world state.history state.phase := by
  have both : validation.started ≤ state.world.now ∧ validation.Shown state.world state.history state.phase := by
    apply reached.invariant fun state =>
      validation.started ≤ state.world.now ∧ validation.Shown state.world state.history state.phase
    · intro before after holds step
      obtain ⟨action, -, stepped⟩ := step
      exact holds.2.step holds.1 stepped
    · exact ⟨le_rfl, trivial⟩
  exact both.2

/-- A validation that enters with the arguments that it expects never panics and converges for a reason; with
other arguments it panics. -/
theorem convergence_sound_iff (validation : CheckpointValidation Value) (cancelled : Bool) :
    (∀ state, validation.machine.Reaches (validation.begins cancelled) state →
      state.phase ≠ .panicked ∧ ∀ latency, state.phase = .finished (.converged latency) →
        validation.Converged state.world state.history latency) ↔ validation.Enters := by
  constructor
  · intro sound
    by_contra unexpected
    have stepped : validation.machine.Step (validation.begins cancelled)
        ((validation.begins cancelled).goto validation.enter) := ⟨.proceed, trivial, rfl⟩
    have entered := (sound _ (.single stepped)).1
    exact entered (validation.enter_panics_iff.mpr unexpected)
  · intro enters state reached
    have shown := shown_of_reaches reached
    constructor
    · intro panicked
      rw [panicked] at shown
      exact shown enters
    · intro latency converged
      rw [converged] at shown
      exact shown

/-- One table is counted, and the results of the second query are expected to be empty. -/
def sampleValidation (queries : List Query) : CheckpointValidation Nat where
  rendering := ⟨fun _ value => .ok (toString value), id, fun _ _ => false⟩
  queries := queries
  expectedResults name := if name = "q2" then some [] else none
  expectedRowCounts := ⟨[("t", 3)], List.pairwise_singleton _ _⟩
  concurrency := 2
  probePeriod := 5
  maxWait := 100
  checkpointPauseTime := 10
  queryCatalogNamespace := none
  rewriteWithReferenceSchema _ query := .ok query
  started := 20
  probeResults _ := .executed []

/-- A count comes as a batch of one cell. -/
def sampleCount (count : Nat) : RecordBatch Nat :=
  ⟨[⟨"row_count", .int64⟩], 1, [[some count]], rfl, by simp⟩

/-- The first round of row counts fails, the second one passes, and so do the first probe and the queries. -/
def convergingRun : List (ValidationAction Nat) :=
  [.proceed, .proceed, .tick, .count (.ok (some [sampleCount 2])), .proceed, .tick,
    .count (.ok (some [sampleCount 3])), .proceed, .world (.elapse 5), .proceed, .tick, .proceed, .world (.finish 0),
    .proceed, .proceed, .proceed, .proceed, .launch, .launch, .complete 1 (.ok (some [])), .complete 0 (.ok none),
    .proceed]

theorem convergence_sound_iff_sample :
    ∃ state, (sampleValidation [⟨"q1", "SELECT 1"⟩, ⟨"q2", "SELECT 2"⟩]).machine.run
        ((sampleValidation [⟨"q1", "SELECT 1"⟩, ⟨"q2", "SELECT 2"⟩]).begins false) convergingRun = some state ∧
      (sampleValidation [⟨"q1", "SELECT 1"⟩, ⟨"q2", "SELECT 2"⟩]).Converged state.world state.history 15 := by
  have seen : ((sampleValidation [⟨"q1", "SELECT 1"⟩, ⟨"q2", "SELECT 2"⟩]).machine.run
      ((sampleValidation [⟨"q1", "SELECT 1"⟩, ⟨"q2", "SELECT 2"⟩]).begins false) convergingRun).map
        (fun state => match state.phase with
          | .finished result => some result
          | _ => none) = some (some (.converged 15)) := by decide
  obtain ⟨state, ran, outcome⟩ := Option.map_eq_some_iff.mp seen
  have finished : state.phase = .finished (.converged 15) := by
    split at outcome
    · rename_i result phase
      rw [phase, Option.some.inj outcome]
    · cases outcome
  have sound := (convergence_sound_iff (sampleValidation [⟨"q1", "SELECT 1"⟩, ⟨"q2", "SELECT 2"⟩]) false).mpr
    ⟨by decide, by decide, fun _ => by decide⟩
  have reached := (sampleValidation [⟨"q1", "SELECT 1"⟩, ⟨"q2", "SELECT 2"⟩]).machine.reaches_of_run
    (fun _ _ => trivial) ran
  exact ⟨state, ran, (sound state reached).2 15 finished⟩

/-- A scenario of one query has no second query to probe. -/
theorem one_query_panics :
    ∃ state, (sampleValidation [⟨"q1", "SELECT 1"⟩]).machine.Reaches
        ((sampleValidation [⟨"q1", "SELECT 1"⟩]).begins false) state ∧ state.phase = .panicked :=
  ⟨_, .single ⟨.proceed, trivial, rfl⟩, rfl⟩

end CheckpointValidation

end Spicebench.Commands
