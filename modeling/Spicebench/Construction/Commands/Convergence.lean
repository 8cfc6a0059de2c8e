/-
This file embeds the validation of one checkpoint: row counts, probes, and the full query set.
-/

import Spicebench.Construction.Checkpointer
import Spicebench.Construction.Commands.Probe
import Spicebench.Construction.Duration
import Spicebench.Construction.SpiceTest

namespace Spicebench.Commands

open Library Validation
open SpiceTest (Query)

variable {Value : Type}

/-- A query fails, or it succeeds, and it may then return batches. -/
abbrev Execution (Value : Type) := Except String (Option (List (RecordBatch Value)))

/-- The arguments of a validation that begins at a moment, the parser that it rewrites queries with, and what the
executor makes of its probes. -/
structure CheckpointValidation (Value : Type) where
  rendering : Rendering Value
  queries : List Query
  expectedResults : String → Option (List (RecordBatch Value))
  expectedRowCounts : OrderedMap String Nat
  concurrency : Nat
  probePeriod : Nat
  maxWait : Nat
  checkpointPauseTime : Nat
  queryCatalogNamespace : Option String
  rewriteWithReferenceSchema : String → Query → Except String Query
  started : Nat
  probeResults : Nat → ProbeResult Value

/-- A validation that converges reports the latency of its probe. -/
inductive ValidationVerdict where
  | converged (e2eLatencyNanos : Nat)
  | timedOut
  | interrupted
  deriving DecidableEq, Repr

/-- The last moment, in nanoseconds, that an instant can stand for. -/
def instantMax : Nat := 2 ^ 63 * 1000000000 - 1

/-- The comparison of these results would fail although they are right. -/
def resultValidationSkip : List String := ["tpch_q6"]

/-- The first cell of the first batch is read as a number. -/
def extractRowCountFromBatches (rendering : Rendering Value) (batches : List (RecordBatch Value)) : Except String Nat :=
  match batches with
  | [] => .error "row count query returned no batches"
  | batch :: _ =>
      match batch.schema, (batch.column 0) with
      | [], _ => .error "row count query returned an empty result set"
      | _, [] => .error "row count query returned an empty result set"
      | field :: _, cell :: _ => do
          match ← arrayValueToString rendering field.dataType cell with
          | none => .error "row count query returned NULL"
          | some value =>
              match Checkpointer.parseUsize value.toList with
              | some count => .ok count
              | none => .error s!"failed to parse row count '{value}'"

namespace CheckpointValidation

variable (validation : CheckpointValidation Value)

def deadline : Nat := validation.started + validation.maxWait

/-- The second query of the scenario is probed. -/
def probeQuery? : Option Query := validation.queries[1]?

def probeExpected? : Option (List (RecordBatch Value)) :=
  validation.probeQuery?.bind fun query => validation.expectedResults query.name

def probeCall : ProbeCall Value :=
  ⟨validation.rendering, validation.probeExpected?.getD [], validation.deadline, validation.probeResults⟩

def checkpointCountQuery (tableName : String) : Except String Query :=
  let query : Query := ⟨s!"checkpoint_row_count_{tableName}", s!"SELECT COUNT(*) AS row_count FROM {tableName}"⟩
  match validation.queryCatalogNamespace.map fun namespace' => DurationParse.trim namespace'.toList with
  | some (first :: rest) => validation.rewriteWithReferenceSchema (.ofList (first :: rest)) query
  | _ => .ok query

/-- What the executor answers to the count of a table is the expected count; an unbuilt query is not executed. -/
def countMatches (tableName : String) (expectedCount : Nat) (answer : Execution Value) : Bool :=
  match validation.checkpointCountQuery tableName, answer with
  | .ok _, .ok (some batches) => extractRowCountFromBatches validation.rendering batches == .ok expectedCount
  | _, _ => false

/-- The result of one query of the full set is as it should be. -/
def queryPasses (query : Query) (answer : Execution Value) : Bool :=
  resultValidationSkip.contains query.name ||
    match answer with
    | .error _ => false
    | .ok batches =>
        match validation.expectedResults query.name with
        | some expected =>
            validateWithExpectedBatches validation.rendering (batches.getD []) expected == .ok .pass
        | none => true

def validateFullQuerySet (results : List (Query × Execution Value)) : Bool :=
  results.all fun result => validation.queryPasses result.1 result.2

end CheckpointValidation

/-- The validation enters, counts rows in rounds, probes, and executes the full query set. -/
inductive ValidationPhase (Value : Type) where
  | entering
  | roundAtDeadline
  | roundSelecting
  | counting (rest : List (String × Nat)) (answers : List (Execution Value))
  | probing (loop : ProbeLoop)
  | passed (sendTime : Nat)
  | validating (sendTime : Nat) (waiting running : List Query) (results : List (Query × Execution Value))
  | finished (result : ValidationVerdict)
  | panicked

/-- What has happened within a call, in order. -/
inductive ValidationEvent (Value : Type) where
  | rowCountsPassed (answers : List (Execution Value))
  | dispatched (flight : ProbeFlight)
  | validated (results : List (Query × Execution Value))

structure ValidationState (Value : Type) where
  world : World
  phase : ValidationPhase Value
  history : List (ValidationEvent Value)

/-- The executor answers the count of the next table, or one of the running queries. -/
inductive ValidationAction (Value : Type) where
  | world (action : WorldAction)
  | tick
  | proceed
  | count (answer : Execution Value)
  | launch
  | complete (index : Nat) (answer : Execution Value)

namespace ValidationState

def goto (state : ValidationState Value) (phase : ValidationPhase Value) : ValidationState Value := { state with phase }

def note (state : ValidationState Value) (event : ValidationEvent Value) : ValidationState Value :=
  { state with history := state.history ++ [event] }

/-- A step of the probe phase is a step of the validation, which notes the probes that it dispatches. -/
def probed (state : ValidationState Value) (before : ProbeLoop) (after : World × ProbeLoop) : ValidationState Value :=
  ⟨after.1, .probing after.2,
    state.history ++ (after.2.dispatched.drop before.dispatched.length).map ValidationEvent.dispatched⟩

end ValidationState

namespace CheckpointValidation

variable (validation : CheckpointValidation Value)

/-- No probe has been dispatched when the call begins. -/
def begins (cancelled : Bool) : ValidationState Value :=
  ⟨⟨validation.started, cancelled, 0, fun _ => false⟩, .entering, []⟩

/-- An instant that overflows, an index behind the queries and a ticker without a period panic. -/
def enter : ValidationPhase Value :=
  if instantMax < validation.deadline then .panicked
  else
    match validation.probeQuery? with
    | none => .panicked
    | some query =>
        match validation.expectedResults query.name with
        | none => .finished .timedOut
        | some _ => if validation.probePeriod = 0 then .panicked else .roundAtDeadline

/-- The latency is zero for a probe that was sent before the pause. -/
def verdict (state : ValidationState Value) (sendTime : Nat) (results : List (Query × Execution Value)) :
    ValidationState Value :=
  let noted := state.note (.validated results)
  if validation.validateFullQuerySet results then
    noted.goto (.finished (.converged (sendTime - validation.checkpointPauseTime)))
  else noted.goto (.probing .start)

def proceed (state : ValidationState Value) : Option (ValidationState Value) :=
  match state.phase with
  | .entering => some (state.goto validation.enter)
  | .roundAtDeadline =>
      if validation.deadline ≤ state.world.now then some (state.goto (.finished .timedOut))
      else some (state.goto .roundSelecting)
  | .roundSelecting => if state.world.cancelled then some (state.goto (.finished .interrupted)) else none
  | .counting [] answers => some ((state.note (.rowCountsPassed answers)).goto (.probing .start))
  | .counting (_ :: _) _ => none
  | .probing loop =>
      match loop.phase with
      | .returned (.passed sendTime) => some (state.goto (.passed sendTime))
      | .returned .timedOut => some (state.goto (.finished .timedOut))
      | .returned .interrupted => some (state.goto (.finished .interrupted))
      | _ => (loop.proceed validation.probeCall state.world).map (state.probed loop)
  | .passed sendTime =>
      if validation.deadline ≤ state.world.now then some (state.goto (.finished .timedOut))
      else some (state.goto (.validating sendTime validation.queries [] []))
  | .validating sendTime [] [] results => some (validation.verdict state sendTime results)
  | .validating _ _ _ _ => none
  | .finished _ => none
  | .panicked => none

/-- At most as many queries run as the concurrency allows, and they complete in any order. -/
def step (state : ValidationState Value) : ValidationAction Value → Option (ValidationState Value)
  | .world action => (state.world.step action).map fun world => { state with world }
  | .tick =>
      match state.phase with
      | .roundSelecting =>
          if state.world.cancelled then none else some (state.goto (.counting validation.expectedRowCounts.entries []))
      | .probing loop => (loop.tick state.world).map (state.probed loop)
      | _ => none
  | .proceed => validation.proceed state
  | .count answer =>
      match state.phase with
      | .counting ((tableName, expectedCount) :: rest) answers =>
          if validation.countMatches tableName expectedCount answer then
            some (state.goto (.counting rest (answers ++ [answer])))
          else some (state.goto .roundAtDeadline)
      | _ => none
  | .launch =>
      match state.phase with
      | .validating sendTime (query :: waiting) running results =>
          if running.length < validation.concurrency then
            some (state.goto (.validating sendTime waiting (running ++ [query]) results))
          else none
      | _ => none
  | .complete index answer =>
      match state.phase with
      | .validating sendTime waiting running results =>
          running[index]?.map fun query =>
            state.goto (.validating sendTime waiting (running.eraseIdx index) (results ++ [(query, answer)]))
      | _ => none

/-- `run_checkpoint_validation` as a machine. -/
def machine : Machine (ValidationState Value) (ValidationAction Value) := ⟨validation.step, fun _ => True⟩

end CheckpointValidation

end Spicebench.Commands
