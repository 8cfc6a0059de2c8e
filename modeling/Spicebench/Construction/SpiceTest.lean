/-
This file embeds the query workers of a test, the cancellation of a test, and the merge of the results
of its workers.
-/

import Spicebench.Construction.Commands.Run
import Spicebench.Library.Machine
import Spicebench.Library.OrderedMap
import Mathlib.Data.List.Perm.Basic
import Mathlib.Data.String.Basic

namespace Spicebench.SpiceTest

open Library Commands

structure Query where
  name : String
  sql : String
  deriving DecidableEq, Repr

inductive QueryStatus where
  | passed
  | failed (message : Option String)
  deriving DecidableEq, Repr

def QueryStatus.isFailed : QueryStatus → Bool
  | .passed => false
  | .failed _ => true

inductive EndCondition where
  | duration
  | querySetCompleted (count : Nat)
  | unlimited
  deriving DecidableEq, Repr

/-- `explainPlanSnapshot` says that the first worker records explain plans with a flight client, and
`groupOrder` is the order in which a worker's map of query groups yields their names. -/
structure Test where
  querySet : List Query
  endCondition : EndCondition
  parallelCount : Nat
  validate : Bool
  explainPlanSnapshot : Bool
  groupOrder : Nat → List String

/-- An execution completes, or it fails with an error of the connection or with another one. -/
inductive Execution where
  | completed
  | failed (message : String)
  | unreachable (message : String)
  deriving DecidableEq, Repr

structure QueryRunResult where
  connectionFailed : Bool
  queryFailure : Option String
  shutdown : Bool
  deriving DecidableEq, Repr

/-- An error is set aside when the test was cancelled. -/
def runSingleQuery (cancelled : Bool) : Execution → QueryRunResult
  | .completed => ⟨false, none, false⟩
  | .failed message => if cancelled then ⟨false, none, true⟩ else ⟨false, some message, false⟩
  | .unreachable _ => if cancelled then ⟨false, none, true⟩ else ⟨true, none, false⟩

structure SpiceTestQueryWorkerResult where
  queryStatuses : OrderedMap String QueryStatus
  connectionFailed : Bool

/-- The first group whose size differs from that of the first one. -/
def unevenGroup (groups : List (String × List Query)) : Option (String × Nat × Nat) :=
  match groups with
  | [] => none
  | first :: rest =>
      (rest.find? fun group => group.2.length ≠ first.2.length).map fun group =>
        (group.1, group.2.length, first.2.length)

/-- One query set for each variation of the parameters holds one query of each name. -/
def buildUniqueQuerySets (order : List String) (queries : List Query) : Except String (List (List Query)) :=
  let groups := order.map fun name => (name, queries.filter (·.name = name))
  match unevenGroup groups with
  | some (name, groupSize, expected) => .error ( s!"Uneven parameter groups detected: query '{name}' has " ++
      s!"{groupSize} parameters, expected {expected}")
  | none =>
      let numVariations := (groups.head?.map (·.2.length)).getD 0
      .ok ((List.range numVariations).map fun paramIndex => groups.filterMap (·.2[paramIndex]?))

/-- A worker is at the head of one of its loops, or a query is being executed. -/
inductive Phase where
  | iterating (querySetCount : Nat)
  | inSet (querySetCount : Nat) (queries : List Query)
  | executing (querySetCount : Nat) (query : Query) (rest : List Query)
  | leaving
  | between (queries : List Query)
  | warmingUp (query : Query) (rest : List Query)
  | counting (query : Query) (rest : List Query) (count : Nat) (status : QueryStatus)
  | measuring (query : Query) (rest : List Query) (count : Nat) (status : QueryStatus)
  | finished (result : Except String SpiceTestQueryWorkerResult)

/-- `failures` lists the queries whose executions the worker saw fail, and `refused` tells whether its
connection has failed; the source keeps neither. -/
structure Worker where
  phase : Phase
  queryStatuses : OrderedMap String QueryStatus
  failures : List String
  refused : Bool

namespace Worker

variable (worker : Worker)

def moveTo (phase : Phase) : Worker := { worker with phase }

def finish (connectionFailed : Bool) : Worker :=
  worker.moveTo (.finished (.ok ⟨worker.queryStatuses, connectionFailed⟩))

/-- What the worker sees of an execution. -/
def observe (query : Query) (result : QueryRunResult) : Worker :=
  { worker with
    failures := if result.queryFailure.isSome then worker.failures ++ [query.name] else worker.failures
    refused := worker.refused || result.connectionFailed }

/-- A failure replaces the status of a query, and a pass only fills a gap. -/
def updateStatus (query : Query) (status : QueryStatus) : Worker :=
  { worker with queryStatuses := worker.queryStatuses.alter query.name fun
      | some existing => some (if status.isFailed then status else existing)
      | none => some status }

def insertStatus (query : Query) (status : QueryStatus) : Worker :=
  { worker with queryStatuses := worker.queryStatuses.alter query.name fun _ => some status }

end Worker

/-- What a step of a worker meets: the clock, an execution, and the record of an explain plan. -/
structure Answers where
  timeIsUp : Bool
  execution : Execution
  explained : Bool

def statusOf : Option String → QueryStatus
  | some failure => .failed (some failure)
  | none => .passed

namespace Test

variable (test : Test)

def isMet (timeIsUp : Bool) (querySetCount : Nat) : Bool :=
  match test.endCondition with
  | .duration => timeIsUp
  | .querySetCompleted count => count ≤ querySetCount
  | .unlimited => false

def targetCount : Nat :=
  match test.endCondition with
  | .querySetCompleted count => count
  | _ => 0

def querySets (id : Nat) : Except String (List (List Query)) :=
  buildUniqueQuerySets (test.groupOrder id) test.querySet

/-- The set that the worker runs in this iteration. -/
def queriesToRun (id querySetCount : Nat) : List Query :=
  match test.querySets id with
  | .ok sets => (sets[querySetCount % sets.length]?).getD []
  | .error _ => []

def startPhase (id : Nat) : Phase :=
  match test.querySets id with
  | .error message => .finished (.error message)
  | .ok _ =>
      match test.endCondition with
      | .querySetCompleted _ => .between test.querySet
      | _ => .iterating 0

/-- One step of a worker from one place where it reads the token to the next. -/
def workerStep (cancelled : Bool) (id : Nat) (worker : Worker) (answers : Answers) : Option Worker :=
  let result := runSingleQuery cancelled answers.execution
  match worker.phase with
  | .iterating querySetCount =>
      if cancelled || test.isMet answers.timeIsUp querySetCount then some (worker.finish false)
      else some (worker.moveTo (.inSet querySetCount (test.queriesToRun id querySetCount)))
  | .inSet querySetCount [] => some (worker.moveTo (.iterating (querySetCount + 1)))
  | .inSet querySetCount (query :: rest) =>
      if cancelled then some (worker.moveTo .leaving)
      else some (worker.moveTo (.executing querySetCount query rest))
  | .executing querySetCount query rest =>
      if result.shutdown || result.connectionFailed then some ((worker.observe query result).moveTo .leaving)
      else some (((worker.observe query result).updateStatus query (statusOf result.queryFailure)).moveTo
        (.inSet querySetCount rest))
  | .leaving => some (worker.finish (!cancelled))
  | .between [] => some (worker.finish false)
  | .between (query :: rest) =>
      if cancelled then some (worker.finish false)
      else if test.validate && "simple".toList <:+: query.name.toList then some (worker.moveTo (.between rest))
      else some (worker.moveTo (.warmingUp query rest))
  | .warmingUp query rest =>
      if result.shutdown then some (worker.finish false)
      else if result.connectionFailed then some ((worker.observe query result).finish true)
      else
        let status := if test.explainPlanSnapshot && id = 0 && !answers.explained then
          .failed (some "Explain plan snapshot assertion failed") else .passed
        some ((worker.observe query result).moveTo (.counting query rest 0 status))
  | .counting query rest count status =>
      if count < test.targetCount ∧ ¬ cancelled then some (worker.moveTo (.measuring query rest count status))
      else some ((worker.insertStatus query status).moveTo (.between rest))
  | .measuring query rest count status =>
      if result.shutdown then some ((worker.insertStatus query status).moveTo (.between rest))
      else if result.connectionFailed then some ((worker.observe query result).finish true)
      else
        let status := match result.queryFailure with
          | some failure => .failed (some failure)
          | none => status
        some ((worker.observe query result).moveTo (.counting query rest (count + 1) status))
  | .finished _ => none

end Test

structure State where
  cancelled : Bool
  workers : List Worker

inductive Action where
  | cancel
  | work (id : Nat) (answers : Answers)

namespace Test

variable (test : Test)

def initial : State :=
  ⟨false, (List.range test.parallelCount).map fun id => ⟨test.startPhase id, .empty, [], false⟩⟩

def step (state : State) : Action → Option State
  | .cancel => some { state with cancelled := true }
  | .work id answers =>
      match state.workers[id]? with
      | some worker => (test.workerStep state.cancelled id worker answers).map fun worker =>
          { state with workers := state.workers.set id worker }
      | none => none

def machine : Machine State Action where
  step := test.step
  admits _ := True

end Test

/-- The status of a query in the results of one more worker. -/
def mergeStatus (merged : OrderedMap String QueryStatus) (entry : String × QueryStatus) :
    OrderedMap String QueryStatus :=
  merged.alter entry.1 fun
    | some existing => some (if existing.isFailed then existing else if entry.2.isFailed then entry.2 else existing)
    | none => some entry.2

def mergeResult (merged : OrderedMap String QueryStatus) :
    Except String SpiceTestQueryWorkerResult → Except String (OrderedMap String QueryStatus)
  | .ok workerResult => .ok (workerResult.queryStatuses.entries.foldl mergeStatus merged)
  | .error message => .error message

/-- The results of the workers are merged one after the other, up to one that is an error; the flag of
a failed connection is not read. -/
def wait (results : List (Except String SpiceTestQueryWorkerResult)) : Except String (OrderedMap String QueryStatus) :=
  results.foldlM mergeResult .empty

def succeeded (queryStatuses : OrderedMap String QueryStatus) : Bool :=
  queryStatuses.entries.all (·.2 = .passed)

/-- The outcome of `load::run` from the end of its loop and the statuses of the queries. -/
def outcome (runOutcome : Option RunOutcome) (queryStatuses : OrderedMap String QueryStatus) : RunOutcome :=
  match runOutcome with
  | some outcome => outcome
  | none => if succeeded queryStatuses then .success else .queryFailure

/-- What the worker returned. -/
def Worker.result (worker : Worker) : Option (Except String SpiceTestQueryWorkerResult) :=
  match worker.phase with
  | .finished result => some result
  | _ => none

end Spicebench.SpiceTest
