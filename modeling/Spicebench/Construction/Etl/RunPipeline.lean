/-
This file embeds `run_pipeline`: the step loop, its budget and the checkpoint boundary.
-/

import Spicebench.Construction.Etl.TableTask
import Spicebench.Library.Machine

namespace Spicebench.Etl

open Library

variable {Table Key Data : Type} [DecidableEq Table]

inductive StopReason where
  | completed
  | cancelled
  | error (message : String)
  deriving DecidableEq, Repr

inductive PipelineState where
  | notStarted
  | initialized
  | running
  | paused
  | stopped (reason : StopReason)
  deriving DecidableEq, Repr

/-- The error texts show a state in its debug form. -/
def PipelineState.debug : PipelineState → String
  | .notStarted => "NotStarted"
  | .initialized => "Initialized"
  | .running => "Running"
  | .paused => "Paused"
  | .stopped .completed => "Stopped(Completed)"
  | .stopped .cancelled => "Stopped(Cancelled)"
  | .stopped (.error message) => "Stopped(Error(" ++ message.quote ++ "))"

/-- `processing` holds the tables whose tasks were not joined yet, and the state of each task. -/
inductive Phase (Table Key Data : Type) where
  | starting
  | loopHead (outerSteps : Nat)
  | processing (outerSteps batchId : Nat) (active : List Table) (tasks : Table → TaskState Key Data)
  | returned (outcome : PipelineState)

/-- One call of `run_pipeline`. -/
structure RunTask (Table Key Data : Type) where
  stepLimit : Option Nat
  checkpointMaxBatchId : Option Nat
  phase : Phase Table Key Data

def RunTask.spawn (stepLimit : Option Nat) : RunTask Table Key Data := ⟨stepLimit, none, .starting⟩

inductive RunAction (Table Key Data : Type) where
  | start
  | loopHead (cancelled : Bool) (flush : Except String Unit)
  | task (table : Table) (action : TaskAction Key Data)
  | collect (table : Table)
  | stepDone
  | cancel

/-- The highest batch id of a checkpoint interval of `limit` steps. -/
def checkpointMaxBatchId (plan : WorkPlan Table) (stepLimit : Option Nat) : Option Nat :=
  stepLimit.bind fun limit => plan.keys[limit - 1]?

/-- The sink is flushed before the run returns, and a failed flush becomes the outcome. -/
def flushAndReturn (shared : Shared Table Key Data) (run : RunTask Table Key Data)
    (outcome : PipelineState) (label : String) (flush : Except String Unit) :
    Shared Table Key Data × RunTask Table Key Data :=
  match flush with
  | .ok () => (shared, { run with phase := .returned outcome })
  | .error message => (shared.fail,
      { run with phase := .returned (.stopped (.error s!"Failed to flush sink {label}: {message}")) })

/-- The head of the step loop checks the budget and the token, and pops the next step. -/
def loopHeadStep (shared : Shared Table Key Data) (run : RunTask Table Key Data) (outerSteps : Nat)
    (cancelled : Bool) (flush : Except String Unit) :
    Shared Table Key Data × RunTask Table Key Data :=
  if run.stepLimit.any (· ≤ outerSteps) then flushAndReturn shared run .paused "at pause" flush
  else if cancelled then (shared, { run with phase := .returned (.stopped .cancelled) })
  else
    match shared.work.steps.popStep run.checkpointMaxBatchId with
    | some (batchId, tables, steps) =>
        let active := tables.filter (· ∉ shared.work.finishedTables)
        let phase := if active.isEmpty then .loopHead outerSteps
          else .processing outerSteps batchId active fun _ => .reading (.start batchId)
        (shared.withSteps steps, { run with phase })
    | none =>
        if run.checkpointMaxBatchId.isSome then
          flushAndReturn shared run .paused "at checkpoint boundary" flush
        else flushAndReturn shared run (.stopped .completed) "after pipeline completion" flush

/-- A joined table task leaves the step, and its error stops the run. -/
def collectStep (shared : Shared Table Key Data) (run : RunTask Table Key Data)
    (outerSteps batchId : Nat) (active : List Table) (tasks : Table → TaskState Key Data)
    (table : Table) (result : Except String TaskReport) :
    Shared Table Key Data × RunTask Table Key Data :=
  match result with
  | .error message => (shared, { run with phase := .returned (.stopped (.error message)) })
  | .ok report =>
      let finishedTables := if report.tableFinished then table :: shared.work.finishedTables
        else shared.work.finishedTables
      ({ shared with work := { shared.work with finishedTables } },
        { run with phase := .processing outerSteps batchId (active.erase table) tasks })

/-- One step of `run_pipeline` or of one of its table tasks. -/
def runStep (config : EtlConfig Key Data) (shared : Shared Table Key Data)
    (run : RunTask Table Key Data) (action : RunAction Table Key Data) :
    Option (Shared Table Key Data × RunTask Table Key Data) :=
  match run.phase, action with
  | .starting, .start => some (shared, { run with
      checkpointMaxBatchId := checkpointMaxBatchId shared.work.steps run.stepLimit
      phase := .loopHead 0 })
  | .loopHead outerSteps, .loopHead cancelled flush =>
      some (loopHeadStep shared run outerSteps cancelled flush)
  | .processing outerSteps batchId active tasks, .task table action =>
      if table ∈ active then
        (taskStep config run.checkpointMaxBatchId table shared (tasks table) action).map
          fun result => (result.1, { run with
            phase := .processing outerSteps batchId active (Function.update tasks table result.2) })
      else none
  | .processing outerSteps batchId active tasks, .collect table =>
      match tasks table with
      | .done result =>
          if table ∈ active then
            some (collectStep shared run outerSteps batchId active tasks table result)
          else none
      | _ => none
  | .processing outerSteps _ active _, .stepDone =>
      if active.isEmpty then some (shared, { run with phase := .loopHead (outerSteps + 1) }) else none
  | .processing _ _ _ _, .cancel => some (shared, { run with phase := .returned (.stopped .cancelled) })
  | _, _ => none

/-- The source, the sink and the caller decide which outcomes can occur. -/
structure Environment (Table Key Data : Type) where
  reads : Table → Nat → ReadOutcome Key Data → Prop
  writeFails : Table → Nat → String → Prop
  flushFails : String → Prop
  cancels : Prop

/-- The environment admits a task action when it can produce the outcome. -/
def Environment.AdmitsTask (environment : Environment Table Key Data) (table : Table) :
    TaskAction Key Data → Prop
  | .firstRead batchId outcome => environment.reads table batchId outcome
  | .join batchId outcome => environment.reads table batchId outcome
  | .writeChunk index (.error message) => environment.writeFails table index message
  | _ => True

def Environment.AdmitsFlush (environment : Environment Table Key Data) : Except String Unit → Prop
  | .ok () => True
  | .error message => environment.flushFails message

def Environment.AdmitsRun (environment : Environment Table Key Data) : RunAction Table Key Data → Prop
  | .loopHead cancelled flush => (cancelled = true → environment.cancels) ∧ environment.AdmitsFlush flush
  | .task table action => environment.AdmitsTask table action
  | .cancel => environment.cancels
  | _ => True

/-- One background run as a machine over the shared state and its own state. -/
def runMachine (config : EtlConfig Key Data) (environment : Environment Table Key Data) :
    Machine (Shared Table Key Data × RunTask Table Key Data) (RunAction Table Key Data) where
  step state action := runStep config state.1 state.2 action
  admits := environment.AdmitsRun

end Spicebench.Etl
