/-
This file embeds the pipeline object: its calls, its background tasks and its published state.
-/

import Spicebench.Construction.Etl.RunPipeline

namespace Spicebench.Etl

open Library

variable {Table Key Data : Type} [DecidableEq Table]

/-- A task publishes its outcome as its last act, unless it was aborted before. -/
inductive TaskStatus where
  | live
  | published
  | aborted
  deriving DecidableEq, Repr

structure Background (Table Key Data : Type) where
  run : RunTask Table Key Data
  status : TaskStatus

/-- `initialize` waits for one task per table that has a first batch. -/
structure InitJob (Table Key Data : Type) where
  active : List Table
  tasks : Table → TaskState Key Data

/-- `tasks` lists every task ever spawned, `handle` is the stored join handle, and `observed`
lists the values of the watch channel. -/
structure ETLPipeline (Table Key Data : Type) where
  metadata : Metadata Table
  state : PipelineState
  batchBudget : Option Nat
  checkpointIdx : Nat
  shared : Shared Table Key Data
  tasks : List (Background Table Key Data)
  handle : Option Nat
  initializing : Option (InitJob Table Key Data)
  observed : List PipelineState

namespace ETLPipeline

def new (metadata : Metadata Table) : ETLPipeline Table Key Data where
  metadata := metadata
  state := .notStarted
  batchBudget := none
  checkpointIdx := 0
  shared := ⟨⟨.empty, []⟩, fun _ => none, [], []⟩
  tasks := []
  handle := none
  initializing := none
  observed := [.notStarted]

/-- A value is sent on the watch channel. -/
def send (pipeline : ETLPipeline Table Key Data) (state : PipelineState) : ETLPipeline Table Key Data :=
  { pipeline with state, observed := pipeline.observed ++ [state] }

/-- The map holds the positive part of the net counts. -/
def expectedRowCounts (pipeline : ETLPipeline Table Key Data) (table : Table) : Option Nat :=
  (pipeline.shared.netRows table).map Int.toNat

def setBatchBudget (pipeline : ETLPipeline Table Key Data) (steps : Nat) : ETLPipeline Table Key Data :=
  { pipeline with batchBudget := some steps }

/-- The plan skips the first id of each table only after `initialize`. -/
def planWork (pipeline : ETLPipeline Table Key Data) (order : List Table) : ETLPipeline Table Key Data :=
  let steps := buildWorkPlan pipeline.metadata order (pipeline.state = .initialized)
  { pipeline with shared := { pipeline.shared with work := ⟨steps, []⟩ } }

def spawnRunTask (pipeline : ETLPipeline Table Key Data) (stepLimit : Option Nat) :
    ETLPipeline Table Key Data :=
  { pipeline.send .running with
    tasks := pipeline.tasks ++ [⟨.spawn stepLimit, .live⟩]
    handle := some pipeline.tasks.length }

/-- An abort kills a task only while it is live. -/
def abortHandle (pipeline : ETLPipeline Table Key Data) : ETLPipeline Table Key Data :=
  { pipeline with
    handle := none
    tasks := match pipeline.handle with
      | none => pipeline.tasks
      | some index => pipeline.tasks.modify index fun task =>
          if task.status = .live then { task with status := .aborted } else task }

/-- The first batches of all tables that have one are read by concurrent tasks. -/
def initJob (metadata : Metadata Table) (order : List Table) : InitJob Table Key Data where
  active := order.filter fun table => (metadata.batchIds table).head?.isSome
  tasks table := .initial ((metadata.batchIds table).head?.getD 0)

end ETLPipeline

/-- The tables of a call are visited in the order of a hash map. -/
inductive Call (Table : Type) where
  | initializePipeline (order : List Table)
  | start (order : List Table)
  | run (stepCount : Nat) (order : List Table)
  | continuePipeline

/-- A call fails at once, succeeds at once, or is still waiting for its tasks. -/
inductive CallResult where
  | err (message : String)
  | ok
  | waiting
  deriving DecidableEq, Repr

/-- `run` has no guard on the state, unlike the other three calls. -/
def perform (call : Call Table) (pipeline : ETLPipeline Table Key Data) :
    CallResult × ETLPipeline Table Key Data :=
  match call with
  | .initializePipeline order =>
      if pipeline.state ≠ .notStarted then
        (.err ("Cannot initialize pipeline: current state is " ++ pipeline.state.debug), pipeline)
      else (.waiting, { pipeline with initializing := some (ETLPipeline.initJob pipeline.metadata order) })
  | .start order =>
      if pipeline.state ≠ .initialized then
        (.err ("Cannot start pipeline: current state is " ++ pipeline.state.debug ++
          " (must be Initialized)"), pipeline)
      else (.ok, ({ pipeline with batchBudget := none }.planWork order).spawnRunTask none)
  | .run stepCount order =>
      (.ok, ({ pipeline with batchBudget := some stepCount }.planWork order).spawnRunTask (some stepCount))
  | .continuePipeline =>
      if pipeline.state ≠ .paused then
        (.err ("Cannot continue pipeline: current state is " ++ pipeline.state.debug ++
          " (must be Paused)"), pipeline)
      else (.ok, ({ pipeline with checkpointIdx := pipeline.checkpointIdx + 1 }.abortHandle).spawnRunTask
        pipeline.batchBudget)

inductive PipelineAction (Table Key Data : Type) where
  | call (call : Call Table)
  | initTask (table : Table) (action : TaskAction Key Data)
  | initCollect (table : Table)
  | initDone (flush : Except String Unit)
  | wait
  | setBatchBudget (steps : Nat)
  | background (index : Nat) (action : RunAction Table Key Data)
  | publish (index : Nat)

/-- A step of the awaited `initialize` call. -/
def initStep (config : EtlConfig Key Data) (pipeline : ETLPipeline Table Key Data)
    (job : InitJob Table Key Data) (action : PipelineAction Table Key Data) :
    Option (ETLPipeline Table Key Data) :=
  match action with
  | .initTask table action =>
      if table ∈ job.active then
        (taskStep config none table pipeline.shared (job.tasks table) action).map fun result =>
          { pipeline with
            shared := result.1
            initializing := some { job with tasks := Function.update job.tasks table result.2 } }
      else none
  | .initCollect table =>
      match job.tasks table with
      | .done (.ok _) =>
          if table ∈ job.active then
            some { pipeline with initializing := some { job with active := job.active.erase table } }
          else none
      | .done (.error message) =>
          if table ∈ job.active then
            some { pipeline.send (.stopped (.error message)) with initializing := none }
          else none
      | _ => none
  | .initDone flush =>
      if job.active.isEmpty then
        match flush with
        | .ok () => some { pipeline.send .initialized with initializing := none }
        | .error message => some
            { pipeline.send (.stopped (.error s!"Failed to flush sink after initialization: {message}")) with
              shared := pipeline.shared.fail
              initializing := none }
      else none
  | _ => none

/-- While `initialize` is awaited no other call can be made. -/
def pipelineStep (config : EtlConfig Key Data) (pipeline : ETLPipeline Table Key Data)
    (action : PipelineAction Table Key Data) : Option (ETLPipeline Table Key Data) :=
  match pipeline.initializing with
  | some job => initStep config pipeline job action
  | none =>
      match action with
      | .call call => some (perform call pipeline).2
      | .wait =>
          -- `wait` returns once the task of the stored handle has published.
          match pipeline.handle with
          | none => some pipeline
          | some index =>
              if (pipeline.tasks[index]?).any fun task => task.status ≠ .live then
                some { pipeline with handle := none }
              else none
      | .setBatchBudget steps => some (pipeline.setBatchBudget steps)
      | .background index action =>
          match pipeline.tasks[index]? with
          | some ⟨run, .live⟩ =>
              (runStep config pipeline.shared run action).map fun result =>
                { pipeline with
                  shared := result.1
                  tasks := pipeline.tasks.set index ⟨result.2, .live⟩ }
          | _ => none
      | .publish index =>
          match pipeline.tasks[index]? with
          | some ⟨⟨limit, boundary, .returned outcome⟩, .live⟩ => some { pipeline.send outcome with
              tasks := pipeline.tasks.set index ⟨⟨limit, boundary, .returned outcome⟩, .published⟩ }
          | _ => none
      | _ => none

def Environment.AdmitsPipeline (environment : Environment Table Key Data)
    (metadata : Metadata Table) : PipelineAction Table Key Data → Prop
  | .call (.initializePipeline order) => order.Perm metadata.tables
  | .call (.start order) => order.Perm metadata.tables
  | .call (.run _ order) => order.Perm metadata.tables
  | .initTask table action => environment.AdmitsTask table action
  | .initDone flush => environment.AdmitsFlush flush
  | .background _ action => environment.AdmitsRun action
  | _ => True

/-- The pipeline object as a machine. -/
def pipelineMachine (config : EtlConfig Key Data) (environment : Environment Table Key Data)
    (metadata : Metadata Table) :
    Machine (ETLPipeline Table Key Data) (PipelineAction Table Key Data) where
  step := pipelineStep config
  admits := environment.AdmitsPipeline metadata

end Spicebench.Etl
