/-
This file embeds the checkpoint command: it drives one pipeline and writes the expected results.
-/

import Spicebench.Construction.Etl.Pipeline
import Mathlib.Data.Set.Defs

namespace Spicebench.Commands

open Library Etl

variable {Table Key Data : Type} [DecidableEq Table]

/-- Both commands read these values of the generated version. -/
structure VersionMetadata where
  numSteps : Nat
  bootstrap : Bool

/-- `initialize` writes the first base step, and these steps of the base remain. -/
def VersionMetadata.baseRemainder (version : VersionMetadata) : Nat := version.numSteps - 1

/-- The tasks of a pipeline take these steps on their own. -/
def isSpontaneous : PipelineAction Table Key Data → Bool
  | .call _ => false
  | .wait => false
  | .setBatchBudget _ => false
  | _ => true

/-- A task observes the cancelled token in these steps. -/
def observesCancel : PipelineAction Table Key Data → Bool
  | .background _ (.loopHead cancelled _) => cancelled
  | .background _ .cancel => true
  | _ => false

/-- The tasks of a pipeline run beside the command that has made it. Nobody else holds its token, so
a task observes a cancelled token only after the command has called `cancel`. -/
def progress (config : EtlConfig Key Data) (cancelled : Bool) (pipeline : ETLPipeline Table Key Data)
    (action : PipelineAction Table Key Data) : Option (ETLPipeline Table Key Data) :=
  if isSpontaneous action && (cancelled || !observesCancel action) then pipelineStep config pipeline action
  else none

/-- A checkpoint is taken at this index, when the sink was handed this history. -/
structure Checkpoint (Table : Type) where
  index : Nat
  history : List (Event Table)
  deriving DecidableEq

/-- These logical batches were applied to the sink when the checkpoint was taken. -/
def Checkpoint.applied (checkpoint : Checkpoint Table) : Set (Table × Nat) :=
  {entry | .handed entry.1 entry.2 ∈ checkpoint.history}

structure CheckpointArgs where
  version : VersionMetadata
  checkpointIntervalSteps : Nat

/-- The first run stops at the full base or after one interval. -/
def CheckpointArgs.firstBudget (args : CheckpointArgs) : Nat :=
  if args.version.bootstrap then max args.version.baseRemainder 1 else args.checkpointIntervalSteps

inductive CheckpointPhase where
  | created
  | initializing
  | waiting
  | finished (result : Except String Unit)

/-- `written` lists the checkpoints that the command has written. -/
structure CheckpointCommand (Table Key Data : Type) where
  phase : CheckpointPhase
  pipeline : ETLPipeline Table Key Data
  checkpointIdx : Nat
  written : List (Checkpoint Table)

def CheckpointCommand.new (metadata : Metadata Table) : CheckpointCommand Table Key Data :=
  ⟨.created, .new metadata, 0, []⟩

/-- The command goes on to its next await point, or a task of its pipeline takes a step. The queries
of a checkpoint may fail. -/
inductive CheckpointAction (Table Key Data : Type) where
  | proceed (order : List Table) (queries : Except String Unit)
  | etl (action : PipelineAction Table Key Data)

def CheckpointCommand.finish (command : CheckpointCommand Table Key Data) (result : Except String Unit) :
    CheckpointCommand Table Key Data :=
  { command with phase := .finished result }

/-- The queries run against the current content of the sink. -/
def CheckpointCommand.write (command : CheckpointCommand Table Key Data) : CheckpointCommand Table Key Data :=
  { command with written := command.written ++ [⟨command.checkpointIdx, command.pipeline.shared.history⟩] }

/-- The command resumes a paused pipeline; after the base, the interval becomes the budget. -/
def CheckpointCommand.resume (args : CheckpointArgs) (command : CheckpointCommand Table Key Data) :
    CheckpointCommand Table Key Data :=
  let pipeline := if args.version.bootstrap then command.pipeline.setBatchBudget args.checkpointIntervalSteps
    else command.pipeline
  let command := { command with checkpointIdx := command.checkpointIdx + 1 }
  match perform .continuePipeline pipeline with
  | (.err message, pipeline) => { command with pipeline }.finish (.error message)
  | (_, pipeline) => { command with pipeline }

/-- One turn of the loop acts on the state that `wait` has returned. -/
def CheckpointCommand.turn (args : CheckpointArgs) (command : CheckpointCommand Table Key Data)
    (queries : Except String Unit) : CheckpointCommand Table Key Data :=
  match command.pipeline.state, queries with
  | .paused, .ok () => command.write.resume args
  | .paused, .error message => command.finish (.error message)
  | .stopped .completed, .ok () => command.write.finish (.ok ())
  | .stopped .completed, .error message => command.finish (.error message)
  | .stopped .cancelled, _ => command.finish (.ok ())
  | .stopped (.error message), _ => command.finish (.error ("Checkpointer failed: " ++ message))
  | state, _ => command.finish (.error ("Unexpected final pipeline state: " ++ state.debug))

/-- The command never cancels its pipeline. -/
def checkpointStep (config : EtlConfig Key Data) (args : CheckpointArgs)
    (command : CheckpointCommand Table Key Data) (action : CheckpointAction Table Key Data) :
    Option (CheckpointCommand Table Key Data) :=
  match action, command.phase with
  | .etl action, _ => (progress config false command.pipeline action).map fun pipeline =>
      { command with pipeline }
  | .proceed order _, .created => some { command with
      phase := .initializing
      pipeline := (perform (.initializePipeline order) command.pipeline).2 }
  | .proceed order _, .initializing =>
      if command.pipeline.initializing.isSome then none
      else
        match command.pipeline.state with
        | .initialized => some { command with
            phase := .waiting
            pipeline := (perform (.run args.firstBudget order) command.pipeline).2 }
        | state => some (command.finish (.error state.debug))
  | .proceed _ queries, .waiting =>
      (pipelineStep config command.pipeline .wait).map fun pipeline =>
        { command with pipeline }.turn args queries
  | .proceed _ _, .finished _ => none

/-- The checkpoint command as a machine. -/
def checkpointMachine (config : EtlConfig Key Data) (environment : Environment Table Key Data)
    (metadata : Metadata Table) (args : CheckpointArgs) :
    Machine (CheckpointCommand Table Key Data) (CheckpointAction Table Key Data) where
  step := checkpointStep config args
  admits
    | .proceed order _ => order.Perm metadata.tables
    | .etl action => environment.AdmitsPipeline metadata action

end Spicebench.Commands
