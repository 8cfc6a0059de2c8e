/-
This file embeds the benchmark: the run command with its base seed, and the load phase.
-/

import Spicebench.Construction.Commands.Checkpoint

namespace Spicebench.Commands

open Library Etl

variable {Table Key Data : Type} [DecidableEq Table]

inductive RunOutcome where
  | success
  | queryFailure
  | pipelineFailure (message : String)
  | validationTimeout
  | cancelled
  deriving DecidableEq, Repr

/-- The run ends early with an error, or the load phase decides its outcome. -/
inductive Ending where
  | error (message : String)
  | outcome (outcome : RunOutcome)
  deriving DecidableEq, Repr

/-- The command returns an error except after a load phase that was not broken off. -/
def Ending.isErr : Ending → Bool
  | .outcome .success => false
  | .outcome .queryFailure => false
  | _ => true

/-- `checkpointSteps` is the interval of the manifest, `validateResults` says that results are to be
validated against an existing checkpoint directory, and `loaded` tells whether the results of a
checkpoint could be loaded and are not empty. -/
structure RunArgs where
  version : VersionMetadata
  checkpointSteps : Option Nat
  validateResults : Bool
  loaded : Nat → Bool

def RunArgs.hasCheckpointValidation (args : RunArgs) : Bool :=
  args.validateResults && args.checkpointSteps.isSome

inductive CheckpointValidationResult where
  | converged
  | interrupted
  | timedOut
  deriving DecidableEq, Repr

inductive RunPhase where
  | created
  | initializing
  | seeding
  | loading
  | monitoring
  | finished (ending : Ending)
  deriving DecidableEq, Repr

/-- `cancelled` tells whether the command has cancelled its pipeline, and `validated` lists the
checkpoints that it has begun to validate. -/
structure RunCommand (Table Key Data : Type) where
  phase : RunPhase
  pipeline : ETLPipeline Table Key Data
  cancelled : Bool
  validated : List (Checkpoint Table)

def RunCommand.new (metadata : Metadata Table) : RunCommand Table Key Data :=
  ⟨.created, .new metadata, false, []⟩

/-- The command goes on to its next await point, it is interrupted, something else that it needs
fails, or a task of its pipeline takes a step. -/
inductive RunCommandAction (Table Key Data : Type) where
  | proceed (order : List Table) (validation : CheckpointValidationResult) (succeeded : Bool)
  | interrupt
  | fail (message : String)
  | etl (action : PipelineAction Table Key Data)

namespace RunCommand

def finish (command : RunCommand Table Key Data) (ending : Ending) : RunCommand Table Key Data :=
  { command with phase := .finished ending }

def cancel (command : RunCommand Table Key Data) : RunCommand Table Key Data :=
  { command with cancelled := true }

/-- The system under test is compared with the results of this checkpoint. -/
def validate (command : RunCommand Table Key Data) (index : Nat) : RunCommand Table Key Data :=
  { command with validated := command.validated ++ [⟨index, command.pipeline.shared.history⟩] }

omit [DecidableEq Table] in
/-- A validation notes its checkpoint and changes nothing else. -/
theorem validate_keeps {command noted : RunCommand Table Key Data} {validates : Prop}
    [Decidable validates] {index : Nat}
    (noting : (if validates then command.validate index else command) = noted) :
    noted.pipeline = command.pipeline ∧ noted.cancelled = command.cancelled ∧ noted.phase = command.phase := by
  rw [← noting]
  split_ifs
  · exact ⟨rfl, rfl, rfl⟩
  · exact ⟨rfl, rfl, rfl⟩

/-- The outcome of a load phase that was not broken off depends on the queries only. -/
def conclude (command : RunCommand Table Key Data) (succeeded : Bool) : RunCommand Table Key Data :=
  command.finish (.outcome (if succeeded then .success else .queryFailure))

/-- The base seed is run unless `initialize` has written the whole base. -/
def seed (args : RunArgs) (command : RunCommand Table Key Data) (order : List Table) :
    RunCommand Table Key Data :=
  if args.version.bootstrap && decide (0 < args.version.baseRemainder) then
    { command with
      phase := .seeding
      pipeline := (perform (.run args.version.baseRemainder order) command.pipeline).2 }
  else { command with phase := .loading }

/-- The full-base checkpoint is validated before the load phase resumes the paused pipeline. -/
def resumeBase (args : RunArgs) (command : RunCommand Table Key Data)
    (validation : CheckpointValidationResult) : RunCommand Table Key Data :=
  let command := if args.hasCheckpointValidation then command.validate 0 else command
  match if args.hasCheckpointValidation then validation else .converged with
  | .interrupted => command.cancel.finish
      (.error "Interrupted during bootstrap snapshot (cp0) validation")
  | .timedOut => command.cancel.finish (.error "Bootstrap snapshot (cp0) validation timed out")
  | .converged =>
      let pipeline := match args.checkpointSteps with
        | some steps => command.pipeline.setBatchBudget steps
        | none => command.pipeline
      match perform .continuePipeline pipeline with
      | (.err message, pipeline) => { command with pipeline }.finish (.error message)
      | (_, pipeline) => { command with pipeline, phase := .monitoring }

/-- The load phase takes a paused pipeline for a seeded base, and otherwise runs or starts it. -/
def load (args : RunArgs) (command : RunCommand Table Key Data) (order : List Table)
    (validation : CheckpointValidationResult) : RunCommand Table Key Data :=
  if command.pipeline.state = .paused then command.resumeBase args validation
  else
    match args.checkpointSteps with
    | some steps => { command with
        phase := .monitoring
        pipeline := (perform (.run steps order) command.pipeline).2 }
    | none =>
        match perform (.start order) command.pipeline with
        | (.err message, pipeline) => { command with pipeline }.finish (.error message)
        | (_, pipeline) => { command with pipeline, phase := .monitoring }

/-- A checkpoint is validated only when its results could be loaded. -/
def checked (args : RunArgs) (command : RunCommand Table Key Data) : Bool :=
  args.hasCheckpointValidation && args.loaded command.pipeline.checkpointIdx

/-- The load phase validates a checkpoint at a pause, and continues the pipeline. -/
def pause (args : RunArgs) (command : RunCommand Table Key Data)
    (validation : CheckpointValidationResult) : RunCommand Table Key Data :=
  let checked := command.checked args
  let command := if checked then command.validate command.pipeline.checkpointIdx else command
  match if checked then validation else .converged with
  | .interrupted => command.cancel.finish (.outcome .cancelled)
  | .timedOut => command.cancel.finish (.outcome .validationTimeout)
  | .converged =>
      match perform .continuePipeline command.pipeline with
      | (.err message, pipeline) => { command with pipeline }.finish
          (.outcome (.pipelineFailure ("Failed to continue ETL pipeline: " ++ message)))
      | (_, pipeline) => { command with pipeline }

/-- The load phase validates the last checkpoint once the pipeline has completed. -/
def complete (args : RunArgs) (command : RunCommand Table Key Data)
    (validation : CheckpointValidationResult) (succeeded : Bool) : RunCommand Table Key Data :=
  let checked := command.checked args
  let command := if checked then command.validate command.pipeline.checkpointIdx else command
  match if checked then validation else .converged with
  | .interrupted => command.finish (.outcome .cancelled)
  | .timedOut => command.finish (.outcome .validationTimeout)
  | .converged => command.conclude succeeded

/-- The load phase acts on a state change of the pipeline, unless it is just running. -/
def monitor (args : RunArgs) (command : RunCommand Table Key Data)
    (validation : CheckpointValidationResult) (succeeded : Bool) : Option (RunCommand Table Key Data) :=
  match command.pipeline.state with
  | .paused => some (command.pause args validation)
  | .stopped .completed => some (command.complete args validation succeeded)
  | .stopped (.error message) => some (command.finish (.outcome (.pipelineFailure message)))
  | .stopped .cancelled => some (command.conclude succeeded)
  | _ => none

/-- The shutdown signal cancels the pipeline and breaks the run off. -/
def interrupt (command : RunCommand Table Key Data) : Option (RunCommand Table Key Data) :=
  match command.phase with
  | .initializing => some (command.cancel.finish (.error "Interrupted during ETL initialization"))
  | .seeding => some (command.cancel.finish (.error "Interrupted during bootstrap base seed"))
  | .monitoring => some (command.cancel.finish (.outcome .cancelled))
  | _ => none

end RunCommand

/-- One step of the benchmark. The outcome of the base seed is only logged. -/
def runCommandStep (config : EtlConfig Key Data) (args : RunArgs) (command : RunCommand Table Key Data)
    (action : RunCommandAction Table Key Data) : Option (RunCommand Table Key Data) :=
  match action, command.phase with
  | .etl action, _ => (progress config command.cancelled command.pipeline action).map fun pipeline =>
      { command with pipeline }
  | .interrupt, _ => command.interrupt
  | .fail _, .finished _ => none
  | .fail message, _ => some (command.finish (.error message))
  | .proceed order _ _, .created => some { command with
      phase := .initializing
      pipeline := (perform (.initializePipeline order) command.pipeline).2 }
  | .proceed order _ _, .initializing =>
      if command.pipeline.initializing.isSome then none
      else
        match command.pipeline.state with
        | .initialized => some (command.seed args order)
        | state => some (command.finish (.error state.debug))
  | .proceed _ _ _, .seeding =>
      (pipelineStep config command.pipeline .wait).map fun pipeline =>
        { command with pipeline, phase := .loading }
  | .proceed order validation _, .loading => some (command.load args order validation)
  | .proceed _ validation succeeded, .monitoring => command.monitor args validation succeeded
  | .proceed _ _ _, .finished _ => none

/-- The benchmark as a machine. -/
def runCommandMachine (config : EtlConfig Key Data) (environment : Environment Table Key Data)
    (metadata : Metadata Table) (args : RunArgs) :
    Machine (RunCommand Table Key Data) (RunCommandAction Table Key Data) where
  step := runCommandStep config args
  admits
    | .proceed order _ _ => order.Perm metadata.tables
    | .etl action => environment.AdmitsPipeline metadata action
    | _ => True

end Spicebench.Commands
