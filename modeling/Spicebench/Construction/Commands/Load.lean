/-
This file embeds the checkpoint loop of the load phase with the watch channel it listens on: the
background tasks publish at any time, and the loop only ever sees the latest value.
-/

import Spicebench.Construction.Commands.Run

namespace Spicebench.Etl.ETLPipeline

variable {Table Key Data : Type}

/-- The watch channel counts the values that were sent. -/
def version (pipeline : ETLPipeline Table Key Data) : Nat := pipeline.observed.length

/-- The background tasks have published this many pauses. -/
def pauses (pipeline : ETLPipeline Table Key Data) : Nat := pipeline.observed.count .paused

/-- The pipeline only borrows from its own receiver, so that receiver has seen the first value alone,
and so has a clone of it. -/
def stateWatch (_ : ETLPipeline Table Key Data) : Nat := 1

end Spicebench.Etl.ETLPipeline

namespace Spicebench.Commands

open Library Etl

variable {Table Key Data : Type} [DecidableEq Table]

/-- The loop has no receiver yet, it waits in `select!`, `changed` has woken it up, or it acts on the
value that it has read, when this many pauses had been published. -/
inductive Place where
  | unwatched
  | selecting
  | woken
  | reading (state : PipelineState) (pauses : Nat)
  deriving DecidableEq, Repr

/-- `seen` is the version that the receiver has seen. `handled` lists the pauses that were acted on,
each with its ordinal and the checkpoint index that was used for it, and `completed` holds the number
of pauses before the completion that was acted on, and the index used there. -/
structure LoadRun (Table Key Data : Type) where
  command : RunCommand Table Key Data
  place : Place
  seen : Nat
  handled : List (Nat × Nat)
  completed : Option (Nat × Nat)

/-- The command or a task of its pipeline takes a step, or the loop does: it takes its receiver,
`changed` returns, the value is read, and the value is acted on. -/
inductive LoadAction (Table Key Data : Type) where
  | command (action : RunCommandAction Table Key Data)
  | stateWatch
  | changed
  | borrowAndUpdate
  | act (validation : CheckpointValidationResult) (succeeded : Bool)

/-- These are the steps of the loop itself. -/
def LoadAction.isLoop : LoadAction Table Key Data → Bool
  | .changed => true
  | .borrowAndUpdate => true
  | .act _ _ => true
  | _ => false

namespace LoadRun

def new (metadata : Metadata Table) : LoadRun Table Key Data :=
  ⟨.new metadata, .unwatched, 0, [], none⟩

/-- The loop is left to its own steps, and an interrupt reaches it only in `select!`. -/
def permits (run : LoadRun Table Key Data) : RunCommandAction Table Key Data → Bool
  | .proceed _ _ _ => match run.command.phase with
      | .loading => run.place ≠ .unwatched
      | .monitoring => false
      | _ => true
  | .interrupt => match run.command.phase with
      | .monitoring => run.place = .selecting
      | _ => true
  | _ => true

/-- The load phase acts on the pause that it finds, and this is the only pause outside of the loop. -/
def noteBase (run : LoadRun Table Key Data) : RunCommandAction Table Key Data → List (Nat × Nat)
  | .proceed _ _ _ =>
      if run.command.phase = .loading ∧ run.command.pipeline.state = .paused then
        [(run.command.pipeline.pauses - 1, 0)]
      else []
  | _ => []

/-- The loop acts on the value that it has read. -/
def act (args : RunArgs) (run : LoadRun Table Key Data) (state : PipelineState) (pauses : Nat)
    (validation : CheckpointValidationResult) (succeeded : Bool) : LoadRun Table Key Data :=
  let checkpointIdx := run.command.pipeline.checkpointIdx
  let run := { run with place := .selecting }
  match state with
  | .paused => { run with
      command := run.command.pause args validation
      handled := run.handled ++ [(pauses - 1, checkpointIdx)] }
  | .stopped .completed => { run with
      command := run.command.complete args validation succeeded
      completed := some (pauses, checkpointIdx) }
  | .stopped (.error message) => { run with
      command := run.command.finish (.outcome (.pipelineFailure message)) }
  | .stopped .cancelled => { run with command := run.command.conclude succeeded }
  | _ => run

end LoadRun

/-- One step of the load phase and of everything around it. -/
def loadStep (config : EtlConfig Key Data) (args : RunArgs) (run : LoadRun Table Key Data)
    (action : LoadAction Table Key Data) : Option (LoadRun Table Key Data) :=
  match action with
  | .command action =>
      if run.permits action then
        (runCommandStep config args run.command action).map fun command =>
          { run with command, handled := run.handled ++ run.noteBase action }
      else none
  | .stateWatch =>
      if run.command.phase = .loading ∧ run.place = .unwatched then
        some { run with place := .selecting, seen := run.command.pipeline.stateWatch }
      else none
  | .changed =>
      -- `changed` waits for an unseen version, and marks it as seen before it returns.
      if run.command.phase = .monitoring ∧ run.place = .selecting ∧
          run.seen ≠ run.command.pipeline.version then
        some { run with place := .woken, seen := run.command.pipeline.version }
      else none
  | .borrowAndUpdate =>
      if run.command.phase = .monitoring ∧ run.place = .woken then
        some { run with
          place := .reading run.command.pipeline.state run.command.pipeline.pauses
          seen := run.command.pipeline.version }
      else none
  | .act validation succeeded =>
      match run.command.phase, run.place with
      | .monitoring, .reading state pauses => some (run.act args state pauses validation succeeded)
      | _, _ => none

/-- The load phase as a machine. -/
def loadMachine (config : EtlConfig Key Data) (environment : Environment Table Key Data)
    (metadata : Metadata Table) (args : RunArgs) :
    Machine (LoadRun Table Key Data) (LoadAction Table Key Data) where
  step := loadStep config args
  admits
    | .command action => (runCommandMachine config environment metadata args).admits action
    | _ => True

end Spicebench.Commands
