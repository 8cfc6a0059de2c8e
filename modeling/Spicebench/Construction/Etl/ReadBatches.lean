/-
This file embeds `read_batches_until_min_rows` by itself: its steps on the shared plan, among the reservations and
restorations that the tasks of other tables make on the same plan.
-/

import Spicebench.Construction.Etl.TableTask
import Spicebench.Library.Machine

namespace Spicebench.Etl

open Library

variable {Table Key Data : Type} [DecidableEq Table]

/-- The function reads, has returned its batches, or has failed. -/
inductive ReadProgress (Key Data : Type) where
  | reading (reads : ReadLoop Key Data)
  | returned (result : ReadReturn Key Data)
  | failed (message : String)

/-- The function returns, and its unconsumed reservations go back into the plan. -/
def returnReads (table : Table) (plan : WorkPlan Table) (result : ReadReturn Key Data) :
    WorkPlan Table × ReadProgress Key Data :=
  (plan.restoreUnconsumedReservations table result.restored, .returned result)

/-- One read of the loop has completed and is joined. -/
def joinBatch (target : Nat) (table : Table) (plan : WorkPlan Table) (reads : ReadLoop Key Data) (batchId : Nat)
    (outcome : ReadOutcome Key Data) : WorkPlan Table × ReadProgress Key Data :=
  match outcome with
  | .error message => (plan, .failed message)
  | .ok result =>
      let reads := { reads with
        inFlight := reads.inFlight.erase batchId
        completed := (batchId, result) :: reads.completed }
      match reads.drain target reads.scheduled with
      | .leave returned => returnReads table plan returned
      | .again reads =>
          if reads.inFlight.isEmpty && reads.completed.isEmpty then
            returnReads table plan (reads.toReturn false [])
          else (plan, .reading reads)

/-- One step of the read loop. The lock on the plan is held for at most one step. -/
def readStep (target : Nat) (maxBatchId : Option Nat) (table : Table) (plan : WorkPlan Table)
    (reads : ReadLoop Key Data) (action : TaskAction Key Data) : Option (WorkPlan Table × ReadProgress Key Data) :=
  match action with
  | .reserve =>
      if reads.wantsMore target then
        match plan.reserveNextBatchIdForTable table reads.reserveCursor maxBatchId with
        | none => some (plan, .reading { reads with canReserveMore := false })
        | some (batchId, steps) => some (steps, .reading { reads with
            reserveCursor := batchId
            consumedWorkUnits := reads.consumedWorkUnits + 1
            scheduled := reads.scheduled ++ [batchId]
            inFlight := reads.inFlight ++ [batchId] })
      else none
  | .join batchId outcome =>
      if reads.wantsMore target then none
      else if batchId ∈ reads.inFlight then some (joinBatch target table plan reads batchId outcome)
      else none
  | .joinNone =>
      if reads.wantsMore target then none
      else if reads.inFlight.isEmpty then some (returnReads table plan (reads.toReturn false []))
      else none
  | _ => none

/-- The plan and the progress of one table's read loop. -/
structure SharedRead (Table Key Data : Type) where
  plan : WorkPlan Table
  progress : ReadProgress Key Data

def SharedRead.start (plan : WorkPlan Table) (startBatchId : Nat) : SharedRead Table Key Data :=
  ⟨plan, .reading (.start startBatchId)⟩

/-- The loop takes a step, or the task of another table reserves an id or restores some. -/
inductive ReadAction (Table Key Data : Type) where
  | own (action : TaskAction Key Data)
  | reserve (other : Table) (afterBatchId : Nat) (maxBatchId : Option Nat)
  | restore (other : Table) (batchIds : List Nat)

/-- This is what the operation of another table makes of the plan. -/
def ReadAction.operate (plan : WorkPlan Table) : ReadAction Table Key Data → WorkPlan Table
  | .own _ => plan
  | .reserve other afterBatchId maxBatchId =>
      ((plan.reserveNextBatchIdForTable other afterBatchId maxBatchId).map Prod.snd).getD plan
  | .restore other batchIds => plan.restoreUnconsumedReservations other batchIds

/-- The table whose operation the action is, unless it is a step of the loop. -/
def ReadAction.table? : ReadAction Table Key Data → Option Table
  | .own _ => none
  | .reserve other _ _ => some other
  | .restore other _ => some other

/-- The loop of one table as a machine: every read returns what the storage holds, and the other operations belong
to other tables. -/
def readMachine (target : Nat) (maxBatchId : Option Nat) (table : Table) (storage : Nat → ReadResult Key Data) :
    Machine (SharedRead Table Key Data) (ReadAction Table Key Data) where
  step state action :=
    match action, state.progress with
    | .own action, .reading reads =>
        (readStep target maxBatchId table state.plan reads action).map fun result => ⟨result.1, result.2⟩
    | .own _, _ => none
    | action, _ => some { state with plan := action.operate state.plan }
  admits action :=
    match action with
    | .own (.join batchId outcome) => outcome = .ok (some (storage batchId))
    | .own _ => True
    | .reserve other _ _ => other ≠ table
    | .restore other _ => other ≠ table

end Spicebench.Etl
