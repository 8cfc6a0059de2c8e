/-
This file embeds the shared work plan: its construction, reservations and restorations.
-/

import Spicebench.Library.OrderedMap
import Mathlib.Data.List.Nodup
import Mathlib.Data.List.Sort

namespace Spicebench.Etl

open Library

variable {Table : Type} [DecidableEq Table]

/-- A planned step names each table at most once, and at least one table. -/
structure StepTables (Table : Type) where
  tables : List Table
  nodup : tables.Nodup
  nonempty : tables ≠ []

/-- This operation adds a table to a step, or makes a new step for it. -/
def StepTables.push (table : Table) : Option (StepTables Table) → StepTables Table
  | none => ⟨[table], by simp, by simp⟩
  | some step =>
      if member : table ∈ step.tables then step
      else ⟨step.tables ++ [table], by
        simp [List.nodup_append, step.nodup]
        rintro other inside rfl
        exact member inside, by simp⟩

/-- This operation removes a table, and drops a step that becomes empty. -/
def StepTables.remove (table : Table) (step : StepTables Table) : Option (StepTables Table) :=
  if empty : step.tables.erase table = [] then none
  else some ⟨step.tables.erase table, step.nodup.erase table, empty⟩

/-- The plan maps each batch id to the tables that still need that batch. -/
abbrev WorkPlan (Table : Type) := OrderedMap Nat (StepTables Table)

namespace WorkPlan

/-- The table still needs the batch. -/
def Pending (plan : WorkPlan Table) (table : Table) (batchId : Nat) : Prop :=
  ∃ step, plan.get? batchId = some step ∧ table ∈ step.tables

def push (plan : WorkPlan Table) (table : Table) (batchId : Nat) : WorkPlan Table :=
  plan.alter batchId fun step => some (StepTables.push table step)

def remove (plan : WorkPlan Table) (table : Table) (batchId : Nat) : WorkPlan Table :=
  plan.alter batchId fun step => step.bind (StepTables.remove table)

/-- The next id for a table is the first planned one after the cursor and within the boundary.
The cursor increment saturates at the largest `u64`. -/
def reserveNextBatchIdForTable (plan : WorkPlan Table) (table : Table) (afterBatchId : Nat)
    (maxBatchId : Option Nat) : Option (Nat × WorkPlan Table) :=
  let start := min (afterBatchId + 1) (2 ^ 64 - 1)
  let found := plan.entries.find? fun entry =>
    start ≤ entry.1 ∧ maxBatchId.all (entry.1 ≤ ·) ∧ table ∈ entry.2.tables
  found.map fun entry => (entry.1, plan.remove table entry.1)

/-- The unconsumed reservations go back into the plan. -/
def restoreUnconsumedReservations (plan : WorkPlan Table) (table : Table) (batchIds : List Nat) :
    WorkPlan Table :=
  batchIds.foldl (fun plan batchId => plan.push table batchId) plan

/-- The next step is the first one, unless it lies beyond the boundary. -/
def popStep (plan : WorkPlan Table) (maxBatchId : Option Nat) :
    Option (Nat × List Table × WorkPlan Table) :=
  match plan.entries with
  | [] => none
  | (batchId, step) :: _ =>
      if maxBatchId.any (· < batchId) then none else some (batchId, step.tables, plan.tail)

end WorkPlan

/-- The metadata records the batch ids of each table; a table without records falls back to
`0..num_batches`. -/
structure Metadata (Table : Type) where
  tables : List Table
  nodup : tables.Nodup
  stored : Table → List Nat
  numBatches : Table → Nat

def Metadata.batchIds (metadata : Metadata Table) (table : Table) : List Nat :=
  if (metadata.stored table).isEmpty then List.range (metadata.numBatches table)
  else (metadata.stored table).insertionSort (· ≤ ·)

/-- The ids of one table enter the plan once each, without the id that `initialize` handled. -/
def addTable (skipFirst : Bool) (table : Table) (batchIds : List Nat) (plan : WorkPlan Table) :
    WorkPlan Table :=
  let initializedId := if skipFirst then batchIds.head? else none
  (batchIds.foldl (fun (state : List Nat × WorkPlan Table) batchId =>
    if some batchId = initializedId then state
    else if batchId ∈ state.1 then state
    else (batchId :: state.1, state.2.push table batchId)) ([], plan)).2

/-- The tables are visited in the order of a hash map, so any order may occur. -/
def buildWorkPlan (metadata : Metadata Table) (order : List Table) (skipFirst : Bool) :
    WorkPlan Table :=
  order.foldl (fun plan table => addTable skipFirst table (metadata.batchIds table) plan) .empty

/-- The work state is shared by all table tasks of a run. -/
structure PipelineWorkState (Table : Type) where
  steps : WorkPlan Table
  finishedTables : List Table

end Spicebench.Etl
