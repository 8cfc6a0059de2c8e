/-
This file embeds the dataset interface and the generation loop, with one task per table.
-/

import Spicebench.Construction.Dataset.Batch
import Spicebench.Library.KeyLog
import Spicebench.Library.Machine
import Mathlib.Logic.Function.Basic

namespace Spicebench.DataGeneration

open Library

/-- A call that fails slices a sample out of range, or builds columns of different lengths after
it has reserved its op indices. -/
inductive Failure where
  | panicked
  | mismatchedColumns (totalRows : Nat)
  deriving DecidableEq, Repr

/-- Each batch has its creates first, then its updates, then its deletes. -/
structure Changes (Key Data : Type) where
  creates : List (Key × Data)
  updates : List (Key × Data)
  deletes : List (Key × Data)

variable {Key Data : Type}

/-- Each key takes the data drawn for its position. -/
def withData (keys : List Key) (data : Nat → Data) : List (Key × Data) :=
  keys.zipIdx.map fun entry => (entry.1, data entry.2)

def Changes.tagged (changes : Changes Key Data) : List (Op × Key × Data) :=
  changes.creates.map (Op.create, ·) ++ changes.updates.map (Op.update, ·) ++
    changes.deletes.map (Op.delete, ·)

/-- The op indices count up from the reserved base. -/
def Changes.rows (changes : Changes Key Data) (opBase : Int) : List (Row Key Data) :=
  changes.tagged.zipIdx.map fun entry =>
    ⟨entry.1.2.1, entry.1.2.2, some entry.1.1, opBase + entry.2⟩

def Changes.batch (changes : Changes Key Data) (opBase : Int) : RecordBatch Key Data :=
  ⟨changeSchema, changes.rows opBase⟩

/-- The result of `raw_next_batch`, where an exhausted table gives no batch. -/
abbrev NextBatch (Key Data : Type) := Except Failure (Option (RecordBatch Key Data))

/-- A dataset has a state behind its locks and counters, and a random source for each call. -/
structure Dataset (Table State Draws Key Data : Type) where
  new : State
  rawNextBatch : State → Table → Draws → NextBatch Key Data × State

/-- The loop of each table collects batches until the table is exhausted. -/
structure GeneratorState (Table State Key Data : Type) where
  dataset : State
  emitted : Table → List (RecordBatch Key Data)
  finished : Table → Bool
  failed : Bool

variable {Table State Draws : Type} [DecidableEq Table]

/-- One table task makes its next call, and a failed call ends the whole generation. -/
def generatorStep (dataset : Dataset Table State Draws Key Data)
    (state : GeneratorState Table State Key Data) (call : Table × Draws) :
    Option (GeneratorState Table State Key Data) :=
  if state.failed || state.finished call.1 then none
  else
    match dataset.rawNextBatch state.dataset call.1 call.2 with
    | (.ok (some batch), next) =>
        some { state with
          dataset := next
          emitted := Function.update state.emitted call.1 (state.emitted call.1 ++ [batch]) }
    | (.ok none, next) =>
        some { state with dataset := next, finished := Function.update state.finished call.1 true }
    | (.error _, next) => some { state with dataset := next, failed := true }

/-- The calls of different tables interleave in any order. -/
def generator (dataset : Dataset Table State Draws Key Data) :
    Machine (GeneratorState Table State Key Data) (Table × Draws) where
  step := generatorStep dataset
  admits _ := True

def generatorStart (dataset : Dataset Table State Draws Key Data) :
    GeneratorState Table State Key Data :=
  ⟨dataset.new, fun _ => [], fun _ => false, false⟩

/-- The generation loop reaches the state. -/
def Generates (dataset : Dataset Table State Draws Key Data)
    (state : GeneratorState Table State Key Data) : Prop :=
  (generator dataset).Reaches (generatorStart dataset) state

/-- The change a row describes, where a row without one of the three operations describes none. -/
def Row.change? (row : Row Key Data) : Option (Change Key) :=
  match row.op with
  | some .create => some (.create row.key)
  | some .update => some (.update row.key)
  | some .delete => some (.delete row.key)
  | _ => none

/-- The changes of a list of rows, in row order. -/
def keyLog (rows : List (Row Key Data)) : KeyLog Key := rows.filterMap Row.change?

end Spicebench.DataGeneration
