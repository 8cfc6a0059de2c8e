/-
This file embeds `write_segments_for_batch` with its chunk tasks and its two semaphores: the chunks of one
segment are written concurrently, and the next segment starts when all of them were joined.
-/

import Spicebench.Construction.Etl.Segments
import Spicebench.Library.Machine

namespace Spicebench.Etl

open Library

variable {Key Data : Type}

/-- The sizes are environment variables and arguments; a zero chunk size turns chunking off. -/
structure SinkLimits where
  sinkChunkRows : Nat
  sinkParallelismPerTable : Nat
  globalPermits : Nat

/-- A chunk task waits for its two permits, hands its rows to the sink and gives the permits back. The rows
that the sink has not applied yet are `rest`. -/
inductive ChunkPhase (Key Data : Type) where
  | waiting
  | permitted
  | writing (rest : List (Key × Data))
  | done
  | failed (message : String) (rest : List (Key × Data))
  | joined
  deriving DecidableEq

structure ChunkTask (Key Data : Type) where
  rows : List (Key × Data)
  phase : ChunkPhase Key Data
  deriving DecidableEq

/-- The sink begins to write a chunk, applies a row to its table, or has written the whole chunk. -/
inductive WriteEvent (Key Data : Type) where
  | began (segment chunk : Nat)
  | applied (segment : Nat) (op : InsertOp) (row : Key × Data) (createdAt : Int)
  | completed (segment chunk : Nat)
  deriving DecidableEq

/-- `started` counts the segments that were started, `op` and `tasks` belong to the last one of them, and
`borrowed` counts the global permits that the tasks of other tables hold. -/
structure SegmentWrites (Key Data : Type) where
  remaining : List (OpSegment Key Data)
  started : Nat
  op : InsertOp
  tasks : List (ChunkTask Key Data)
  tableFree : Nat
  globalFree : Nat
  borrowed : Nat
  result : Option (Except String Unit)
  log : List (WriteEvent Key Data)

def SegmentWrites.new (limits : SinkLimits) (segments : List (OpSegment Key Data)) : SegmentWrites Key Data :=
  ⟨segments, 0, .insert, [], limits.sinkParallelismPerTable, limits.globalPermits, 0, none, []⟩

/-- The function starts a segment, joins a chunk task or returns, a chunk task takes a step, or a task of
another table takes or gives back a global permit. The sink applies the rows of a chunk in any order. -/
inductive WriteAction where
  | startSegment
  | acquireTable (chunk : Nat)
  | acquireGlobal (chunk : Nat)
  | apply (chunk row : Nat)
  | complete (chunk : Nat)
  | fail (chunk : Nat) (message : String)
  | join (chunk : Nat)
  | finish
  | borrow
  | giveBack

namespace SegmentWrites

/-- A task moves on to another phase. -/
def advance (writes : SegmentWrites Key Data) (chunk : Nat) (phase : ChunkPhase Key Data) :
    SegmentWrites Key Data :=
  { writes with tasks := writes.tasks.modify chunk fun task => { task with phase } }

def record (writes : SegmentWrites Key Data) (event : WriteEvent Key Data) : SegmentWrites Key Data :=
  { writes with log := writes.log ++ [event] }

/-- The permits of a task are given back. -/
def release (writes : SegmentWrites Key Data) (table global : Nat) : SegmentWrites Key Data :=
  { writes with tableFree := writes.tableFree + table, globalFree := writes.globalFree + global }

/-- The segment is `started - 1` while its tasks run. -/
def segment (writes : SegmentWrites Key Data) : Nat := writes.started - 1

end SegmentWrites

/-- One step of the function, of a chunk task or of another table. -/
def segmentWriteStep (limits : SinkLimits) (batchTs : Int) (writes : SegmentWrites Key Data) (action : WriteAction) :
    Option (SegmentWrites Key Data) :=
  if writes.result.isSome then none
  else
    match action with
    | .startSegment =>
        match writes.remaining with
        | [] => none
        | segment :: remaining =>
            if writes.tasks.all fun task => task.phase matches .joined then
              some { writes with
                remaining
                started := writes.started + 1
                op := segment.op
                tasks := (sinkChunks limits.sinkChunkRows segment).map fun rows => ⟨rows, .waiting⟩ }
            else none
    | .acquireTable chunk =>
        match writes.tasks[chunk]? with
        | some ⟨_, .waiting⟩ =>
            if 0 < writes.tableFree then
              some { writes.advance chunk .permitted with tableFree := writes.tableFree - 1 }
            else none
        | _ => none
    | .acquireGlobal chunk =>
        match writes.tasks[chunk]? with
        | some ⟨rows, .permitted⟩ =>
            if 0 < writes.globalFree then
              some ({ writes.advance chunk (.writing rows) with globalFree := writes.globalFree - 1 }.record
                (.began writes.segment chunk))
            else none
        | _ => none
    | .apply chunk row =>
        match writes.tasks[chunk]? with
        | some ⟨_, .writing rest⟩ =>
            (rest[row]?).map fun applied => (writes.advance chunk (.writing (rest.eraseIdx row))).record
              (.applied writes.segment writes.op applied batchTs)
        | _ => none
    | .complete chunk =>
        match writes.tasks[chunk]? with
        | some ⟨_, .writing []⟩ =>
            some (((writes.advance chunk .done).release 1 1).record (.completed writes.segment chunk))
        | _ => none
    | .fail chunk message =>
        match writes.tasks[chunk]? with
        | some ⟨rows, .waiting⟩ => some (writes.advance chunk (.failed message rows))
        | some ⟨rows, .permitted⟩ => some ((writes.advance chunk (.failed message rows)).release 1 0)
        | some ⟨_, .writing rest⟩ => some ((writes.advance chunk (.failed message rest)).release 1 1)
        | _ => none
    | .join chunk =>
        match writes.tasks[chunk]? with
        | some ⟨_, .done⟩ => some (writes.advance chunk .joined)
        | some ⟨_, .failed message _⟩ => some { writes with result := some (.error message) }
        | _ => none
    | .finish =>
        if writes.remaining.isEmpty && writes.tasks.all fun task => task.phase matches .joined then
          some { writes with result := some (.ok ()) }
        else none
    | .borrow =>
        if 0 < writes.globalFree then
          some { writes with globalFree := writes.globalFree - 1, borrowed := writes.borrowed + 1 }
        else none
    | .giveBack =>
        if 0 < writes.borrowed then
          some { writes with globalFree := writes.globalFree + 1, borrowed := writes.borrowed - 1 }
        else none

/-- The writes of one batch as a machine. -/
def writeMachine (limits : SinkLimits) (batchTs : Int) : Machine (SegmentWrites Key Data) WriteAction where
  step := segmentWriteStep limits batchTs
  admits _ := True

/-- The table has a cell for each key, and a row changes the cell of its own key only. -/
def applyRow {Cell : Type} [DecidableEq Key] (effect : InsertOp → Key × Data → Int → Cell → Cell) (batchTs : Int)
    (op : InsertOp) (table : Key → Cell) (row : Key × Data) : Key → Cell :=
  Function.update table row.1 (effect op row batchTs (table row.1))

/-- The table after the recorded rows. -/
def applyEvents {Cell : Type} [DecidableEq Key] (effect : InsertOp → Key × Data → Int → Cell → Cell) :
    (Key → Cell) → List (WriteEvent Key Data) → Key → Cell :=
  List.foldl fun table event => match event with
    | .applied _ op row createdAt => applyRow effect createdAt op table row
    | _ => table

/-- The rows are applied one at a time, in the order of the segments. -/
def replaySegments {Cell : Type} [DecidableEq Key] (effect : InsertOp → Key × Data → Int → Cell → Cell)
    (batchTs : Int) : (Key → Cell) → List (OpSegment Key Data) → Key → Cell :=
  List.foldl fun table segment => segment.rows.foldl (applyRow effect batchTs segment.op) table

end Spicebench.Etl
