/-
This file embeds the coalescing of source batches and their split into operation segments.
-/

import Mathlib.Data.List.Pairwise
import Mathlib.Data.List.Sort
import Mathlib.Data.List.Perm.Basic
import Spicebench.Construction.Dataset.Batch

namespace Spicebench.Etl

open DataGeneration

variable {Key Data : Type}

/-- The slices have `size` elements each, except a shorter last one. -/
def slicesFrom {Item : Type} (size : Nat) : Nat → List Item → List (List Item)
  | 0, _ => []
  | fuel + 1, items =>
      if items.isEmpty then [] else items.take size :: slicesFrom size fuel (items.drop size)

def slices {Item : Type} (size : Nat) (items : List Item) : List (List Item) :=
  slicesFrom size items.length items

/-- The accumulator of `coalesce_batches`. -/
structure Coalescing (Key Data : Type) where
  result : List (RecordBatch Key Data)
  pending : List (List (Row Key Data))
  pendingRows : Nat

/-- The pending chunks become one output batch. -/
def Coalescing.flush (schema : Schema) (state : Coalescing Key Data) : Coalescing Key Data :=
  ⟨state.result ++ [⟨schema, state.pending.flatten⟩], [], 0⟩

/-- A full chunk with nothing pending passes through, and any other chunk joins the pending ones. -/
def Coalescing.add (schema : Schema) (target : Nat) (state : Coalescing Key Data)
    (chunk : List (Row Key Data)) : Coalescing Key Data :=
  if chunk.length = target ∧ state.pendingRows = 0 then
    { state with result := state.result ++ [⟨schema, chunk⟩] }
  else
    let state : Coalescing Key Data :=
      { state with pending := state.pending ++ [chunk], pendingRows := state.pendingRows + chunk.length }
    if state.pendingRows = target then state.flush schema else state

/-- One pass of the inner loop takes one chunk of at most `target` rows. -/
def Coalescing.take (schema : Schema) (target : Nat) (state : Coalescing Key Data)
    (chunk : List (Row Key Data)) : Coalescing Key Data :=
  let state := if 0 < state.pendingRows ∧ target < state.pendingRows + chunk.length
    then state.flush schema else state
  state.add schema target chunk

def coalesceBatches (target : Nat) (batches : List (RecordBatch Key Data)) :
    List (RecordBatch Key Data) :=
  match batches with
  | [] => []
  | first :: _ =>
      let chunks := batches.flatMap fun batch => slices target batch.rows
      let state := chunks.foldl (Coalescing.take first.schema target) ⟨[], [], 0⟩
      if state.pending.isEmpty then state.result else (state.flush first.schema).result

/-- The sink receives one of three operations. -/
inductive InsertOp where
  | insert
  | update (keyColumns : List String)
  | delete (keyColumns : List String)
  deriving DecidableEq, Repr

/-- A segment holds the key and data of its rows, without the internal columns. -/
structure OpSegment (Key Data : Type) where
  op : InsertOp
  rows : List (Key × Data)
  deriving DecidableEq, Repr

def stripInternalColumns (rows : List (Row Key Data)) : List (Key × Data) :=
  rows.map fun row => (row.key, row.data)

/-- `sort_to_indices` on `_op_index` orders the rows, and leaves the order of equal indices open. -/
structure OpIndexSort (Key Data : Type) where
  sort : List (Row Key Data) → List (Row Key Data)
  perm : ∀ rows, (sort rows).Perm rows
  sorted : ∀ rows, (sort rows).Pairwise (fun first second => first.opIndex ≤ second.opIndex)

/-- The stable sort is one such sort. -/
def OpIndexSort.stable : OpIndexSort Key Data where
  sort := List.insertionSort fun first second => first.opIndex ≤ second.opIndex
  perm := List.perm_insertionSort _
  sorted rows := by
    have total : Std.Total fun (first second : Row Key Data) => first.opIndex ≤ second.opIndex :=
      ⟨fun first second => le_total first.opIndex second.opIndex⟩
    have trans : IsTrans (Row Key Data) fun first second => first.opIndex ≤ second.opIndex :=
      ⟨fun _ _ _ => le_trans⟩
    exact List.pairwise_insertionSort _ rows

def batchIsInsertOnly (batch : RecordBatch Key Data) (mutations : MutationConfig) : Bool :=
  mutations.zeroRatios || !batch.schema.hasOp || batch.rows.all fun row => row.op = some .create

/-- A null slot of a string array reads as the empty text. -/
def opValue (row : Row Key Data) : Op := row.op.getD (.other "")

def opStrToInsertOp (op : Op) (keyColumns : List String) : InsertOp :=
  match op with
  | .update => .update keyColumns
  | .delete => .delete keyColumns
  | _ => .insert

/-- The runs are the maximal blocks of consecutive rows with one `_op` value. -/
def opRuns : List (Row Key Data) → List (Op × List (Row Key Data))
  | [] => []
  | row :: rest =>
      match opRuns rest with
      | [] => [(opValue row, [row])]
      | (op, run) :: others =>
          if op = opValue row then (op, row :: run) :: others
          else (opValue row, [row]) :: (op, run) :: others

def splitBatchByOp (sort : OpIndexSort Key Data) (batch : RecordBatch Key Data)
    (keyColumns : List String) : List (OpSegment Key Data) :=
  if batch.schema.hasOp then
    let sorted := if batch.schema.hasOpIndex then sort.sort batch.rows else batch.rows
    (opRuns sorted).map fun run => ⟨opStrToInsertOp run.1 keyColumns, stripInternalColumns run.2⟩
  else [⟨.insert, stripInternalColumns batch.rows⟩]

def buildSegmentsForBatch (sort : OpIndexSort Key Data) (batch : RecordBatch Key Data)
    (keyColumns : List String) (mutations : MutationConfig) : List (OpSegment Key Data) :=
  if batchIsInsertOnly batch mutations then [⟨.insert, stripInternalColumns batch.rows⟩]
  else splitBatchByOp sort batch keyColumns

/-- Inserts add rows, deletes remove rows, and updates keep the count. -/
def OpSegment.netRows (segment : OpSegment Key Data) : Int :=
  match segment.op with
  | .insert => segment.rows.length
  | .update _ => 0
  | .delete _ => -(segment.rows.length : Int)

def netDelta (segments : List (OpSegment Key Data)) : Int := (segments.map OpSegment.netRows).sum

/-- The chunks of one segment are written concurrently, and a zero chunk size turns chunking off. -/
def sinkChunks (chunkRows : Nat) (segment : OpSegment Key Data) : List (List (Key × Data)) :=
  if 0 < chunkRows ∧ chunkRows < segment.rows.length then slices chunkRows segment.rows
  else [segment.rows]

end Spicebench.Etl
