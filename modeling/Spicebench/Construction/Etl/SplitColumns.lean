/-
This file embeds the split of a batch into operation segments column by column: the rows are sorted through
an array of positions, and the runs of the `_op` column cut slices out of the other columns.
-/

import Spicebench.Construction.Etl.Segments

namespace Spicebench.Etl

open DataGeneration

variable {Key Data : Type}

/-- The two internal columns, and the rows of the other columns. -/
structure Columns (Key Data : Type) where
  op : List (Option Op)
  opIndex : List Int
  projected : List (Key × Data)

def columns (batch : RecordBatch Key Data) : Columns Key Data where
  op := batch.rows.map Row.op
  opIndex := batch.rows.map Row.opIndex
  projected := stripInternalColumns batch.rows

/-- `sort_to_indices` lists the positions of a column in the order of its values, and leaves the order of
equal values open. -/
structure IndexSort where
  sortToIndices : List Int → List Nat
  perm : ∀ column, (sortToIndices column).Perm (List.range column.length)
  sorted : ∀ column, ((sortToIndices column).filterMap (column[·]?)).Pairwise (· ≤ ·)

/-- The values of a column at some positions. -/
def takeIndices {Value : Type} (column : List Value) (indices : List Nat) : List Value :=
  indices.filterMap (column[·]?)

def Columns.take (columns : Columns Key Data) (indices : List Nat) : Columns Key Data where
  op := takeIndices columns.op indices
  opIndex := takeIndices columns.opIndex indices
  projected := takeIndices columns.projected indices

/-- A null slot of a string array reads as the empty text. -/
def Columns.opValue (columns : Columns Key Data) (position : Nat) : Op :=
  ((columns.op[position]?).getD none).getD (.other "")

def Columns.slice (columns : Columns Key Data) (start length : Nat) : List (Key × Data) :=
  (columns.projected.drop start).take length

/-- The local variables of the loop over the runs. -/
structure RunScan (Key Data : Type) where
  segments : List (OpSegment Key Data)
  runStart : Nat
  currentOp : Op

/-- The current run ends before this position. -/
def RunScan.flush (columns : Columns Key Data) (keyColumns : List String) (scan : RunScan Key Data)
    (position : Nat) : List (OpSegment Key Data) :=
  scan.segments ++ [⟨opStrToInsertOp scan.currentOp keyColumns,
    columns.slice scan.runStart (position - scan.runStart)⟩]

def RunScan.step (columns : Columns Key Data) (keyColumns : List String) (scan : RunScan Key Data)
    (position : Nat) : RunScan Key Data :=
  if columns.opValue position ≠ scan.currentOp then
    ⟨scan.flush columns keyColumns position, position, columns.opValue position⟩
  else scan

/-- The sorted columns are cut at each change of the operation. -/
def splitColumnsByOp (sort : IndexSort) (batch : RecordBatch Key Data) (keyColumns : List String) :
    List (OpSegment Key Data) :=
  if batch.schema.hasOp then
    let original := columns batch
    let sorted := if batch.schema.hasOpIndex then original.take (sort.sortToIndices original.opIndex)
      else original
    let numRows := sorted.projected.length
    if numRows = 0 then []
    else
      let scan := (List.range' 1 (numRows - 1)).foldl (RunScan.step sorted keyColumns) ⟨[], 0, sorted.opValue 0⟩
      scan.flush sorted keyColumns numRows
  else [⟨.insert, (columns batch).projected⟩]

/-- The fast path of an insert-only batch does not sort. -/
def buildSegmentsFromColumns (sort : IndexSort) (batch : RecordBatch Key Data) (keyColumns : List String)
    (mutations : MutationConfig) : List (OpSegment Key Data) :=
  if batchIsInsertOnly batch mutations then [⟨.insert, (columns batch).projected⟩]
  else splitColumnsByOp sort batch keyColumns

end Spicebench.Etl
