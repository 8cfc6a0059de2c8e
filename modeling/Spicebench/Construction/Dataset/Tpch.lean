/-
This file embeds the TPC-H dataset: part slices as creates, and mutations sampled from live keys.
-/

import Spicebench.Construction.Dataset.Generator
import Spicebench.Construction.Dataset.KeySet

namespace Spicebench.DataGeneration

open Library

inductive TpchTable where
  | region
  | nation
  | supplier
  | customer
  | part
  | partsupp
  | orders
  | lineitem
  deriving DecidableEq, Repr

namespace TpchTable

def sf1RowCount : TpchTable → Nat
  | .region => 5
  | .nation => 25
  | .supplier => 10000
  | .customer => 150000
  | .part => 200000
  | .partsupp => 800000
  | .orders => 1500000
  | .lineitem => 6001215

/-- The dimension tables are emitted once. -/
def isDim (table : TpchTable) : Bool := table = .region || table = .nation

def totalRowsForTable (table : TpchTable) (scaleFactor : F64) : Nat :=
  if table.isDim then table.sf1RowCount
  else (F64.ofNat table.sf1RowCount * scaleFactor).round.toUsize

end TpchTable

/-- The external row generator gives the rows of one part out of a number of parts, and a deleted
row has nulls outside its key. -/
structure TpchGen (Key Data : Type) where
  rows : TpchTable → F64 → Nat → Nat → List (Key × Data)
  nullData : Data

/-- One call draws positions, two jittered counts and the data of its updates. -/
structure TpchDraws (Data : Type) extends PositionDraw where
  updateJitter : Nat → Nat → Nat
  deleteJitter : Nat → Nat → Nat
  updateJitter_mem : ∀ low high, low ≤ high →
    low ≤ updateJitter low high ∧ updateJitter low high ≤ high
  deleteJitter_mem : ∀ low high, low ≤ high →
    low ≤ deleteJitter low high ∧ deleteJitter low high ≤ high
  data : Nat → Data

structure TpchDataset where
  scaleFactor : F64
  numSteps : UInt16
  mutations : MutationConfig

/-- Each table counts its own calls and keeps its own live keys. -/
structure TableProgress (Key : Type) where
  step : UInt16
  keySet : IndexedKeySet Key

structure TpchState (Key : Type) where
  tables : TpchTable → TableProgress Key
  opCounter : Int

variable {Key Data : Type}

/-- One arrow batch holds at most `total_rows_for_table` rows, and only the first one is taken. -/
def generateRawBatch (gen : TpchGen Key Data) (table : TpchTable) (scaleFactor : F64)
    (part partCount : Nat) : List (Key × Data) :=
  (gen.rows table scaleFactor part partCount).take (table.totalRowsForTable scaleFactor)

/-- The jittered count lies within a quarter of the base. -/
def jitter (draw : Nat → Nat → Nat) (base : Nat) : Nat :=
  if base = 0 then 0
  else
    let low := (F64.ofNat base * .finite (3 / 4)).floor.toUsize
    let high := (F64.ofNat base * .finite (5 / 4)).ceil.toUsize
    draw low (max high low)

namespace TpchDataset

variable (dataset : TpchDataset)

/-- The bootstrap mode appends the mutation steps, with a saturating sum. -/
def totalSteps (table : TpchTable) : Nat :=
  if dataset.mutations.bootstrap && !table.isDim then
    min (dataset.numSteps.toNat + dataset.mutations.numMutationSteps.toNat) (2 ^ 16 - 1)
  else if table.isDim then 1
  else dataset.numSteps.toNat

def inMutationPhase (table : TpchTable) (currentStep : Nat) : Bool :=
  dataset.mutations.bootstrap && !table.isDim && decide (dataset.numSteps.toNat ≤ currentStep)

/-- The parts are numbered from one. -/
def partOf (table : TpchTable) (currentStep : Nat) : Nat × Nat :=
  if table.isDim then (1, 1) else (currentStep + 1, dataset.numSteps.toNat)

/-- The creates of a base step. -/
def createsOf (gen : TpchGen Key Data) (table : TpchTable) (currentStep : Nat) : List (Key × Data) :=
  if dataset.inMutationPhase table currentStep then []
  else
    let (part, partCount) := dataset.partOf table currentStep
    generateRawBatch gen table dataset.scaleFactor part partCount

/-- A mutation step churns a fraction of the live keys, and without ratios all of it is updates. -/
def churnMutations (existingCount : Nat) : Nat × Nat :=
  let mutations := dataset.mutations
  let steps := F64.ofNat (max mutations.numMutationSteps.toNat 1)
  let perStep := (F64.ofNat existingCount * mutations.churnFraction / steps).round.toUsize
  let ratioTotal := mutations.updateRatio + mutations.deleteRatio
  let updWeight := if ratioTotal.exceeds 0 then mutations.updateRatio / ratioTotal else .finite 1
  let numUpdates := (F64.ofNat perStep * updWeight).round.toUsize
  (numUpdates, perStep - numUpdates)

/-- The numbers of updates and deletes before the cap. -/
def plannedMutations (draws : TpchDraws Data) (inMutationPhase : Bool)
    (existingCount numCreates : Nat) : Nat × Nat :=
  let mutations := dataset.mutations
  if mutations.bootstrap && !inMutationPhase then (0, 0)
  else if inMutationPhase then dataset.churnMutations existingCount
  else
    let baseUpdates := (F64.ofNat numCreates * mutations.updateRatio).round.toUsize
    let baseDeletes := (F64.ofNat numCreates * mutations.deleteRatio).round.toUsize
    (jitter draws.updateJitter baseUpdates, jitter draws.deleteJitter baseDeletes)

/-- The cap scales both numbers down to the distinct keys that exist. -/
def capMutations (existingCount : Nat) (planned : Nat × Nat) : Nat × Nat :=
  if existingCount < planned.1 + planned.2 then
    let scale := F64.ofNat existingCount / F64.ofNat (max (planned.1 + planned.2) 1)
    ((F64.ofNat planned.1 * scale).floor.toUsize, (F64.ofNat planned.2 * scale).floor.toUsize)
  else planned

variable [DecidableEq Key]

/-- One call for a table: its changes, and the table's counter and keys after it. -/
def nextChanges (gen : TpchGen Key Data) (table : TpchTable) (progress : TableProgress Key)
    (draws : TpchDraws Data) : Except Failure (Option (Changes Key Data)) × TableProgress Key :=
  let currentStep := progress.step.toNat
  let step := progress.step + 1
  if dataset.totalSteps table ≤ currentStep then (.ok none, ⟨step, progress.keySet⟩)
  else
    let mutating := dataset.inMutationPhase table currentStep
    let creates := dataset.createsOf gen table currentStep
    if !mutating && creates.isEmpty then (.ok none, ⟨step, progress.keySet⟩)
    else
      let registered := (creates.map Prod.fst).foldl IndexedKeySet.insert progress.keySet
      let existingCount := registered.len
      let (numUpdates, numDeletes) := capMutations existingCount
        (dataset.plannedMutations draws mutating existingCount creates.length)
      let mutationKeys := registered.sampleKeys (numUpdates + numDeletes) draws.toPositionDraw
      if mutationKeys.length < numUpdates then (.error .panicked, ⟨step, registered⟩)
      else
        let updateKeys := mutationKeys.take numUpdates
        let deleteKeys := mutationKeys.drop numUpdates
        let keySet := deleteKeys.foldl IndexedKeySet.remove registered
        let totalRows := creates.length + numUpdates + numDeletes
        if totalRows = 0 then (.ok none, ⟨step, keySet⟩)
        else if deleteKeys.length ≠ numDeletes then
          (.error (.mismatchedColumns totalRows), ⟨step, keySet⟩)
        else
          let updates := withData updateKeys draws.data
          let deletes := deleteKeys.map fun key => (key, gen.nullData)
          (.ok (some ⟨creates, updates, deletes⟩), ⟨step, keySet⟩)

/-- The op indices of a batch are reserved before its columns are built. -/
def reservedRows : Except Failure (Option (Changes Key Data)) → Nat
  | .ok (some changes) => changes.tagged.length
  | .error (.mismatchedColumns totalRows) => totalRows
  | _ => 0

def rawNextBatch (gen : TpchGen Key Data) (state : TpchState Key) (table : TpchTable)
    (draws : TpchDraws Data) : NextBatch Key Data × TpchState Key :=
  let (outcome, progress) := dataset.nextChanges gen table (state.tables table) draws
  (outcome.map fun changes? => changes?.map fun changes => changes.batch state.opCounter,
    ⟨Function.update state.tables table progress, state.opCounter + reservedRows outcome⟩)

def tpch (gen : TpchGen Key Data) :
    Dataset TpchTable (TpchState Key) (TpchDraws Data) Key Data where
  new := ⟨fun _ => ⟨0, IndexedKeySet.new⟩, 0⟩
  rawNextBatch := dataset.rawNextBatch gen

end TpchDataset

end Spicebench.DataGeneration
