/-
This file embeds the integer sequence dataset: one table with sequential ids as keys.
-/

import Spicebench.Construction.Dataset.Generator
import Spicebench.Construction.Dataset.KeySet

namespace Spicebench.DataGeneration

open Library

structure SimpleSequenceDataset where
  batchSize : Nat
  numSteps : UInt16
  mutations : MutationConfig

def SimpleSequenceDataset.new (scaleFactor : F64) (numSteps : UInt16) (mutations : MutationConfig) :
    SimpleSequenceDataset :=
  ⟨(scaleFactor * .finite 1000).toUsize, numSteps, mutations⟩

structure SequenceState where
  currentOffset : Int
  remainingSteps : UInt16
  keySet : IndexedKeySet Int
  opCounter : Int

/-- One call draws positions and the new values of its updates. -/
structure SequenceDraws extends PositionDraw where
  value : Nat → Fin 1000000

/-- The cap scales both numbers down to the distinct keys that exist. -/
def capToExisting (existingCount : Nat) (planned : Nat × Nat) : Nat × Nat :=
  if existingCount < planned.1 + planned.2 then
    let scale := F64.ofNat existingCount / F64.ofNat (planned.1 + planned.2)
    ((F64.ofNat planned.1 * scale).floor.toUsize, (F64.ofNat planned.2 * scale).floor.toUsize)
  else planned

namespace SimpleSequenceDataset

variable (dataset : SimpleSequenceDataset)

/-- The first batch has creates only. -/
def operationCounts (existingCount : Nat) : Nat × Nat × Nat :=
  let totalRows := dataset.batchSize
  if existingCount = 0 then (totalRows, 0, 0)
  else
    let (numUpdates, numDeletes) := capToExisting existingCount
      ((F64.ofNat totalRows * dataset.mutations.updateRatio).round.toUsize,
        (F64.ofNat totalRows * dataset.mutations.deleteRatio).round.toUsize)
    (totalRows - (numUpdates + numDeletes), numUpdates, numDeletes)

/-- New rows take the next ids, and their values follow from the ids. -/
def newRows (idOffset : Int) (numCreates : Nat) : List (Int × Option Int) :=
  (List.range numCreates).map fun (index : Nat) => (idOffset + index, some ((idOffset + index) * 10))

/-- The counters advance by the batch size and the creates, whatever the batch holds. -/
def rawNextBatch (state : SequenceState) (_table : Unit) (draws : SequenceDraws) :
    NextBatch Int (Option Int) × SequenceState :=
  if state.remainingSteps = 0 then (.ok none, state)
  else
    let remainingSteps := state.remainingSteps - 1
    let (numCreates, numUpdates, numDeletes) := dataset.operationCounts state.keySet.len
    let mutationKeys := state.keySet.sampleKeys (numUpdates + numDeletes) draws.toPositionDraw
    if mutationKeys.length < numUpdates then (.error .panicked, { state with remainingSteps })
    else
      let updateKeys := mutationKeys.take numUpdates
      let deleteKeys := mutationKeys.drop numUpdates
      let creates := newRows state.currentOffset numCreates
      let updates := withData updateKeys fun index => some ((draws.value index).val : Int)
      let deletes := deleteKeys.map fun key => (key, (none : Option Int))
      let registered := (creates.map Prod.fst).foldl IndexedKeySet.insert state.keySet
      (.ok (some (Changes.batch ⟨creates, updates, deletes⟩ state.opCounter)),
        { currentOffset := state.currentOffset + numCreates
          remainingSteps
          keySet := deleteKeys.foldl IndexedKeySet.remove registered
          opCounter := state.opCounter + dataset.batchSize })

def simpleSequence : Dataset Unit SequenceState SequenceDraws Int (Option Int) where
  new := ⟨0, dataset.numSteps, IndexedKeySet.new, 0⟩
  rawNextBatch := dataset.rawNextBatch

end SimpleSequenceDataset

end Spicebench.DataGeneration
