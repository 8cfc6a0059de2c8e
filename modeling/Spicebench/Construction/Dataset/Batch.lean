/-
This file defines change rows, record batches and the mutation configuration.
-/

import Spicebench.Library.Binary64

namespace Spicebench.DataGeneration

open Library

/-- The `_op` column holds `c`, `u`, `d` or some other text. -/
inductive Op where
  | create
  | update
  | delete
  | other (text : String)
  deriving DecidableEq, Repr

/-- A change row names its primary key, and a null `_op` is `none`. -/
structure Row (Key Data : Type) where
  key : Key
  data : Data
  op : Option Op
  opIndex : Int
  deriving DecidableEq, Repr

/-- The schema says which of the two internal columns a batch has. -/
structure Schema where
  hasOp : Bool
  hasOpIndex : Bool
  deriving DecidableEq, Repr

/-- The generated tables carry `_op` and `_op_index`. -/
def changeSchema : Schema := ⟨true, true⟩

structure RecordBatch (Key Data : Type) where
  schema : Schema
  rows : List (Row Key Data)
  deriving DecidableEq, Repr

def RecordBatch.numRows {Key Data : Type} (batch : RecordBatch Key Data) : Nat := batch.rows.length

structure MutationConfig where
  updateRatio : F64
  deleteRatio : F64
  bootstrap : Bool
  numMutationSteps : UInt16
  churnFraction : F64
  deriving DecidableEq, Repr

/-- The constructor panics, here `none`, when the ratios sum to more than one. -/
def MutationConfig.new (updateRatio deleteRatio : F64) : Option MutationConfig :=
  if (updateRatio + deleteRatio).exceeds 1 then none
  else some ⟨updateRatio, deleteRatio, false, 0, .finite 0⟩

def MutationConfig.withBootstrap (config : MutationConfig) (numMutationSteps : UInt16)
    (churnFraction : F64) : MutationConfig :=
  { config with bootstrap := true, numMutationSteps, churnFraction }

/-- Both ratios equal zero. -/
def MutationConfig.zeroRatios (config : MutationConfig) : Bool :=
  config.updateRatio.isZero && config.deleteRatio.isZero

theorem MutationConfig.zeroRatios_iff {config : MutationConfig} :
    config.zeroRatios = true ↔ config.updateRatio = .finite 0 ∧ config.deleteRatio = .finite 0 := by
  rw [zeroRatios, Bool.and_eq_true, F64.isZero_iff, F64.isZero_iff]

end Spicebench.DataGeneration
