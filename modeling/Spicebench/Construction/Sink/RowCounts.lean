/-
This file embeds the row counters of the ADBC sink, which concurrent writes share: a map behind a lock, with one atomic
counter for each table.
-/

import Spicebench.Construction.Etl.Segments
import Spicebench.Library.Machine

namespace Spicebench.Sink

open Library Etl

/-- What a write counts once its batch is in the target. -/
structure CountCall where
  table : String
  op : InsertOp
  rowsCurrent : UInt64
  deriving DecidableEq, Repr

/-- This is `saturating_sub`. -/
def saturatingSub (value rows : UInt64) : UInt64 := if rows ≤ value then value - rows else 0

/-- A write looks its counter up, or creates it, and applies its rows; an exchange holds the value seen last. -/
inductive CountPhase where
  | lookup
  | createEntry
  | apply
  | exchange (current : UInt64)
  | returned (rowsTotal : UInt64)
  deriving DecidableEq, Repr

structure RowCounts (Call : Type) where
  rowCounts : String → Option UInt64
  calls : Call → Option (CountCall × CountPhase)

def RowCounts.new (Call : Type) : RowCounts Call := ⟨fun _ => none, fun _ => none⟩

/-- A load may see an old value of a counter, and an exchange may fail for no reason. -/
inductive CountAction (Call : Type) where
  | write (id : Call) (call : CountCall)
  | advance (id : Call) (observed : UInt64) (exchanged : Bool)

/-- One atomic step of a write: an insert adds, a delete exchanges until it succeeds, and an update only reads. -/
def advanceCount (rowCounts : String → Option UInt64) (call : CountCall) (observed : UInt64) (exchanged : Bool) :
    CountPhase → Option ((String → Option UInt64) × CountPhase)
  | .lookup => some (rowCounts, if (rowCounts call.table).isSome then .apply else .createEntry)
  | .createEntry =>
      some (Function.update rowCounts call.table (some ((rowCounts call.table).getD 0)), .apply)
  | .apply =>
      (rowCounts call.table).map fun value =>
        match call.op with
        | .insert =>
            let total := value + call.rowsCurrent
            (Function.update rowCounts call.table (some total), .returned total)
        | .delete _ => (rowCounts, .exchange observed)
        | .update _ => (rowCounts, .returned observed)
  | .exchange current =>
      (rowCounts call.table).bind fun value =>
        let updated := saturatingSub current call.rowsCurrent
        if exchanged then
          if value = current then
            some (Function.update rowCounts call.table (some updated), .returned updated)
          else none
        else some (rowCounts, .exchange observed)
  | .returned _ => none

variable {Call : Type} [DecidableEq Call]

def countStep (state : RowCounts Call) : CountAction Call → Option (RowCounts Call)
  | .write id call =>
      match state.calls id with
      | none => some { state with calls := Function.update state.calls id (some (call, .lookup)) }
      | some _ => none
  | .advance id observed exchanged =>
      (state.calls id).bind fun (call, phase) =>
        (advanceCount state.rowCounts call observed exchanged phase).map fun (rowCounts, phase) =>
          ⟨rowCounts, Function.update state.calls id (some (call, phase))⟩

/-- Any number of writes count at the same time. -/
def countMachine (Call : Type) [DecidableEq Call] : Machine (RowCounts Call) (CountAction Call) where
  step := countStep
  admits _ := True

end Spicebench.Sink
