/-
This file embeds the updates that the ADBC sink makes side by side through staging tables.
-/

import Spicebench.Construction.Sink.Ingest
import Spicebench.Construction.Sink.Statements
import Spicebench.Library.Machine
import Mathlib.Data.List.FinRange
import Mathlib.Logic.Function.Basic

namespace Spicebench.Sink

open Library

/-- Empty names of a catalog or a schema are left out. -/
def AdbcTarget.targetTableIdentifier (sink : AdbcTarget) (quoteChar : Char) (tableName : String) : String :=
  joined "." ((nonEmpty sink.targetDbCatalog).toList.map (quoteIdent · quoteChar) ++
    (nonEmpty sink.targetDbSchema).toList.map (quoteIdent · quoteChar) ++ [quoteIdent tableName quoteChar])

/-- The target has a table of some names. -/
abbrev Database (Value : Type) := String → Option (List (TableRow Value))

/-- The chunks of one segment are written by as many calls. -/
structure StagingUpdate (Value : Type) (count : Nat) where
  target : AdbcTarget
  identifierQuoteChar : Char
  stagingAdapter : Bool
  tableName : String
  keyColumns : List String
  batches : Fin count → CellBatch Value

/-- A call names its staging table, fills it with what is left of its batch, merges and drops it, and returns. -/
inductive MergePhase (Value : Type) where
  | waiting
  | named (staging : String)
  | ingesting (staging : String) (rest : List (TableRow Value))
  | dropping (staging : String) (result : Except String Unit)
  | returned (result : Except String Unit)

namespace MergePhase

variable {Value : Type}

/-- The staging table that the call still uses. -/
def staging? : MergePhase Value → Option String
  | waiting => none
  | named staging => some staging
  | ingesting staging _ => some staging
  | dropping staging _ => some staging
  | returned _ => none

/-- The `MERGE` of the call has gone through. -/
def merged : MergePhase Value → Bool
  | dropping _ (.ok ()) => true
  | returned (.ok ()) => true
  | _ => false

end MergePhase

structure MergeState (Value : Type) (count : Nat) where
  database : Database Value
  phases : Fin count → MergePhase Value

/-- The target and the system adapter answer the step of a call; an answer to a creation may leave an empty table. -/
inductive MergeAction (count : Nat) where
  | start (call : Fin count) (millis : Nat)
  | create (call : Fin count) (emptied : Bool) (answer : Except String Unit)
  | ingest (call : Fin count) (taken : Nat)
  | failIngest (call : Fin count) (message : String)
  | merge (call : Fin count) (answer : Except String Unit)
  | drop (call : Fin count) (answer : Except String Unit)

namespace MergeState

variable {Value : Type} {count : Nat}

/-- The calls have been spawned, and none has taken a step. -/
def spawned (database : Database Value) : MergeState Value count := ⟨database, fun _ => .waiting⟩

def move (state : MergeState Value count) (call : Fin count) (phase : MergePhase Value) : MergeState Value count :=
  { state with phases := Function.update state.phases call phase }

def store (state : MergeState Value count) (name : String) (rows : Option (List (TableRow Value))) :
    MergeState Value count :=
  { state with database := Function.update state.database name rows }

end MergeState

def stagingTable (tableName : String) (millis : Nat) : String := s!"_spicebench_stg_{tableName}_{millis}"

namespace StagingUpdate

variable {Value : Type} [DecidableEq Value] {count : Nat} (update : StagingUpdate Value count)

omit [DecidableEq Value] in
/-- The `MERGE` of a call is built from the schema of its own batch. -/
def mergeSql (call : Fin count) (staging : String) : Except String (Statement Value) :=
  let identifier := update.target.targetTableIdentifier update.identifierQuoteChar
  stagingMergeSql (update.batches call) update.tableName (identifier update.tableName) (identifier staging)
    update.keyColumns

/-- What the `MERGE` of a call makes of the two tables, unless the target rejects it. -/
def mergeRows (call : Fin count) (staging : String) (staged table : List (TableRow Value)) :
    Option (List (TableRow Value)) :=
  match update.mergeSql call staging with
  | .error _ => none
  | .ok merge => merge.execute staged table

/-- The rows go into a table that is there already, or into a new one; a `MERGE` needs both of its tables. -/
def step (state : MergeState Value count) : MergeAction count → Option (MergeState Value count)
  | .start call millis =>
      let staging := stagingTable update.tableName millis
      match state.phases call with
      | .waiting =>
          match update.mergeSql call staging with
          | .error message => some (state.move call (.returned (.error message)))
          | .ok _ =>
              if update.stagingAdapter then some (state.move call (.named staging))
              else some (state.move call (.ingesting staging (update.batches call).staged))
      | _ => none
  | .create call emptied answer =>
      match state.phases call with
      | .named staging =>
          let created := if emptied then state.store staging (some []) else state
          match answer with
          | .ok () => some (created.move call (.ingesting staging (update.batches call).staged))
          | .error message => some (created.move call (.returned (.error
              s!"Failed to create staging table '{staging}' for '{update.tableName}': {message}")))
      | _ => none
  | .ingest call taken =>
      match state.phases call with
      | .ingesting staging rest =>
          let rows := (state.database staging).getD [] ++ rest.take taken
          some ((state.store staging (some rows)).move call (.ingesting staging (rest.drop taken)))
      | _ => none
  | .failIngest call message =>
      match state.phases call with
      | .ingesting staging _ => some (state.move call (.dropping staging (.error
          s!"Failed to ingest update data into staging table '{staging}': {message}")))
      | _ => none
  | .merge call answer =>
      match state.phases call with
      | .ingesting staging [] =>
          match answer with
          | .error message => some (state.move call (.dropping staging (.error
              s!"MERGE INTO update failed for '{update.tableName}': {message}")))
          | .ok () => do
              let staged ← state.database staging
              let table ← state.database update.tableName
              let rows ← update.mergeRows call staging staged table
              return (state.store update.tableName (some rows)).move call (.dropping staging (.ok ()))
      | _ => none
  | .drop call answer =>
      match state.phases call with
      | .dropping staging result =>
          match answer with
          | .ok () => some ((state.store staging none).move call (.returned result))
          | .error _ => some (state.move call (.returned result))
      | _ => none

def machine : Machine (MergeState Value count) (MergeAction count) where
  step := update.step
  admits _ := True

omit [DecidableEq Value] in
/-- The name that a call takes is neither that of a table nor that of another running call. -/
def fresh (state : MergeState Value count) : MergeAction count → Bool
  | .start _ millis =>
      let staging := stagingTable update.tableName millis
      (state.database staging).isNone &&
        (List.finRange count).all fun other => (state.phases other).staging? ≠ some staging
  | _ => true

omit [DecidableEq Value] in
/-- These are the steps of a call that nothing fails. -/
def callSteps (clock : Fin count → Nat) (call : Fin count) : List (MergeAction count) :=
  .start call (clock call) :: ((if update.stagingAdapter then [.create call true (.ok ())] else []) ++
    [.ingest call (update.batches call).rows.length, .merge call (.ok ()), .drop call (.ok ())])

omit [DecidableEq Value] in
/-- The calls are run one after the other. -/
def inTurn (clock : Fin count → Nat) (order : List (Fin count)) : List (MergeAction count) :=
  order.flatMap (update.callSteps clock)

omit [DecidableEq Value] in
/-- No two batches have a key in common. -/
def Disjoint : Prop :=
  ∀ one other, one ≠ other → ∀ first ∈ (update.batches one).staged, ∀ second ∈ (update.batches other).staged,
    update.keyColumns.map first ≠ update.keyColumns.map second

end StagingUpdate

end Spicebench.Sink
