/-
This file embeds the ways in which the ADBC sink hands rows to a bulk ingest.
-/

import Mathlib.Data.List.Infix
import Mathlib.Data.String.Basic

namespace Spicebench.Sink

/-- A batch has rows of one schema. -/
structure RecordBatch (Schema Row : Type) where
  schema : Schema
  rows : List Row
  deriving DecidableEq

variable {Schema Row : Type}

def RecordBatch.numRows (batch : RecordBatch Schema Row) : Nat := batch.rows.length

def RecordBatch.slice (batch : RecordBatch Schema Row) (start length : Nat) : RecordBatch Schema Row :=
  { batch with rows := (batch.rows.drop start).take length }

/-- The options of a statement say where its rows go. -/
structure Target where
  table : String
  catalog : Option String
  schema : Option String
  deriving DecidableEq, Repr

/-- A bulk ingest was called with these batches, and the driver took them or not. -/
structure IngestCall (Schema Row : Type) where
  target : Target
  batches : List (RecordBatch Schema Row)
  accepted : Bool

/-- The driver answers a call in view of all the calls before it. -/
abbrev Driver (Schema Row : Type) :=
  List (IngestCall Schema Row) → Target → List (RecordBatch Schema Row) → Except String Unit

/-- An attempt adds its calls to the log. -/
abbrev Attempt (Schema Row : Type) :=
  List (IngestCall Schema Row) → Except String Unit × List (IngestCall Schema Row)

namespace Attempt

def done : Attempt Schema Row := fun log => (.ok (), log)

def fail (message : String) : Attempt Schema Row := fun log => (.error message, log)

/-- The second attempt is made when the first one went through. -/
def andThen (first second : Attempt Schema Row) : Attempt Schema Row := fun log =>
  match first log with
  | (.ok (), log) => second log
  | (.error message, log) => (.error message, log)

/-- The handler decides what follows an error. -/
def orElse (first : Attempt Schema Row) (handler : String → Attempt Schema Row) : Attempt Schema Row := fun log =>
  match first log with
  | (.ok (), log) => (.ok (), log)
  | (.error message, log) => handler message log

/-- The attempts are made one after the other, up to the first error. -/
def each {Item : Type} (items : List Item) (attempt : Item → Attempt Schema Row) : Attempt Schema Row :=
  items.foldr (fun item rest => (attempt item).andThen rest) done

end Attempt

/-- `bulk_ingest` and `bulk_ingest_stream` of a connection. -/
def Driver.bulkIngestStream (driver : Driver Schema Row) (target : Target)
    (batches : List (RecordBatch Schema Row)) : Attempt Schema Row := fun log =>
  match driver log target batches with
  | .ok () => (.ok (), log ++ [⟨target, batches, true⟩])
  | .error message => (.error message, log ++ [⟨target, batches, false⟩])

def usizeMax : Nat := 2 ^ 64 - 1

def saturatingMul (one other : Nat) : Nat := min (one * other) usizeMax

def approxSafeFractionNum : Nat := 8
def approxSafeFractionDen : Nat := 10
def approxLargeFractionNum : Nat := 12
def approxLargeFractionDen : Nat := 10

def approxLikelySafe (approxBytes maxBytes : Nat) : Bool :=
  approxBytes ≤ saturatingMul maxBytes approxSafeFractionNum / approxSafeFractionDen

def approxLikelyTooLarge (approxBytes maxBytes : Nat) : Bool :=
  approxBytes ≥ saturatingMul maxBytes approxLargeFractionNum / approxLargeFractionDen

/-- The size of a batch is estimated from its memory, and measured by serializing it. -/
structure Sizes (Schema Row : Type) where
  approxSerializedBatchSize : RecordBatch Schema Row → Nat
  serializedBatchSize : RecordBatch Schema Row → Except String Nat

def isMessageTooLargeError (message : String) : Bool :=
  "ResourceExhausted".toList <:+: message.toList ∨ "message larger than max".toList <:+: message.toList

/-- The inner loop of `split_for_size` halves the span until a slice is small enough. -/
def acceptedSpan (sizes : Sizes Schema Row) (batch : RecordBatch Schema Row) (maxBytes start span : Nat) :
    Except String (Option Nat) :=
  if span = 0 then .ok none
  else
    let candidateApproxBytes := saturatingMul (sizes.approxSerializedBatchSize batch) span / batch.numRows
    if approxLikelyTooLarge candidateApproxBytes maxBytes then
      acceptedSpan sizes batch maxBytes start (span / 2)
    else if approxLikelySafe candidateApproxBytes maxBytes then .ok (some span)
    else
      match sizes.serializedBatchSize (batch.slice start span) with
      | .error message => .error message
      | .ok exactSize =>
          if exactSize ≤ maxBytes then .ok (some span) else acceptedSpan sizes batch maxBytes start (span / 2)
termination_by span
decreasing_by all_goals omega

/-- An accepted slice has rows. -/
theorem acceptedSpan_bounds {sizes : Sizes Schema Row} {batch : RecordBatch Schema Row}
    {maxBytes start span accepted : Nat}
    (found : acceptedSpan sizes batch maxBytes start span = .ok (some accepted)) : 0 < accepted ∧ accepted ≤ span := by
  fun_induction acceptedSpan sizes batch maxBytes start span <;> grind

/-- The outer loop of `split_for_size` takes accepted slices from a start on. -/
def splitFrom (sizes : Sizes Schema Row) (batch : RecordBatch Schema Row) (maxBytes start : Nat) :
    Except String (List (RecordBatch Schema Row)) :=
  if start < batch.numRows then
    match _found : acceptedSpan sizes batch maxBytes start (batch.numRows - start) with
    | .error message => .error message
    | .ok none => .error
        s!"Single-row batch exceeds max ingest payload ({maxBytes} bytes). Consider increasing FlightSQL max message size."
    | .ok (some span) =>
        (splitFrom sizes batch maxBytes (start + span)).map (batch.slice start span :: ·)
  else .ok []
termination_by batch.numRows - start
decreasing_by
  have bounds := acceptedSpan_bounds _found
  omega

def splitForSize (sizes : Sizes Schema Row) (batch : RecordBatch Schema Row) (maxBytes : Nat) :
    Except String (List (RecordBatch Schema Row)) :=
  splitFrom sizes batch maxBytes 0

/-- The part of the sink that the ingests read. -/
structure AdbcTarget where
  targetDbCatalog : Option String
  targetDbSchema : Option String
  maxIngestBatchBytes : Nat

/-- An empty name counts as none. -/
def nonEmpty (name : Option String) : Option String := name.filter (· ≠ "")

namespace AdbcTarget

variable (sink : AdbcTarget) (driver : Driver Schema Row) (tableName : String)

def targetTableIngestName (tableName : String) : String := tableName

/-- The call of the worker that a reused stream feeds. -/
def reusedBulkIngestStream (batches : List (RecordBatch Schema Row)) : Attempt Schema Row :=
  let ingestTableName := targetTableIngestName tableName
  (driver.bulkIngestStream ⟨ingestTableName, sink.targetDbCatalog, sink.targetDbSchema⟩ batches).orElse fun message =>
    .fail s!"ADBC stream bulk ingest failed for source table '{tableName}' (ingest target '{ingestTableName}'): {message}"

/-- A batch that is too large is halved, down to a single row. -/
def bulkIngestWithRetry (batch : RecordBatch Schema Row) : Attempt Schema Row :=
  let ingestTableName := targetTableIngestName tableName
  let targetDbCatalog := nonEmpty sink.targetDbCatalog
  let targetDbSchema := nonEmpty sink.targetDbSchema
  let ingest : Attempt Schema Row :=
    if targetDbCatalog.isSome ∨ targetDbSchema.isSome then
      (driver.bulkIngestStream ⟨ingestTableName, targetDbCatalog, targetDbSchema⟩ [batch]).orElse fun message =>
        if isMessageTooLargeError message then .fail message
        else driver.bulkIngestStream ⟨tableName, targetDbCatalog, targetDbSchema⟩ [batch]
    else driver.bulkIngestStream ⟨tableName, targetDbCatalog, targetDbSchema⟩ [batch]
  ingest.orElse fun message =>
    if isMessageTooLargeError message then
      if batch.numRows ≤ 1 then
        .fail s!"ADBC bulk ingest failed for source table '{tableName}' (ingest target '{ingestTableName}'): single-row batch still exceeds FlightSQL message limit: {message}. Configure a larger FlightSQL max message size (e.g. adbc.flight.sql.client_option.with_max_msg_size)."
      else
        let mid := batch.numRows / 2
        (bulkIngestWithRetry (batch.slice 0 mid)).andThen
          (bulkIngestWithRetry (batch.slice mid (batch.numRows - mid)))
    else
      .fail s!"ADBC bulk ingest failed for source table '{tableName}' (ingest target '{ingestTableName}'): {message}"
termination_by batch.numRows
decreasing_by all_goals simp only [RecordBatch.slice, RecordBatch.numRows, List.length_take, List.length_drop] at *; omega

/-- The batches go out as one stream, at first without the names of the target. -/
def bulkIngestStreamForBatches (batches : List (RecordBatch Schema Row)) : Attempt Schema Row :=
  match batches with
  | [] => .done
  | batches =>
      let ingestTableName := targetTableIngestName tableName
      let targetDbCatalog := nonEmpty sink.targetDbCatalog
      let targetDbSchema := nonEmpty sink.targetDbSchema
      let ingest : Attempt Schema Row :=
        if targetDbCatalog.isSome ∨ targetDbSchema.isSome then
          (driver.bulkIngestStream ⟨ingestTableName, none, none⟩ batches).orElse fun message =>
            if isMessageTooLargeError message then .fail message
            else driver.bulkIngestStream ⟨tableName, targetDbCatalog, targetDbSchema⟩ batches
        else driver.bulkIngestStream ⟨tableName, targetDbCatalog, targetDbSchema⟩ batches
      ingest.orElse fun message =>
        if isMessageTooLargeError message then
          .each batches fun batch => sink.bulkIngestWithRetry driver tableName batch
        else
          .fail s!"ADBC stream bulk ingest failed for source table '{tableName}' (ingest target '{ingestTableName}'): {message}"

/-- A batch that is small enough goes out as it is, and a larger one in slices. -/
def ingestInsertBatch (sizes : Sizes Schema Row) (batch : RecordBatch Schema Row) : Attempt Schema Row :=
  let maxIngestBytes := sink.maxIngestBatchBytes
  let approxSize := sizes.approxSerializedBatchSize batch
  let split : Attempt Schema Row :=
    match splitForSize sizes batch maxIngestBytes with
    | .error message => .fail message
    | .ok splitBatches => sink.bulkIngestStreamForBatches driver tableName splitBatches
  if approxLikelySafe approxSize maxIngestBytes then sink.bulkIngestWithRetry driver tableName batch
  else if approxLikelyTooLarge approxSize maxIngestBytes then split
  else
    match sizes.serializedBatchSize batch with
    | .error message => .fail message
    | .ok exactSize =>
        if exactSize ≤ maxIngestBytes then sink.bulkIngestWithRetry driver tableName batch else split

end AdbcTarget

end Spicebench.Sink
