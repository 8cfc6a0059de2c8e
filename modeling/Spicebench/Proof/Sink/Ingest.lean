import Spicebench.Construction.Sink.Ingest

namespace Spicebench.Sink
open AdbcTarget

variable {Schema Row : Type}

section Calls

variable {Holds : IngestCall Schema Row → Prop} {first second : Attempt Schema Row}

/-- An attempt only adds calls of a kind to the log. -/
def Attempt.Adds (attempt : Attempt Schema Row) (Holds : IngestCall Schema Row → Prop) : Prop :=
  ∀ log, ∃ calls, (attempt log).2 = log ++ calls ∧ ∀ call ∈ calls, Holds call

theorem Attempt.adds_done : (Attempt.done : Attempt Schema Row).Adds Holds := fun _ => ⟨[], by simp [done], by simp⟩

theorem Attempt.adds_fail {message : String} : (Attempt.fail message : Attempt Schema Row).Adds Holds :=
  fun _ => ⟨[], by simp [fail], by simp⟩

theorem Attempt.Adds.andThen (one : first.Adds Holds) (other : second.Adds Holds) : (first.andThen second).Adds Holds := by
  intro log
  obtain ⟨calls, added, held⟩ := one log
  unfold Attempt.andThen
  rcases made : first log with ⟨result, middle⟩
  rw [made] at added
  dsimp only at added
  cases result with
  | error message => exact ⟨calls, added, held⟩
  | ok value =>
      obtain ⟨later, addedLater, heldLater⟩ := other middle
      refine ⟨calls ++ later, ?_, ?_⟩
      · simpa [added, List.append_assoc] using addedLater
      · intro call member
        exact (List.mem_append.mp member).elim (held call) (heldLater call)

theorem Attempt.Adds.orElse {handler : String → Attempt Schema Row} (one : first.Adds Holds)
    (others : ∀ message, (handler message).Adds Holds) : (first.orElse handler).Adds Holds := by
  intro log
  obtain ⟨calls, added, held⟩ := one log
  unfold Attempt.orElse
  rcases made : first log with ⟨result, middle⟩
  rw [made] at added
  dsimp only at added
  cases result with
  | ok value => exact ⟨calls, added, held⟩
  | error message =>
      obtain ⟨later, addedLater, heldLater⟩ := others message middle
      refine ⟨calls ++ later, ?_, ?_⟩
      · simpa [added, List.append_assoc] using addedLater
      · intro call member
        exact (List.mem_append.mp member).elim (held call) (heldLater call)

theorem Attempt.adds_each {Item : Type} {attempt : Item → Attempt Schema Row} (items : List Item)
    (added : ∀ item ∈ items, (attempt item).Adds Holds) : (Attempt.each items attempt).Adds Holds := by
  induction items with
  | nil => exact adds_done
  | cons item items rest =>
      exact (added item List.mem_cons_self).andThen (rest fun other member => added other (List.mem_cons_of_mem _ member))

theorem Driver.adds_bulkIngestStream (driver : Driver Schema Row) {target : Target}
    {batches : List (RecordBatch Schema Row)} (held : ∀ accepted, Holds ⟨target, batches, accepted⟩) :
    (driver.bulkIngestStream target batches).Adds Holds := by
  intro log
  unfold bulkIngestStream
  split
  · exact ⟨_, rfl, by simpa using held true⟩
  · exact ⟨_, rfl, by simpa using held false⟩

end Calls

section Slices

variable {sizes : Sizes Schema Row} {batch : RecordBatch Schema Row} {maxBytes : Nat}

/-- The slices from a start on have the rows from there on. -/
theorem splitFrom_rows {start : Nat} {batches : List (RecordBatch Schema Row)}
    (split : splitFrom sizes batch maxBytes start = .ok batches) :
    batches.flatMap (·.rows) = batch.rows.drop start := by
  induction size : batch.numRows - start using Nat.strong_induction_on generalizing start batches with
  | _ rows smaller =>
      unfold splitFrom at split
      split_ifs at split with more
      · split at split
        · cases split
        · cases split
        · rename_i span found
          have bounds := acceptedSpan_bounds found
          cases later : splitFrom sizes batch maxBytes (start + span) with
          | error message => simp [later, Except.map] at split
          | ok rest =>
              have remaining := smaller _ (by omega) later rfl
              obtain rfl : batch.slice start span :: rest = batches := by simpa [later, Except.map] using split
              rw [List.flatMap_cons, remaining, RecordBatch.slice, ← List.drop_drop]
              exact List.take_append_drop span (batch.rows.drop start)
      · obtain rfl := Except.ok.inj split
        exact (List.drop_eq_nil_of_le (Nat.le_of_not_lt more)).symm

theorem splitForSize_rows {batches : List (RecordBatch Schema Row)}
    (split : splitForSize sizes batch maxBytes = .ok batches) : batches.flatMap (·.rows) = batch.rows := by
  rw [splitFrom_rows split, List.drop_zero]

end Slices

section Targets

variable {sink : AdbcTarget} {driver : Driver Schema Row} {tableName : String}

/-- The rows of a table belong here. -/
def AdbcTarget.configured (sink : AdbcTarget) (tableName : String) : Target :=
  ⟨tableName, nonEmpty sink.targetDbCatalog, nonEmpty sink.targetDbSchema⟩

theorem numRows_slice {batch : RecordBatch Schema Row} {start span : Nat} (inside : start + span ≤ batch.numRows) :
    (batch.slice start span).numRows = span := by
  simp only [RecordBatch.slice, RecordBatch.numRows, List.length_take, List.length_drop] at *
  omega

/-- What a batch has as soon as its halves have it, every batch has. -/
@[elab_as_elim]
theorem halves_induction {motive : RecordBatch Schema Row → Prop}
    (halves : ∀ batch, (¬batch.numRows ≤ 1 → motive (batch.slice 0 (batch.numRows / 2)) ∧
      motive (batch.slice (batch.numRows / 2) (batch.numRows - batch.numRows / 2))) → motive batch)
    (batch : RecordBatch Schema Row) : motive batch := by
  induction size : batch.numRows using Nat.strong_induction_on generalizing batch with
  | _ rows smaller =>
      apply halves
      intro several
      constructor
      · apply smaller _ _ _ (numRows_slice (by omega))
        omega
      · apply smaller _ _ _ (numRows_slice (by omega))
        omega

/-- The direct ingest calls only name the configured target, however often it retries. -/
theorem bulkIngestWithRetry_configured (batch : RecordBatch Schema Row) :
    (sink.bulkIngestWithRetry driver tableName batch).Adds fun call => call.target = sink.configured tableName := by
  induction batch using halves_induction with
  | _ batch smaller =>
      unfold bulkIngestWithRetry
      apply Attempt.Adds.orElse
      · split_ifs
        · apply Attempt.Adds.orElse
          · exact driver.adds_bulkIngestStream fun _ => rfl
          · intro message
            split_ifs
            · exact Attempt.adds_fail
            · exact driver.adds_bulkIngestStream fun _ => rfl
        · exact driver.adds_bulkIngestStream fun _ => rfl
      · intro message
        split_ifs with tooLarge single
        · exact Attempt.adds_fail
        · apply Attempt.Adds.andThen
          · exact (smaller single).1
          · exact (smaller single).2
        · exact Attempt.adds_fail

/-- The ways on which rows of a table reach a bulk ingest. -/
inductive Path (Schema Row : Type) where
  | reusedStream (batches : List (RecordBatch Schema Row))
  | directIngest (batch : RecordBatch Schema Row)
  | splitStream (batches : List (RecordBatch Schema Row))

def Path.attempt (sink : AdbcTarget) (driver : Driver Schema Row) (tableName : String) :
    Path Schema Row → Attempt Schema Row
  | .reusedStream batches => sink.reusedBulkIngestStream driver tableName batches
  | .directIngest batch => sink.bulkIngestWithRetry driver tableName batch
  | .splitStream batches => sink.bulkIngestStreamForBatches driver tableName batches

/-- An insert takes one of the ways, or fails before any call because a size is unknown or too large. -/
theorem ingestInsertBatch_path (sizes : Sizes Schema Row) (batch : RecordBatch Schema Row) :
    (∃ message, (sizes.serializedBatchSize batch = .error message ∨
        splitForSize sizes batch sink.maxIngestBatchBytes = .error message) ∧
      sink.ingestInsertBatch driver tableName sizes batch = .fail message) ∨
    sink.ingestInsertBatch driver tableName sizes batch = (Path.directIngest batch).attempt sink driver tableName ∨
    ∃ batches, splitForSize sizes batch sink.maxIngestBatchBytes = .ok batches ∧
      sink.ingestInsertBatch driver tableName sizes batch = (Path.splitStream batches).attempt sink driver tableName := by
  unfold ingestInsertBatch
  dsimp only
  split_ifs
  · exact .inr (.inl rfl)
  · cases splitForSize sizes batch sink.maxIngestBatchBytes with
    | error message => exact .inl ⟨message, .inr rfl, rfl⟩
    | ok batches => exact .inr (.inr ⟨batches, rfl, rfl⟩)
  · cases sizes.serializedBatchSize batch with
    | error message => exact .inl ⟨message, .inl rfl, rfl⟩
    | ok exactSize =>
        dsimp only
        split_ifs
        · exact .inr (.inl rfl)
        · cases splitForSize sizes batch sink.maxIngestBatchBytes with
          | error message => exact .inl ⟨message, .inr rfl, rfl⟩
          | ok batches => exact .inr (.inr ⟨batches, rfl, rfl⟩)

/-- Whatever the driver answers, each call names the expected target under some reading of its
options, or the caller gets an error. -/
def Path.StaysOn (path : Path Schema Row) (reading : Target → Target) (sink : AdbcTarget) (tableName : String) : Prop :=
  ∀ driver : Driver Schema Row,
    (∀ call ∈ (path.attempt sink driver tableName []).2, reading call.target = sink.configured tableName) ∨
    ∃ message, (path.attempt sink driver tableName []).1 = .error message

/-- An option with an empty name counts as one that is not set. -/
def Target.normalized (target : Target) : Target :=
  { target with catalog := nonEmpty target.catalog, schema := nonEmpty target.schema }

/-- Neither a catalog nor a schema is configured. -/
def AdbcTarget.Unqualified (sink : AdbcTarget) : Prop :=
  nonEmpty sink.targetDbCatalog = none ∧ nonEmpty sink.targetDbSchema = none

/-- No name is configured as the empty string. -/
def AdbcTarget.Canonical (sink : AdbcTarget) : Prop :=
  sink.targetDbCatalog ≠ some "" ∧ sink.targetDbSchema ≠ some ""

theorem nonEmpty_eq_iff {name : Option String} : name = nonEmpty name ↔ name ≠ some "" := by
  cases name with
  | none => simp [nonEmpty]
  | some text => by_cases empty : text = "" <;> simp [nonEmpty, Option.filter, empty]

theorem nonEmpty_nonEmpty (name : Option String) : nonEmpty (nonEmpty name) = nonEmpty name := by
  cases name with
  | none => rfl
  | some text => by_cases empty : text = "" <;> simp [nonEmpty, Option.filter, empty]

theorem normalized_configured (sink : AdbcTarget) (tableName : String) :
    (sink.configured tableName).normalized = sink.configured tableName := by
  simp [configured, Target.normalized, nonEmpty_nonEmpty]

/-- The driver takes every call. -/
def acceptingDriver : Driver Schema Row := fun _ _ _ => .ok ()

variable {reading : Target → Target}

/-- Calls that all name the configured target stay on it. -/
theorem staysOn_of_adds {path : Path Schema Row} (fixed : reading (sink.configured tableName) = sink.configured tableName)
    (added : ∀ driver, (path.attempt sink driver tableName).Adds fun call => call.target = sink.configured tableName) :
    path.StaysOn reading sink tableName := by
  intro driver
  obtain ⟨calls, logged, held⟩ := added driver []
  left
  intro call member
  rw [logged, List.nil_append] at member
  rw [held call member, fixed]

theorem directIngest_staysOn (fixed : reading (sink.configured tableName) = sink.configured tableName)
    (batch : RecordBatch Schema Row) : (Path.directIngest batch).StaysOn reading sink tableName :=
  staysOn_of_adds fixed fun _ => bulkIngestWithRetry_configured batch

/-- The worker of a reused stream names the catalog and the schema as they are configured. -/
theorem reusedStream_staysOn_iff (batches : List (RecordBatch Schema Row)) :
    (Path.reusedStream batches).StaysOn reading sink tableName ↔
      reading ⟨tableName, sink.targetDbCatalog, sink.targetDbSchema⟩ = sink.configured tableName := by
  constructor
  · intro stays
    rcases stays acceptingDriver with named | ⟨message, failed⟩
    · exact named ⟨⟨tableName, sink.targetDbCatalog, sink.targetDbSchema⟩, batches, true⟩ List.mem_cons_self
    · cases failed
  · intro named driver
    have added : ((Path.reusedStream batches).attempt sink driver tableName).Adds
        fun call => call.target = ⟨tableName, sink.targetDbCatalog, sink.targetDbSchema⟩ := by
      apply Attempt.Adds.orElse
      · exact driver.adds_bulkIngestStream fun _ => rfl
      · exact fun _ => Attempt.adds_fail
    obtain ⟨calls, logged, held⟩ := added []
    left
    intro call member
    rw [logged, List.nil_append] at member
    rw [held call member, named]

/-- Without a catalog and a schema, the stream of slices is on target. -/
theorem splitStream_configured (unqualified : sink.Unqualified) (batches : List (RecordBatch Schema Row)) :
    (sink.bulkIngestStreamForBatches driver tableName batches).Adds
      fun call => call.target = sink.configured tableName := by
  unfold bulkIngestStreamForBatches
  split
  · exact Attempt.adds_done
  · apply Attempt.Adds.orElse
    · rw [if_neg]
      · exact driver.adds_bulkIngestStream fun _ => rfl
      · simp [unqualified.1, unqualified.2]
    · intro message
      split_ifs
      · exact Attempt.adds_each _ fun batch _ => bulkIngestWithRetry_configured batch
      · exact Attempt.adds_fail

/-- With a catalog or a schema, a driver that takes everything gets the slices without them. -/
theorem splitStream_accepted (qualified : ¬ sink.Unqualified) {batches : List (RecordBatch Schema Row)}
    (some : batches ≠ []) :
    sink.bulkIngestStreamForBatches acceptingDriver tableName batches [] =
      (.ok (), [⟨⟨tableName, none, none⟩, batches, true⟩]) := by
  have named : (nonEmpty sink.targetDbCatalog).isSome ∨ (nonEmpty sink.targetDbSchema).isSome := by
    simp only [Unqualified, ← Option.not_isSome_iff_eq_none] at qualified
    tauto
  unfold bulkIngestStreamForBatches
  split
  · contradiction
  · dsimp only
    rw [if_pos named]
    rfl

theorem splitStream_staysOn_iff (fixed : reading (sink.configured tableName) = sink.configured tableName)
    (unset : reading ⟨tableName, none, none⟩ = ⟨tableName, none, none⟩) (batches : List (RecordBatch Schema Row)) :
    (Path.splitStream batches).StaysOn reading sink tableName ↔ batches = [] ∨ sink.Unqualified := by
  constructor
  · intro stays
    by_contra! others
    obtain ⟨some, qualified⟩ := others
    have accepted := @splitStream_accepted _ _ _ tableName qualified _ some
    rcases stays acceptingDriver with named | ⟨message, failed⟩
    · simp only [Path.attempt, accepted, List.mem_singleton, forall_eq, unset] at named
      have same : (⟨tableName, none, none⟩ : Target) = sink.configured tableName := named
      obtain ⟨_, catalog, schema⟩ := Target.mk.inj same
      exact qualified ⟨catalog.symm, schema.symm⟩
    · simp [Path.attempt, accepted] at failed
  · rintro (rfl | unqualified)
    · intro driver
      left
      intro call member
      cases member
    · exact staysOn_of_adds fixed fun _ => splitStream_configured unqualified batches

/-- A way stays on the configured target, as the options are set. -/
def Path.ExactWhen (sink : AdbcTarget) : Path Schema Row → Prop
  | .reusedStream _ => sink.Canonical
  | .directIngest _ => True
  | .splitStream batches => batches = [] ∨ sink.Unqualified

/-- A way stays on the configured target when empty options count as unset. -/
def Path.NormalizedWhen (sink : AdbcTarget) : Path Schema Row → Prop
  | .reusedStream _ => True
  | .directIngest _ => True
  | .splitStream batches => batches = [] ∨ sink.Unqualified

/-- The direct ingest is always on target, the stream of slices is on target when there are no slices or
no names, and the reused stream is on target up to names that are configured as empty strings. -/
theorem path_staysOn_iff (sink : AdbcTarget) (tableName : String) (path : Path Schema Row) :
    (path.StaysOn id sink tableName ↔ path.ExactWhen sink) ∧
    (path.StaysOn Target.normalized sink tableName ↔ path.NormalizedWhen sink) := by
  have fixed := normalized_configured sink tableName
  cases path with
  | reusedStream batches =>
      refine ⟨?_, ?_⟩
      · rw [reusedStream_staysOn_iff]
        simp [configured, Path.ExactWhen, Canonical, ← nonEmpty_eq_iff]
      · rw [reusedStream_staysOn_iff]
        simp [configured, Path.NormalizedWhen, Target.normalized]
  | directIngest batch =>
      refine ⟨?_, ?_⟩
      · simpa [Path.ExactWhen] using directIngest_staysOn rfl batch
      · simpa [Path.NormalizedWhen] using directIngest_staysOn fixed batch
  | splitStream batches =>
      exact ⟨splitStream_staysOn_iff rfl rfl batches, splitStream_staysOn_iff fixed rfl batches⟩

/-- A schema is configured, and the driver takes the slices without it. -/
theorem splitStream_leaves_schema :
    ¬ (Path.splitStream [⟨(), [0]⟩] : Path Unit Nat).StaysOn id ⟨none, some "bench", 1⟩ "orders" ∧
    ¬ (Path.splitStream [⟨(), [0]⟩] : Path Unit Nat).StaysOn Target.normalized ⟨none, some "bench", 1⟩ "orders" := by
  have qualified : ¬ AdbcTarget.Unqualified ⟨none, some "bench", 1⟩ := by
    rintro ⟨_, schema⟩
    revert schema
    decide
  have accepted := @splitStream_accepted Unit Nat _ "orders" qualified [⟨(), [0]⟩] (by simp)
  constructor <;>
  · intro stays
    rcases stays acceptingDriver with named | ⟨message, failed⟩
    · simp only [Path.attempt, accepted, List.mem_singleton, forall_eq] at named
      revert named
      decide
    · simp [Path.attempt, accepted] at failed

end Targets

end Spicebench.Sink
