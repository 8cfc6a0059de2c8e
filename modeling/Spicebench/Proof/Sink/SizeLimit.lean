import Spicebench.Proof.Sink.Effects

namespace Spicebench.Sink
open AdbcTarget

variable {Schema Row : Type} {sizes : Sizes Schema Row} {batch : RecordBatch Schema Row} {maxBytes : Nat}

section Splitting

/-- The estimate for some of the rows of a batch is their part of the estimate for the batch. -/
def estimate (sizes : Sizes Schema Row) (batch : RecordBatch Schema Row) (span : Nat) : Nat :=
  saturatingMul (sizes.approxSerializedBatchSize batch) span / batch.numRows

/-- A slice was measured to fit, or its estimate is in the safe fraction of the limit. -/
def Fits (sizes : Sizes Schema Row) (batch : RecordBatch Schema Row) (maxBytes : Nat)
    (piece : RecordBatch Schema Row) : Prop :=
  (∃ size, sizes.serializedBatchSize piece = .ok size ∧ size ≤ maxBytes) ∨
    estimate sizes batch piece.numRows ≤ saturatingMul maxBytes approxSafeFractionNum / approxSafeFractionDen

/-- The row at a position is too large by its estimate, or it is not safely small and was measured to be too large. -/
def RowTooLarge (sizes : Sizes Schema Row) (batch : RecordBatch Schema Row) (maxBytes start : Nat) : Prop :=
  approxLikelyTooLarge (estimate sizes batch 1) maxBytes = true ∨
    (approxLikelySafe (estimate sizes batch 1) maxBytes = false ∧
      ∃ size, sizes.serializedBatchSize (batch.slice start 1) = .ok size ∧ maxBytes < size)

/-- The positions at which the outer loop looks for a slice. -/
inductive Reached (sizes : Sizes Schema Row) (batch : RecordBatch Schema Row) (maxBytes : Nat) : Nat → Prop
  | zero : Reached sizes batch maxBytes 0
  | next {start span : Nat} (reached : Reached sizes batch maxBytes start) (more : start < batch.numRows)
      (found : acceptedSpan sizes batch maxBytes start (batch.numRows - start) = .ok (some span)) :
      Reached sizes batch maxBytes (start + span)

/-- Consecutive slices with the given numbers of rows. -/
def slicesFrom (batch : RecordBatch Schema Row) : Nat → List Nat → List (RecordBatch Schema Row)
  | _, [] => []
  | start, span :: spans => batch.slice start span :: slicesFrom batch (start + span) spans

/-- An accepted slice has passed one of the two tests. -/
theorem acceptedSpan_fits {start span accepted : Nat} (inside : start + span ≤ batch.numRows)
    (found : acceptedSpan sizes batch maxBytes start span = .ok (some accepted)) :
    Fits sizes batch maxBytes (batch.slice start accepted) := by
  fun_induction acceptedSpan sizes batch maxBytes start span with
  | case1 => cases found
  | case2 span _ _ _ halved => exact halved (by omega) found
  | case3 span _ _ _ safe =>
      obtain rfl : span = accepted := by simpa using found
      right
      rw [numRows_slice inside]
      simpa [approxLikelySafe, estimate] using safe
  | case4 => cases found
  | case5 span _ _ _ _ size measured small =>
      obtain rfl : span = accepted := by simpa using found
      exact .inl ⟨size, measured, small⟩
  | case6 span _ _ _ _ size measured large halved => exact halved (by omega) found

/-- Halving ends at a single row, which is then too large. -/
theorem acceptedSpan_none {start span : Nat} (positive : 0 < span)
    (found : acceptedSpan sizes batch maxBytes start span = .ok none) : RowTooLarge sizes batch maxBytes start := by
  fun_induction acceptedSpan sizes batch maxBytes start span with
  | case1 => exact absurd positive (lt_irrefl 0)
  | case2 span _ candidate tooLarge halved =>
      rcases Nat.eq_zero_or_pos (span / 2) with zero | more
      · obtain rfl : span = 1 := by omega
        exact .inl tooLarge
      · exact halved more found
  | case3 => cases found
  | case4 => cases found
  | case5 => cases found
  | case6 span _ candidate _ doubtful size measured large halved =>
      rcases Nat.eq_zero_or_pos (span / 2) with zero | more
      · obtain rfl : span = 1 := by omega
        exact .inr ⟨Bool.eq_false_of_not_eq_true doubtful, size, measured, Nat.lt_of_not_le large⟩
      · exact halved more found

theorem acceptedSpan_error {start span : Nat} {message : String}
    (failed : acceptedSpan sizes batch maxBytes start span = .error message) :
    ∃ piece, sizes.serializedBatchSize piece = .error message := by
  fun_induction acceptedSpan sizes batch maxBytes start span with
  | case1 => cases failed
  | case2 span _ _ _ halved => exact halved failed
  | case3 => cases failed
  | case4 span _ _ _ _ reason measured =>
      obtain rfl : reason = message := by simpa using failed
      exact ⟨_, measured⟩
  | case5 => cases failed
  | case6 span _ _ _ _ size measured large halved => exact halved failed

/-- The error of a split that finds a single row too large. -/
def splitError (maxBytes : Nat) : String :=
  s!"Single-row batch exceeds max ingest payload ({maxBytes} bytes). Consider increasing FlightSQL max message size."

/-- What one round of the outer loop does. -/
theorem splitFrom_cases (start : Nat) :
    (batch.numRows ≤ start ∧ splitFrom sizes batch maxBytes start = .ok []) ∨
    (start < batch.numRows ∧
      ((∃ message, acceptedSpan sizes batch maxBytes start (batch.numRows - start) = .error message ∧
          splitFrom sizes batch maxBytes start = .error message) ∨
        (acceptedSpan sizes batch maxBytes start (batch.numRows - start) = .ok none ∧
          splitFrom sizes batch maxBytes start = .error (splitError maxBytes)) ∨
        ∃ span, acceptedSpan sizes batch maxBytes start (batch.numRows - start) = .ok (some span) ∧
          splitFrom sizes batch maxBytes start =
            (splitFrom sizes batch maxBytes (start + span)).map (batch.slice start span :: ·))) := by
  rcases Nat.lt_or_ge start batch.numRows with more | behind
  · right
    refine ⟨more, ?_⟩
    rw [splitFrom, if_pos more]
    split
    · rename_i message failed
      exact .inl ⟨message, failed, rfl⟩
    · rename_i none
      exact .inr (.inl ⟨none, rfl⟩)
    · rename_i span found
      exact .inr (.inr ⟨span, found, rfl⟩)
  · left
    refine ⟨behind, ?_⟩
    rw [splitFrom, if_neg (Nat.not_lt.mpr behind)]

/-- The slices from a start on are consecutive, not empty and small enough, and they end with the batch. -/
theorem splitFrom_slices {start : Nat} {pieces : List (RecordBatch Schema Row)} (inside : start ≤ batch.numRows)
    (split : splitFrom sizes batch maxBytes start = .ok pieces) :
    ∃ spans, pieces = slicesFrom batch start spans ∧ start + spans.sum = batch.numRows ∧
      (∀ span ∈ spans, 0 < span) ∧
      ∀ piece ∈ pieces, 0 < piece.numRows ∧ Fits sizes batch maxBytes piece := by
  induction size : batch.numRows - start using Nat.strong_induction_on generalizing start pieces with
  | _ rows smaller =>
      rcases @splitFrom_cases _ _ sizes batch maxBytes start with
        ⟨behind, ended⟩ | ⟨more, ⟨_, _, failed⟩ | ⟨_, failed⟩ | ⟨span, found, continued⟩⟩
      · obtain rfl := Except.ok.inj (ended.symm.trans split)
        exact ⟨[], rfl, by simp; omega, by simp, by simp⟩
      · cases failed.symm.trans split
      · cases failed.symm.trans split
      · have bounds := acceptedSpan_bounds found
        rw [continued] at split
        cases later : splitFrom sizes batch maxBytes (start + span) with
        | error message => simp [later, Except.map] at split
        | ok rest =>
            obtain rfl : batch.slice start span :: rest = pieces := by simpa [later, Except.map] using split
            obtain ⟨spans, rfl, sum, positive, fits⟩ := smaller _ (by omega) (by omega) later rfl
            refine ⟨span :: spans, rfl, ?_, ?_, ?_⟩
            · rw [List.sum_cons]
              omega
            · intro other member
              rcases List.mem_cons.mp member with rfl | member
              · exact bounds.1
              · exact positive other member
            · intro piece member
              rcases List.mem_cons.mp member with rfl | member
              · exact ⟨by rw [numRows_slice (by omega)]; exact bounds.1, acceptedSpan_fits (by omega) found⟩
              · exact fits piece member

/-- A split fails because a size cannot be measured, or at a single row that is too large. -/
theorem splitFrom_error {start : Nat} {message : String} (reached : Reached sizes batch maxBytes start)
    (failed : splitFrom sizes batch maxBytes start = .error message) :
    (∃ piece, sizes.serializedBatchSize piece = .error message) ∨
      (message = splitError maxBytes ∧ ∃ position, Reached sizes batch maxBytes position ∧
        position < batch.numRows ∧ RowTooLarge sizes batch maxBytes position) := by
  induction size : batch.numRows - start using Nat.strong_induction_on generalizing start with
  | _ rows smaller =>
      rcases @splitFrom_cases _ _ sizes batch maxBytes start with
        ⟨_, ended⟩ | ⟨more, ⟨reason, stuck, same⟩ | ⟨none, same⟩ | ⟨span, found, continued⟩⟩
      · cases ended.symm.trans failed
      · obtain rfl := Except.error.inj (same.symm.trans failed)
        exact .inl (acceptedSpan_error stuck)
      · obtain rfl := Except.error.inj (same.symm.trans failed)
        exact .inr ⟨rfl, start, reached, more, acceptedSpan_none (by omega) none⟩
      · have bounds := acceptedSpan_bounds found
        rw [continued] at failed
        cases later : splitFrom sizes batch maxBytes (start + span) with
        | ok rest => simp [later, Except.map] at failed
        | error reason =>
            obtain rfl : reason = message := by simpa [later, Except.map] using failed
            exact smaller _ (by omega) (reached.next more found) later rfl

/-- As long as the products do not saturate, the estimate is the exact part of the size. -/
theorem Fits.proportional {piece : RecordBatch Schema Row} (fits : Fits sizes batch maxBytes piece)
    (part : piece.numRows ≤ batch.numRows)
    (small : sizes.approxSerializedBatchSize batch * batch.numRows ≤ usizeMax) :
    (∃ size, sizes.serializedBatchSize piece = .ok size ∧ size ≤ maxBytes) ∨
      10 * (sizes.approxSerializedBatchSize batch * piece.numRows / batch.numRows) ≤ 8 * maxBytes := by
  refine fits.imp id ?_
  intro safe
  have product : sizes.approxSerializedBatchSize batch * piece.numRows ≤ usizeMax :=
    (Nat.mul_le_mul_left _ part).trans small
  have exact : estimate sizes batch piece.numRows =
      sizes.approxSerializedBatchSize batch * piece.numRows / batch.numRows := by
    rw [estimate, saturatingMul, Nat.min_eq_left product]
  have limit : saturatingMul maxBytes approxSafeFractionNum ≤ maxBytes * 8 := Nat.min_le_left _ _
  rw [exact, approxSafeFractionDen] at safe
  omega

/-- The slices are the rows of the batch in order, each within the limit, and only a single row that
is too large stops the split. -/
theorem splitForSize_partition (sizes : Sizes Schema Row) (batch : RecordBatch Schema Row) (maxBytes : Nat) :
    (∀ pieces, splitForSize sizes batch maxBytes = .ok pieces →
      (∃ spans, pieces = slicesFrom batch 0 spans ∧ spans.sum = batch.numRows ∧ ∀ span ∈ spans, 0 < span) ∧
      pieces.flatMap (·.rows) = batch.rows ∧
      ∀ piece ∈ pieces, 0 < piece.numRows ∧ Fits sizes batch maxBytes piece ∧
        (sizes.approxSerializedBatchSize batch * batch.numRows ≤ usizeMax →
          (∃ size, sizes.serializedBatchSize piece = .ok size ∧ size ≤ maxBytes) ∨
            10 * (sizes.approxSerializedBatchSize batch * piece.numRows / batch.numRows) ≤ 8 * maxBytes)) ∧
    ((∀ piece, ∃ size, sizes.serializedBatchSize piece = .ok size) →
      ∀ message, splitForSize sizes batch maxBytes = .error message →
        ∃ position, Reached sizes batch maxBytes position ∧ position < batch.numRows ∧
          RowTooLarge sizes batch maxBytes position) := by
  constructor
  · intro pieces split
    obtain ⟨spans, same, sum, positive, fits⟩ := splitFrom_slices (Nat.zero_le _) split
    have rows := splitForSize_rows split
    refine ⟨⟨spans, same, by omega, positive⟩, rows, ?_⟩
    intro piece member
    obtain ⟨some, within⟩ := fits piece member
    have part : piece.numRows ≤ batch.numRows := by
      have taken := (List.sublist_flatten_of_mem (List.mem_map_of_mem (f := (·.rows)) member)).length_le
      rw [← List.flatMap_def, rows] at taken
      exact taken
    exact ⟨some, within, within.proportional part⟩
  · intro measured message failed
    rcases splitFrom_error .zero failed with ⟨piece, unmeasured⟩ | ⟨_, tooLarge⟩
    · obtain ⟨size, known⟩ := measured piece
      cases known.symm.trans unmeasured
    · exact tooLarge

/-- Every row is estimated at twenty bytes, and a row is as large as its number says. -/
def sampleSizes : Sizes Unit Nat where
  approxSerializedBatchSize batch := 20 * batch.numRows
  serializedBatchSize batch := .ok batch.rows.sum

/-- Two rows are measured together and fit; a limit of twenty bytes stops at the row of thirty. -/
theorem splitForSize_partition_sample :
    Fits sampleSizes ⟨(), [20, 15, 30, 5]⟩ 40 ⟨(), [20, 15]⟩ ∧
    ∃ position, Reached sampleSizes ⟨(), [20, 15, 30, 5]⟩ 20 position ∧ position < 4 ∧
      RowTooLarge sampleSizes ⟨(), [20, 15, 30, 5]⟩ 20 position := by
  have split : splitForSize sampleSizes ⟨(), [20, 15, 30, 5]⟩ 40 = .ok [⟨(), [20, 15]⟩, ⟨(), [30, 5]⟩] := by
    decide +kernel
  have stopped : splitForSize sampleSizes ⟨(), [20, 15, 30, 5]⟩ 20 = .error (splitError 20) := by
    decide +kernel
  constructor
  · obtain ⟨_, _, fits⟩ := (splitForSize_partition sampleSizes ⟨(), [20, 15, 30, 5]⟩ 40).1 _ split
    exact (fits _ List.mem_cons_self).2.1
  · exact (splitForSize_partition sampleSizes ⟨(), [20, 15, 30, 5]⟩ 20).2 (fun _ => ⟨_, rfl⟩) _ stopped

end Splitting

section Ingesting

variable {driver : Driver Schema Row} {target : AdbcTarget} {tableName : String}
  {first second : Attempt Schema Row}

/-- The error of an ingest whose single row the driver does not take. -/
def retryError (tableName message : String) : String :=
  s!"ADBC bulk ingest failed for source table '{tableName}' (ingest target '{tableName}'): single-row batch still exceeds FlightSQL message limit: {message}. Configure a larger FlightSQL max message size (e.g. adbc.flight.sql.client_option.with_max_msg_size)."

/-- The other errors of a direct ingest and of a stream. -/
def ingestError (tableName reason : String) : String :=
  s!"ADBC bulk ingest failed for source table '{tableName}' (ingest target '{tableName}'): {reason}"

def streamError (tableName reason : String) : String :=
  s!"ADBC stream bulk ingest failed for source table '{tableName}' (ingest target '{tableName}'): {reason}"

/-- An ingest says that something is too large. -/
def TooLargeError (tableName : String) (maxBytes : Nat) (error : String) : Prop :=
  error = splitError maxBytes ∨ ∃ message, isMessageTooLargeError message = true ∧ error = retryError tableName message

/-- Between two logs the driver refused a batch of at most one row as too large. -/
def SingleRefused (driver : Driver Schema Row) (log final : List (IngestCall Schema Row)) : Prop :=
  ∃ before after options piece message, final = before ++ ⟨options, [piece], false⟩ :: after ∧ log <+: before ∧
    RecordBatch.numRows piece ≤ 1 ∧ driver before options [piece] = .error message ∧
    isMessageTooLargeError message = true

/-- An attempt that says that something is too large has seen a single row refused. -/
def Attempt.Explains (attempt : Attempt Schema Row) (driver : Driver Schema Row) (tableName : String)
    (maxBytes : Nat) : Prop :=
  ∀ log, log <+: (attempt log).2 ∧
    ∀ error, (attempt log).1 = .error error → TooLargeError tableName maxBytes error →
      SingleRefused driver log (attempt log).2

/-- An attempt that fails has its last call refused, with the same message. -/
def Attempt.Relays (attempt : Attempt Schema Row) (driver : Driver Schema Row)
    (batches : List (RecordBatch Schema Row)) : Prop :=
  ∀ log, log <+: (attempt log).2 ∧
    ∀ message, (attempt log).1 = .error message →
      ∃ before options, (attempt log).2 = before ++ [⟨options, batches, false⟩] ∧
      log <+: before ∧ driver before options batches = .error message

theorem SingleRefused.earlier {log middle final : List (IngestCall Schema Row)} (earlier : log <+: middle)
    (refused : SingleRefused driver middle final) : SingleRefused driver log final := by
  obtain ⟨before, after, options, piece, message, same, started, single, answered, tooLarge⟩ := refused
  exact ⟨before, after, options, piece, message, same, earlier.trans started, single, answered, tooLarge⟩

theorem Driver.relays_bulkIngestStream (driver : Driver Schema Row) (options : Target)
    (batches : List (RecordBatch Schema Row)) : (driver.bulkIngestStream options batches).Relays driver batches := by
  intro log
  unfold bulkIngestStream
  split
  · exact ⟨List.prefix_append _ _, fun _ failed => by cases failed⟩
  · rename_i reason answered
    refine ⟨List.prefix_append _ _, ?_⟩
    intro message failed
    obtain rfl := Except.error.inj failed
    exact ⟨log, options, rfl, List.prefix_rfl, answered⟩

/-- A second call after a failed one has the last word, unless the first error is passed on. -/
theorem Attempt.Relays.retried {batches : List (RecordBatch Schema Row)} {condition : String → Bool}
    (one : first.Relays driver batches) (other : second.Relays driver batches) :
    (first.orElse fun message => if condition message then .fail message else second).Relays driver batches := by
  intro log
  obtain ⟨begun, relayed⟩ := one log
  unfold Attempt.orElse
  rcases made : first log with ⟨result, middle⟩
  rw [made] at begun relayed
  cases result with
  | ok value => exact ⟨begun, fun _ failed => by cases failed⟩
  | error reason =>
      dsimp only
      split_ifs
      · exact ⟨begun, relayed⟩
      · obtain ⟨continued, relayedLater⟩ := other middle
        refine ⟨begun.trans continued, ?_⟩
        intro message failed
        obtain ⟨before, options, same, started, answered⟩ := relayedLater message failed
        exact ⟨before, options, same, begun.trans started, answered⟩

theorem Attempt.explains_done : (Attempt.done : Attempt Schema Row).Explains driver tableName maxBytes :=
  fun _ => ⟨List.prefix_rfl, fun _ failed => by cases failed⟩

/-- Any other error needs no explanation. -/
theorem Attempt.explains_fail {error : String} (plain : ¬TooLargeError tableName maxBytes error) :
    (Attempt.fail error : Attempt Schema Row).Explains driver tableName maxBytes := by
  intro log
  refine ⟨List.prefix_rfl, ?_⟩
  intro other failed tooLarge
  obtain rfl := Except.error.inj failed
  exact absurd tooLarge plain

theorem Attempt.Explains.andThen (one : first.Explains driver tableName maxBytes)
    (other : second.Explains driver tableName maxBytes) :
    (first.andThen second).Explains driver tableName maxBytes := by
  intro log
  obtain ⟨begun, explained⟩ := one log
  unfold Attempt.andThen
  rcases made : first log with ⟨result, middle⟩
  rw [made] at begun explained
  cases result with
  | error reason => exact ⟨begun, explained⟩
  | ok value =>
      obtain ⟨continued, explainedLater⟩ := other middle
      refine ⟨begun.trans continued, ?_⟩
      intro message failed tooLarge
      exact (explainedLater message failed tooLarge).earlier begun

theorem Attempt.explains_each {Item : Type} {attempt : Item → Attempt Schema Row} (items : List Item)
    (explained : ∀ item ∈ items, (attempt item).Explains driver tableName maxBytes) :
    (Attempt.each items attempt).Explains driver tableName maxBytes := by
  induction items with
  | nil => exact explains_done
  | cons item items rest =>
      exact (explained item List.mem_cons_self).andThen
        (rest fun other member => explained other (List.mem_cons_of_mem _ member))

/-- The error of a refused single row is told apart from the other error of an ingest. -/
theorem retryError_inner {tableName reason message : String}
    (same : ingestError tableName reason = retryError tableName message) : message.toList <:+: reason.toList := by
  have literal : "'): single-row batch still exceeds FlightSQL message limit: " =
      "'): " ++ "single-row batch still exceeds FlightSQL message limit: " := rfl
  unfold retryError ingestError at same
  dsimp only [toString] at same
  rw [literal] at same
  simp only [String.append_assoc, String.append_right_inj] at same
  refine ⟨"single-row batch still exceeds FlightSQL message limit: ".toList, ?_, ?_⟩
  rotate_left
  · rw [same]
    simp only [String.toList_append, List.append_assoc]
    rfl

theorem streamError_ne (tableName reason message : String) :
    streamError tableName reason ≠ retryError tableName message := by
  have stream : "ADBC stream bulk ingest failed for source table '" =
      "ADBC s" ++ "tream bulk ingest failed for source table '" := rfl
  have direct : "ADBC bulk ingest failed for source table '" =
      "ADBC b" ++ "ulk ingest failed for source table '" := rfl
  have different (one other : String) : "ADBC s" ++ one ≠ "ADBC b" ++ other := by
    intro same
    have letters := congrArg (fun text => text.toList[5]?) same
    simp at letters
  unfold retryError streamError
  intro same
  dsimp only [toString] at same
  rw [stream, direct] at same
  simp only [String.append_assoc] at same
  exact different _ _ same

theorem head?_of_letter {text rest : String} {letter : Char} (opening : text = String.singleton letter ++ rest)
    (others : String) : (text ++ others).toList.head? = some letter := by
  simp [opening]

/-- The errors of the driver are told apart from the error of a split by their first letter. -/
theorem driverError_head (tableName reason : String) :
    (ingestError tableName reason).toList.head? = some 'A' ∧
    (streamError tableName reason).toList.head? = some 'A' ∧
    (retryError tableName reason).toList.head? = some 'A' := by
  unfold ingestError streamError retryError
  dsimp only [toString]
  simp only [String.append_assoc]
  have direct : "ADBC bulk ingest failed for source table '" =
      String.singleton 'A' ++ "DBC bulk ingest failed for source table '" := rfl
  have stream : "ADBC stream bulk ingest failed for source table '" =
      String.singleton 'A' ++ "DBC stream bulk ingest failed for source table '" := rfl
  exact ⟨head?_of_letter direct _, head?_of_letter stream _, head?_of_letter direct _⟩

theorem splitError_head (maxBytes : Nat) : (splitError maxBytes).toList.head? = some 'S' := by
  have opening : "Single-row batch exceeds max ingest payload (" =
      String.singleton 'S' ++ "ingle-row batch exceeds max ingest payload (" := rfl
  unfold splitError
  dsimp only [toString]
  rw [String.append_assoc]
  exact head?_of_letter opening _

theorem ne_splitError {error : String} (head : error.toList.head? ≠ some 'S') (maxBytes : Nat) :
    error ≠ splitError maxBytes := by
  rintro rfl
  exact head (splitError_head maxBytes)

theorem driverError_ne (tableName reason : String) (maxBytes : Nat) :
    ingestError tableName reason ≠ splitError maxBytes ∧ streamError tableName reason ≠ splitError maxBytes := by
  obtain ⟨ingest, stream, _⟩ := driverError_head tableName reason
  exact ⟨ne_splitError (by rw [ingest]; decide) maxBytes, ne_splitError (by rw [stream]; decide) maxBytes⟩

theorem tooLarge_of_substring {part whole : String} (inner : part.toList <:+: whole.toList)
    (tooLarge : isMessageTooLargeError part = true) : isMessageTooLargeError whole = true := by
  unfold isMessageTooLargeError at *
  generalize "ResourceExhausted".toList = exhausted at *
  generalize "message larger than max".toList = larger at *
  rw [decide_eq_true_iff] at *
  rcases tooLarge with named | named
  · exact .inl (named.trans inner)
  · exact .inr (named.trans inner)

/-- The handler of refused batches explains its errors, or fails because a single row was refused as too large. -/
theorem Attempt.Relays.explains {batches : List (RecordBatch Schema Row)} {handler : String → Attempt Schema Row}
    (relays : first.Relays driver batches)
    (handled : ∀ message, (handler message).Explains driver tableName maxBytes ∨
      (isMessageTooLargeError message = true ∧ (∃ piece, batches = [piece] ∧ piece.numRows ≤ 1) ∧
        ∃ error, handler message = .fail error)) :
    (first.orElse handler).Explains driver tableName maxBytes := by
  intro log
  obtain ⟨begun, relayed⟩ := relays log
  unfold Attempt.orElse
  rcases made : first log with ⟨result, middle⟩
  rw [made] at begun relayed
  cases result with
  | ok value => exact ⟨begun, fun _ failed => by cases failed⟩
  | error reason =>
      dsimp only
      rcases handled reason with explains | ⟨tooLarge, ⟨piece, rfl, single⟩, error, same⟩
      · obtain ⟨continued, explained⟩ := explains middle
        refine ⟨begun.trans continued, ?_⟩
        intro message failed tooLarge
        exact (explained message failed tooLarge).earlier begun
      · obtain ⟨before, options, last, started, answered⟩ := relayed reason rfl
        rw [same]
        refine ⟨begun, ?_⟩
        intro message failed _
        exact ⟨before, [], options, piece, reason, last, started, single, answered, tooLarge⟩

/-- A direct ingest explains its errors, however often it halves the batch. -/
theorem bulkIngestWithRetry_explains (batch : RecordBatch Schema Row) :
    (target.bulkIngestWithRetry driver tableName batch).Explains driver tableName maxBytes := by
  induction batch using halves_induction with
  | _ batch smaller =>
      unfold bulkIngestWithRetry
      apply @Attempt.Relays.explains _ _ _ _ _ _ [batch]
      · split_ifs
        · exact (driver.relays_bulkIngestStream _ _).retried (driver.relays_bulkIngestStream _ _)
        · exact driver.relays_bulkIngestStream _ _
      · intro message
        split_ifs with tooLarge single
        · exact .inr ⟨tooLarge, ⟨batch, rfl, single⟩, _, rfl⟩
        · left
          apply Attempt.Explains.andThen
          · exact (smaller single).1
          · exact (smaller single).2
        · left
          apply Attempt.explains_fail
          rintro (same | ⟨inner, large, same⟩)
          · exact (driverError_ne tableName message maxBytes).1 same
          · exact tooLarge (tooLarge_of_substring (retryError_inner same) large)

theorem bulkIngestStreamForBatches_explains (batches : List (RecordBatch Schema Row)) :
    (target.bulkIngestStreamForBatches driver tableName batches).Explains driver tableName maxBytes := by
  unfold bulkIngestStreamForBatches
  split
  · exact Attempt.explains_done
  · apply @Attempt.Relays.explains _ _ _ _ _ _ batches
    · split_ifs
      · exact (driver.relays_bulkIngestStream _ _).retried (driver.relays_bulkIngestStream _ _)
      · exact driver.relays_bulkIngestStream _ _
    · intro message
      left
      split_ifs
      · exact Attempt.explains_each _ fun batch _ => bulkIngestWithRetry_explains batch
      · apply Attempt.explains_fail
        rintro (same | ⟨inner, _, same⟩)
        · exact (driverError_ne tableName message maxBytes).2 same
        · exact streamError_ne tableName message inner same

/-- A size that cannot be measured is reported in its own words. -/
def Sizes.Reported (sizes : Sizes Schema Row) : Prop :=
  ∀ piece message, sizes.serializedBatchSize piece = .error message → "Failed to ".toList <+: message.toList

theorem Sizes.Reported.not_tooLargeError {piece : RecordBatch Schema Row} {error : String}
    (reported : sizes.Reported) (unmeasured : sizes.serializedBatchSize piece = .error error) :
    ¬TooLargeError tableName maxBytes error := by
  have head : error.toList.head? = some 'F' := by
    obtain ⟨rest, same⟩ := reported piece error unmeasured
    rw [← same]
    rfl
  rintro (split | ⟨message, _, retried⟩)
  · exact ne_splitError (by rw [head]; decide) maxBytes split
  · rw [retried, (driverError_head tableName message).2.2] at head
    cases head

/-- An insert that goes through hands over every row once and in order, and it says that something is too
large only when a single row was refused by the driver or by the size test. -/
theorem ingestInsertBatch_lossless (driver : Driver Schema Row) (target : AdbcTarget) (tableName : String)
    {sizes : Sizes Schema Row} (reported : sizes.Reported) (batch : RecordBatch Schema Row) :
    ((target.ingestInsertBatch driver tableName sizes batch []).1 = .ok () →
      ingestedRows (target.ingestInsertBatch driver tableName sizes batch []).2 = batch.rows) ∧
    ∀ error, (target.ingestInsertBatch driver tableName sizes batch []).1 = .error error →
      TooLargeError tableName target.maxIngestBatchBytes error →
      SingleRefused driver [] (target.ingestInsertBatch driver tableName sizes batch []).2 ∨
      ∃ position, Reached sizes batch target.maxIngestBatchBytes position ∧ position < batch.numRows ∧
        RowTooLarge sizes batch target.maxIngestBatchBytes position := by
  refine ⟨ingestInsertBatch_yields batch [], ?_⟩
  intro error failed tooLarge
  rcases ingestInsertBatch_path sizes batch with ⟨message, cause, same⟩ | direct | ⟨batches, split, streamed⟩
  · rw [same] at failed
    obtain rfl := Except.error.inj failed
    rcases cause with unmeasured | stopped
    · exact absurd tooLarge (reported.not_tooLargeError unmeasured)
    · rcases splitFrom_error .zero stopped with ⟨piece, unmeasured⟩ | ⟨_, single⟩
      · exact absurd tooLarge (reported.not_tooLargeError unmeasured)
      · exact .inr single
  · rw [direct] at failed ⊢
    exact .inl ((bulkIngestWithRetry_explains batch []).2 error failed tooLarge)
  · rw [streamed] at failed ⊢
    exact .inl ((bulkIngestStreamForBatches_explains batches []).2 error failed tooLarge)

/-- The driver takes batches with a limited number of rows. -/
def limitedDriver (limit : Nat) : Driver Unit Nat := fun _ _ batches =>
  if (batches.map RecordBatch.numRows).sum ≤ limit then .ok () else .error "message larger than max"

/-- Three rows go out one by one, and a driver that takes no row is to blame. -/
theorem ingestInsertBatch_lossless_sample :
    ingestedRows (AdbcTarget.ingestInsertBatch ⟨none, some "bench", 100⟩ (limitedDriver 1) "orders" sampleSizes
      ⟨(), [1, 2, 3]⟩ []).2 = [1, 2, 3] ∧
    (SingleRefused (limitedDriver 0) [] (AdbcTarget.ingestInsertBatch ⟨none, some "bench", 100⟩ (limitedDriver 0)
        "orders" sampleSizes ⟨(), [1, 2, 3]⟩ []).2 ∨
      ∃ position, Reached sampleSizes ⟨(), [1, 2, 3]⟩ 100 position ∧ position < 3 ∧
        RowTooLarge sampleSizes ⟨(), [1, 2, 3]⟩ 100 position) := by
  have reported : sampleSizes.Reported := by
    intro piece message failed
    cases failed
  constructor
  · exact (ingestInsertBatch_lossless (limitedDriver 1) ⟨none, some "bench", 100⟩ "orders" reported ⟨(), [1, 2, 3]⟩).1
      (by decide +kernel)
  · exact (ingestInsertBatch_lossless (limitedDriver 0) ⟨none, some "bench", 100⟩ "orders" reported ⟨(), [1, 2, 3]⟩).2
      (retryError "orders" "message larger than max") (by decide +kernel) (.inr ⟨_, by decide, rfl⟩)

end Ingesting

end Spicebench.Sink
