import Spicebench.Construction.Validation

namespace Spicebench.Validation

variable {Value : Type} {rendering : Rendering Value} {actual expected : RecordBatch Value}
  {batches actualBatches expectedBatches : List (RecordBatch Value)}

/-- The batches hold the rows of the result in this order; without rows there may be no batch. -/
inductive Divides (result : RecordBatch Value) : List (RecordBatch Value) → Prop
  | none (empty : result.numRows = 0) : Divides result []
  | some (first : RecordBatch Value) (rest : List (RecordBatch Value))
      (typed : ∀ batch ∈ first :: rest, batch.schema = result.schema)
      (whole : concatBatches result.schema (first :: rest) = .ok result) : Divides result (first :: rest)

/-- The comparison of two whole results. -/
def compareResults (rendering : Rendering Value) (actual expected : RecordBatch Value) :
    Except String QueryValidationResult :=
  if equivalentSchemas expected.schema actual.schema then
    if expected.numRows ≠ actual.numRows then .ok (.fail (.rowCountMismatch expected.numRows actual.numRows))
    else validateBatchesAsStrings rendering expected actual
  else .ok (.fail .schemaMismatch)

theorem concatColumns_singleton (batch : RecordBatch Value) :
    concatColumns batch.schema.length [batch] = batch.columns := by
  apply List.ext_getElem
  · simp [concatColumns, batch.complete]
  · intro index _ inside
    simp [concatColumns, RecordBatch.column, inside]

/-- A result is divided into itself. -/
theorem divides_singleton (result : RecordBatch Value) : Divides result [result] := by
  refine .some result [] (by simp) ?_
  unfold concatBatches
  rw [dif_pos (by simp)]
  congr 1
  ext1
  · rfl
  · simp
  · exact concatColumns_singleton result

/-- Two divisions that are not empty are compared as the whole results. -/
theorem validate_divided (divided : Divides actual actualBatches) (against : Divides expected expectedBatches)
    (some : actualBatches ≠ []) (others : expectedBatches ≠ []) :
    validateWithExpectedBatches rendering actualBatches expectedBatches =
      compareResults rendering actual expected := by
  cases divided with
  | none => exact absurd rfl some
  | some actualFirst actualRest actualTyped actualWhole =>
      cases against with
      | none => exact absurd rfl others
      | some expectedFirst expectedRest expectedTyped expectedWhole =>
          unfold validateWithExpectedBatches compareResults
          dsimp only
          rw [actualTyped actualFirst List.mem_cons_self, expectedTyped expectedFirst List.mem_cons_self,
            actualWhole, expectedWhole]
          rfl

/-- A result with rows is never divided into no batch. -/
theorem Divides.ne_nil {result : RecordBatch Value} (divided : Divides result batches) (rows : 0 < result.numRows) :
    batches ≠ [] := by
  cases divided with
  | none empty => omega
  | some => simp

/-- Whole results of different sizes do not pass. -/
theorem validate_sizes (divided : Divides actual actualBatches) (against : Divides expected expectedBatches)
    (sizes : expected.numRows ≠ actual.numRows) :
    validateWithExpectedBatches rendering actualBatches expectedBatches ≠ .ok .pass := by
  cases divided with
  | none empty =>
      have others := against.ne_nil (by omega)
      cases against with
      | none => exact absurd rfl others
      | some => simp [validateWithExpectedBatches]
  | some actualFirst actualRest actualTyped actualWhole =>
      cases against with
      | none => simp [validateWithExpectedBatches]
      | some expectedFirst expectedRest expectedTyped expectedWhole =>
          rw [validate_divided (.some _ _ actualTyped actualWhole) (.some _ _ expectedTyped expectedWhole) (by simp)
            (by simp)]
          unfold compareResults
          split_ifs <;> simp

/-- A mismatch of two cells names the column. -/
theorem compareCells_reason {field : Field} {rowNumber : Nat} {one other : Option String}
    {reason : QueryValidationFailReason} (compared : compareCells rendering field rowNumber one other = some reason) :
    ∃ left right, reason = .dataMismatch field.name rowNumber left right := by
  unfold compareCells at compared
  split at compared
  · simp at compared
  · exact ⟨_, _, (Option.some.inj compared).symm⟩
  · exact ⟨_, _, (Option.some.inj compared).symm⟩
  · split_ifs at compared
    exact ⟨_, _, (Option.some.inj compared).symm⟩

/-- A mismatch of two columns is a mismatch of two of their cells. -/
theorem compareRows_reason {field : Field} {actualType : DataType} {pairs : List (Option Value × Option Value)}
    {row : Nat} {reason : QueryValidationFailReason}
    (compared : compareRows rendering field actualType row pairs = .ok (some reason)) :
    ∃ rowNumber left right, reason = .dataMismatch field.name rowNumber left right := by
  induction pairs generalizing row with
  | nil => simp [compareRows] at compared
  | cons pair pairs found =>
      unfold compareRows at compared
      cases left : arrayValueToString rendering field.dataType pair.1 with
      | error message => simp [left, bind, Except.bind] at compared
      | ok one =>
          cases right : arrayValueToString rendering actualType pair.2 with
          | error message => simp [left, right, bind, Except.bind] at compared
          | ok other =>
              simp only [left, right, bind, Except.bind] at compared
              split at compared
              · rename_i mismatch differs
                obtain ⟨left, right, same⟩ := compareCells_reason differs
                have equal : mismatch = reason := by simpa [pure, Except.pure] using compared
                exact ⟨_, left, right, equal ▸ same⟩
              · exact found compared

/-- The comparison of columns never finds a whole answer missing. -/
theorem compareColumns_fail {columns : List (Field × Field × List (Option Value) × List (Option Value))}
    {reason : QueryValidationFailReason} (compared : compareColumns rendering columns = .ok (.fail reason)) :
    reason ≠ .noAnswer ∧ reason ≠ .noExpectedAnswer := by
  induction columns with
  | nil => simp [compareColumns] at compared
  | cons column columns found =>
      unfold compareColumns at compared
      split_ifs at compared with lengths
      · obtain rfl : _ = reason := by simpa using compared
        simp
      · cases rows : compareRows rendering column.1 column.2.1.dataType 0 (column.2.2.1.zip column.2.2.2) with
        | error message => simp [rows, bind, Except.bind] at compared
        | ok mismatch =>
            simp only [rows, bind, Except.bind] at compared
            cases mismatch with
            | none => exact found compared
            | some mismatch =>
                obtain ⟨rowNumber, left, right, rfl⟩ := compareRows_reason rows
                obtain rfl : _ = reason := by simpa [pure, Except.pure] using compared
                simp

/-- Whole results are never found missing. -/
theorem compareResults_ne (rendering : Rendering Value) (actual expected : RecordBatch Value) :
    compareResults rendering actual expected ≠ .ok (.fail .noAnswer) ∧
      compareResults rendering actual expected ≠ .ok (.fail .noExpectedAnswer) := by
  unfold compareResults
  split_ifs
  · simp
  · constructor
    · intro missing
      exact (compareColumns_fail missing).1 rfl
    · intro missing
      exact (compareColumns_fail missing).2 rfl
  · simp

/-- The verdict with its reason is the same for all divisions of two results exactly when both have
rows, and whether they pass is the same exactly when one of them has rows. -/
theorem verdict_division_iff (rendering : Rendering Value) (actual expected : RecordBatch Value) :
    ((∀ actualBatches actualOthers expectedBatches expectedOthers, Divides actual actualBatches →
        Divides actual actualOthers → Divides expected expectedBatches → Divides expected expectedOthers →
        validateWithExpectedBatches rendering actualBatches expectedBatches =
          validateWithExpectedBatches rendering actualOthers expectedOthers) ↔
      0 < actual.numRows ∧ 0 < expected.numRows) ∧
    ((∀ actualBatches actualOthers expectedBatches expectedOthers, Divides actual actualBatches →
        Divides actual actualOthers → Divides expected expectedBatches → Divides expected expectedOthers →
        (validateWithExpectedBatches rendering actualBatches expectedBatches = .ok .pass ↔
          validateWithExpectedBatches rendering actualOthers expectedOthers = .ok .pass)) ↔
      ¬ (actual.numRows = 0 ∧ expected.numRows = 0)) := by
  have whole : ∀ actualBatches expectedBatches, Divides actual actualBatches → Divides expected expectedBatches →
      0 < actual.numRows → 0 < expected.numRows →
      validateWithExpectedBatches rendering actualBatches expectedBatches =
        compareResults rendering actual expected := by
    intro actualBatches expectedBatches divided against rows others
    exact validate_divided divided against (divided.ne_nil rows) (against.ne_nil others)
  have single := @validate_divided _ rendering _ _ _ _ (divides_singleton actual) (divides_singleton expected) (by simp)
    (by simp)
  obtain ⟨answered, known⟩ := compareResults_ne rendering actual expected
  refine ⟨⟨?_, ?_⟩, ⟨?_, ?_⟩⟩
  · intro same
    refine ⟨Nat.pos_of_ne_zero ?_, Nat.pos_of_ne_zero ?_⟩
    · intro empty
      have equal := same [] [actual] [expected] [expected] (.none empty) (divides_singleton actual)
        (divides_singleton expected) (divides_singleton expected)
      rw [single] at equal
      exact answered equal.symm
    · intro empty
      have equal := same [actual] [actual] [] [expected] (divides_singleton actual) (divides_singleton actual)
        (.none empty) (divides_singleton expected)
      rw [single] at equal
      exact known equal.symm
  · rintro ⟨rows, others⟩ actualBatches actualOthers expectedBatches expectedOthers one two three four
    rw [whole _ _ one three rows others, whole _ _ two four rows others]
  · rintro same ⟨empty, none⟩
    have equal := same [] [] [] [expected] (.none empty) (.none empty) (.none none) (divides_singleton expected)
    simp [validateWithExpectedBatches] at equal
  · intro some actualBatches actualOthers expectedBatches expectedOthers one two three four
    by_cases sizes : expected.numRows = actual.numRows
    · have rows : 0 < actual.numRows := by omega
      rw [whole _ _ one three rows (by omega), whole _ _ two four rows (by omega)]
    · simp [validate_sizes one three sizes, validate_sizes two four sizes]

/-- Every value is written as one text. -/
def sampleRendering : Rendering Unit := ⟨fun _ _ => .ok "0", fun text => text, fun _ _ => false⟩

/-- A result with one column and no rows. -/
def emptyResult : RecordBatch Unit := ⟨[⟨"n", .int64⟩], 0, [[]], rfl, by simp⟩

/-- A result without rows passes against itself or fails, as it is divided. -/
theorem empty_results_differ :
    Divides emptyResult [] ∧ Divides emptyResult [emptyResult] ∧
    validateWithExpectedBatches sampleRendering [] [] = .ok .pass ∧
    validateWithExpectedBatches sampleRendering [emptyResult] [emptyResult] = .ok .pass ∧
    validateWithExpectedBatches sampleRendering [] [emptyResult] = .ok (.fail .noAnswer) ∧
    validateWithExpectedBatches sampleRendering [emptyResult] [] = .ok (.fail .noExpectedAnswer) := by
  refine ⟨.none rfl, divides_singleton _, rfl, ?_, rfl, rfl⟩
  rw [validate_divided (divides_singleton _) (divides_singleton _) (by simp) (by simp)]
  rfl

end Spicebench.Validation
