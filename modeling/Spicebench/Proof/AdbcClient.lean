import Spicebench.Construction.AdbcClient
import Spicebench.Library.Traversal
import Mathlib.Data.Rat.Cast.Order

namespace Spicebench.AdbcClient

open Library

variable {Value : Type} {typeName : String → Option String} {cast : Cast Value}

/-- The decimal number that a text writes, with or without an exponent. -/
def written (text : String) : Option ℚ :=
  (parseDecimal (splitSign text.toList).2).map fun number =>
    if (splitSign text.toList).1 then -number.value else number.value

/-- A text writes a number that a `Decimal128(38, scale)` holds. -/
def Representable (scale : Int) (text : String) : Prop :=
  scale ≤ 38 ∧ ∃ value : Int, written text = some (value / (10 : ℚ) ^ scale) ∧ |value| < 10 ^ 38

/-- The documented behaviour of the cast: it is made cell by cell, refuses a scale above the largest one, and gives
null for a text that it cannot parse and for a number that overflows. -/
structure Documented (cast : Cast Value) (parses : Int → String → Bool) (value : Int → String → Option Int) :
    Prop where
  accepted : ∀ {scale cells}, 0 ≤ scale → scale ≤ 38 → cast (.utf8 cells) (.decimal128 38 scale) =
    .ok (.decimal128 38 scale (cells.map fun cell => cell.bind (value scale)))
  rejected : ∀ {scale cells}, 38 < scale → ∃ message, cast (.utf8 cells) (.decimal128 38 scale) = .error message
  unparsed : ∀ {scale text}, parses scale text = false → value scale text = none
  overflow : ∀ {scale text number}, value scale text = some number → |number| < 10 ^ 38
  exact : ∀ {scale text} {number : Int}, 0 ≤ scale → scale ≤ 38 → parses scale text = true →
    written text = some (number / (10 : ℚ) ^ scale) → |number| < 10 ^ 38 → value scale text = some number

/-- A converted cell is null like the text, or the number that the text writes. -/
def Exact (scale : Int) (cell : Option String) (converted : Option Int) : Prop :=
  match cell, converted with
  | none, none => True
  | some text, some number => written text = some (number / (10 : ℚ) ^ scale)
  | _, _ => False

/-- A column of texts has become a column of the same decimal numbers. -/
def ConvertedAt (scale : Int) (colIdx : Nat) (batch result : RecordBatch Value) : Prop :=
  ∃ field cells resolved numbers, batch.entries[colIdx]? = some (field, .utf8 cells) ∧
    result.entries[colIdx]? = some (resolved, .decimal128 38 scale numbers) ∧ List.Forall₂ (Exact scale) cells numbers

def UnchangedAt (colIdx : Nat) (batch result : RecordBatch Value) : Prop :=
  result.entries[colIdx]? = batch.entries[colIdx]?

/-- Some batch has the text in a column. -/
def HasText (batches : List (RecordBatch Value)) (colIdx : Nat) (text : String) : Prop :=
  ∃ batch ∈ batches, ∃ field cells, batch.entries[colIdx]? = some (field, .utf8 cells) ∧ some text ∈ cells

/-- The function returns, and each opaque column is converted exactly, or left alone because of a text whose number
does not fit. -/
def Faithful (typeName : String → Option String) (cast : Cast Value) (schema : List Field)
    (batches : List (RecordBatch Value)) : Prop :=
  ∃ results, resolveOpaqueNumerics typeName cast batches = some results ∧
    ∀ colIdx field, schema[colIdx]? = some field → isOpaqueNumeric typeName field = true →
      ∃ scale, inferScale batches colIdx = some scale ∧
        (List.Forall₂ (ConvertedAt scale colIdx) batches results ∨
          (∃ text, HasText batches colIdx text ∧ ¬ Representable scale text) ∧
            List.Forall₂ (UnchangedAt colIdx) batches results)

section Scale

variable {schema : List Field} {batches : List (RecordBatch Value)} {colIdx : Nat} {field : Field}

theorem maxDecimalScale_from (cells : List (Option String)) (scale : Int) :
    let folded := cells.foldl (fun scale cell =>
      match cell.bind bytesBehindPoint with
      | some bytes => max scale (asI8 bytes)
      | none => scale) scale
    scale ≤ folded ∧ (scale < folded → ∃ text, some text ∈ cells) := by
  induction cells generalizing scale with
  | nil => exact ⟨le_rfl, fun grown => absurd grown (lt_irrefl _)⟩
  | cons cell rest ih =>
      dsimp only at ih ⊢
      rw [List.foldl_cons]
      cases cell with
      | none =>
          obtain ⟨above, grown⟩ := ih scale
          refine ⟨above, fun more => ?_⟩
          obtain ⟨text, member⟩ := grown more
          exact ⟨text, List.mem_cons_of_mem _ member⟩
      | some text =>
          refine ⟨?_, fun _ => ⟨text, List.mem_cons_self⟩⟩
          cases found : (some text).bind bytesBehindPoint with
          | none => exact (ih scale).1
          | some bytes => exact (le_max_left _ _).trans (ih _).1

/-- The inferred scale is zero or comes from some text. -/
theorem inferScale_from (oneSchema : ∀ batch ∈ batches, batch.schema = schema) (inside : schema[colIdx]? = some field)
    (start : Int) :
    ∃ scale, batches.foldlM (fun scale batch =>
        batch.entries[colIdx]?.map fun entry : Field × Column Value =>
          match entry.2 with
          | .utf8 cells => max scale (maxDecimalScale cells)
          | _ => scale) start = some scale ∧
      start ≤ scale ∧ (0 ≤ start → start < scale → ∃ text, HasText batches colIdx text) := by
  induction batches generalizing start with
  | nil => exact ⟨start, rfl, le_rfl, fun _ grown => absurd grown (lt_irrefl _)⟩
  | cons batch rest ih =>
      have later : ∀ other ∈ rest, other.schema = schema := fun other member =>
        oneSchema other (List.mem_cons_of_mem _ member)
      obtain ⟨entry, found⟩ : ∃ entry, batch.entries[colIdx]? = some entry := by
        have here := inside
        rw [← oneSchema batch List.mem_cons_self, RecordBatch.schema, List.getElem?_map,
          Option.map_eq_some_iff] at here
        obtain ⟨entry, found, -⟩ := here
        exact ⟨entry, found⟩
      have widen : ∀ {text}, HasText rest colIdx text → HasText (batch :: rest) colIdx text := by
        rintro text ⟨other, member, has⟩
        exact ⟨other, List.mem_cons_of_mem _ member, has⟩
      obtain ⟨named, column⟩ := entry
      rw [List.foldlM_cons, found]
      cases column with
      | utf8 cells =>
          obtain ⟨scale, folded, above, grown⟩ := ih later (max start (maxDecimalScale cells))
          refine ⟨scale, folded, (le_max_left _ _).trans above, fun positive more => ?_⟩
          by_cases own : start < maxDecimalScale cells
          · obtain ⟨text, member⟩ := (maxDecimalScale_from cells 0).2 (positive.trans_lt own)
            exact ⟨text, batch, List.mem_cons_self, named, cells, found, member⟩
          · rw [max_eq_left (not_lt.mp own)] at grown
            obtain ⟨text, has⟩ := grown positive more
            exact ⟨text, widen has⟩
      | decimal128 precision other cells =>
          obtain ⟨scale, folded, above, grown⟩ := ih later start
          refine ⟨scale, folded, above, fun positive more => ?_⟩
          obtain ⟨text, has⟩ := grown positive more
          exact ⟨text, widen has⟩
      | other name cells =>
          obtain ⟨scale, folded, above, grown⟩ := ih later start
          refine ⟨scale, folded, above, fun positive more => ?_⟩
          obtain ⟨text, has⟩ := grown positive more
          exact ⟨text, widen has⟩

theorem exists_inferScale (oneSchema : ∀ batch ∈ batches, batch.schema = schema)
    (inside : schema[colIdx]? = some field) :
    ∃ scale, inferScale batches colIdx = some scale ∧ 0 ≤ scale ∧
      (0 < scale → ∃ text, HasText batches colIdx text) := by
  obtain ⟨scale, folded, above, grown⟩ := inferScale_from oneSchema inside 0
  exact ⟨scale, folded, above, grown le_rfl⟩

theorem mem_opaqueCols : colIdx ∈ opaqueCols typeName schema ↔
    ∃ field, schema[colIdx]? = some field ∧ isOpaqueNumeric typeName field = true := by
  simp only [opaqueCols, List.mem_map, List.mem_filter, Prod.exists, List.mem_zipIdx_iff_getElem?]
  constructor
  · rintro ⟨field, index, ⟨found, numeric⟩, rfl⟩
    exact ⟨field, found, numeric⟩
  · rintro ⟨field, found, numeric⟩
    exact ⟨field, colIdx, ⟨found, numeric⟩, rfl⟩

end Scale

section Resolve

variable {schema : List Field} {batches : List (RecordBatch Value)} {colIdx : Nat} {field : Field}

/-- The scales are found under the opaque columns. -/
theorem lookup_scales {indexes : List Nat} {scaleOf : Nat → Option Int} {scales : List (Nat × Int)}
    (mapped : indexes.mapM (fun index => (scaleOf index).map (Prod.mk index)) = some scales) (index : Nat) :
    scales.lookup index = if index ∈ indexes then scaleOf index else none := by
  have related := mapM_eq_some_iff.mp mapped
  clear mapped
  induction related with
  | nil => rfl
  | @cons first entry rest others found _ ih =>
      obtain ⟨scale, known, rfl⟩ := Option.map_eq_some_iff.mp found
      rw [List.lookup_cons]
      by_cases same : index = first
      · subst same
        simp [known]
      · have differ : (index == first) = false := beq_eq_false_iff_ne.mpr same
        simp [differ, ih, same]

theorem exists_scales (oneSchema : ∀ batch ∈ batches, batch.schema = schema) :
    ∃ scales, ((opaqueCols typeName schema).mapM fun colIdx => (inferScale batches colIdx).map (Prod.mk colIdx)) =
      some scales := by
  apply exists_mapM_eq_some
  intro colIdx listed
  obtain ⟨field, inside, -⟩ := mem_opaqueCols.mp listed
  obtain ⟨scale, inferred, -⟩ := exists_inferScale oneSchema inside
  exact ⟨(colIdx, scale), Option.map_eq_some_iff.mpr ⟨scale, inferred, rfl⟩⟩

theorem entries_of_tryNew {entries : List (Field × Column Value)} {result : RecordBatch Value}
    (made : RecordBatch.tryNew entries = some result) : result.entries = entries := by
  unfold RecordBatch.tryNew at made
  split at made
  · cases made
  · split_ifs at made
    exact congrArg RecordBatch.entries (Option.some.inj made).symm

theorem exists_tryNew {entries : List (Field × Column Value)} {rows : Nat} (nonempty : entries ≠ [])
    (valid : ∀ entry ∈ entries, Fits rows entry) : ∃ result, RecordBatch.tryNew entries = some result := by
  obtain ⟨first, rest, rfl⟩ := List.exists_cons_of_ne_nil nonempty
  have long : first.2.length = rows := (valid first List.mem_cons_self).2.2
  refine ⟨_, dif_pos ?_⟩
  rw [long]
  exact valid

/-- What a batch has at a column becomes what the conversion makes of it. -/
theorem entries_of_resolveBatch {scales : List (Nat × Int)} {batch result : RecordBatch Value}
    (resolved : resolveBatch cast scales batch = some result) (colIdx : Nat) :
    result.entries[colIdx]? = batch.entries[colIdx]?.map (convert cast (scales.lookup colIdx)) := by
  rw [entries_of_tryNew resolved, List.getElem?_map, List.getElem?_zipIdx]
  cases batch.entries[colIdx]? with
  | none => rfl
  | some entry => simp

/-- An opaque column holds texts. -/
theorem exists_cells {batch : RecordBatch Value} (same : batch.schema = schema) (inside : schema[colIdx]? = some field)
    (numeric : isOpaqueNumeric typeName field = true) :
    ∃ cells, batch.entries[colIdx]? = some (field, .utf8 cells) := by
  rw [← same, RecordBatch.schema, List.getElem?_map, Option.map_eq_some_iff] at inside
  obtain ⟨⟨named, column⟩, found, rfl⟩ := inside
  have text : named.dataType = .utf8 := by
    by_contra other
    rw [isOpaqueNumeric, if_pos other] at numeric
    cases numeric
  have typed := (batch.valid _ (List.mem_of_getElem? found)).1
  rw [text] at typed
  cases column with
  | utf8 cells => exact ⟨cells, found⟩
  | decimal128 precision scale cells => cases typed
  | other name cells => cases typed

end Resolve

section Faithful

variable {parses : Int → String → Bool} {value : Int → String → Option Int} {schema : List Field}
  {batches : List (RecordBatch Value)} {colIdx : Nat} {field : Field} {scale : Int}

/-- A text is carried over when the cast can parse it and its number fits. -/
def Carried (parses : Int → String → Bool) (scale : Int) (text : String) : Prop :=
  parses scale text = true ∧ Representable scale text

theorem exact_iff_carried (documented : Documented cast parses value) (positive : 0 ≤ scale) (bounded : scale ≤ 38)
    (text : String) : Exact scale (some text) (value scale text) ↔ Carried parses scale text := by
  constructor
  · intro exact
    cases found : value scale text with
    | none => simp [Exact, found] at exact
    | some number =>
        simp only [Exact, found] at exact
        refine ⟨?_, bounded, number, exact, documented.overflow found⟩
        by_contra unread
        rw [documented.unparsed (Bool.not_eq_true _ ▸ unread)] at found
        cases found
  · rintro ⟨read, -, number, writes, small⟩
    rw [documented.exact positive bounded read writes small]
    exact writes

theorem exact_cells_iff (documented : Documented cast parses value) (positive : 0 ≤ scale) (bounded : scale ≤ 38)
    (cells : List (Option String)) :
    List.Forall₂ (Exact scale) cells (cells.map fun cell => cell.bind (value scale)) ↔
      ∀ text, some text ∈ cells → Carried parses scale text := by
  rw [List.forall₂_map_right_iff, List.forall₂_same]
  constructor
  · intro each text member
    exact (exact_iff_carried documented positive bounded text).mp (each (some text) member)
  · intro each cell member
    cases cell with
    | none => trivial
    | some text => exact (exact_iff_carried documented positive bounded text).mpr (each text member)

theorem convert_rejected (documented : Documented cast parses value) (large : 38 < scale)
    (cells : List (Option String)) : convert cast (some scale) (field, .utf8 cells) = (field, .utf8 cells) := by
  obtain ⟨message, refused⟩ := @Documented.rejected _ _ _ _ documented scale cells large
  simp only [convert, refused]

theorem convert_accepted (documented : Documented cast parses value) (positive : 0 ≤ scale) (bounded : scale ≤ 38)
    (cells : List (Option String)) :
    convert cast (some scale) (field, .utf8 cells) =
      (⟨field.name, .decimal128 38 scale, field.nullable, fun _ => none⟩,
        .decimal128 38 scale (cells.map fun cell => cell.bind (value scale))) := by
  simp only [convert, documented.accepted positive bounded]

/-- A column whose texts are all carried over still fits its batch. -/
theorem fits_convert (documented : Documented cast parses value) {rows : Nat} {cells : List (Option String)}
    (fits : Fits rows ((field, .utf8 cells) : Field × Column Value)) (positive : 0 ≤ scale)
    (carried : 38 < scale ∨ ∀ text, some text ∈ cells → Carried parses scale text) :
    Fits rows (convert cast (some scale) (field, .utf8 cells)) := by
  by_cases large : 38 < scale
  · rw [convert_rejected documented large]
    exact fits
  · have bounded := not_lt.mp large
    have exact := (exact_cells_iff documented positive bounded cells).mpr (carried.resolve_left large)
    rw [convert_accepted documented positive bounded]
    obtain ⟨-, nulls, long⟩ := fits
    refine ⟨rfl, nulls.imp_right ?_, by simpa [Column.length] using long⟩
    intro full
    simp only [Column.hasNulls, List.any_eq_false, Option.isNone_iff_eq_none] at full ⊢
    intro converted member
    obtain ⟨cell, inside, rfl⟩ := List.mem_map.mp member
    cases cell with
    | none => exact absurd rfl (full none inside)
    | some text =>
        have kept := (exact_iff_carried documented positive bounded text).mpr
          (carried.resolve_left large text inside)
        intro lost
        rw [Option.bind_some] at lost
        simp [Exact, lost] at kept

/-- What the function makes of an opaque column in each batch. -/
theorem resolved_columns (oneSchema : ∀ batch ∈ batches, batch.schema = schema) {results : List (RecordBatch Value)}
    (resolved : resolveOpaqueNumerics typeName cast batches = some results) (inside : schema[colIdx]? = some field)
    (numeric : isOpaqueNumeric typeName field = true) (inferred : inferScale batches colIdx = some scale) :
    List.Forall₂ (fun batch result => ∃ cells, batch.entries[colIdx]? = some (field, .utf8 cells) ∧
      result.entries[colIdx]? = some (convert cast (some scale) (field, .utf8 cells))) batches results := by
  have listed : colIdx ∈ opaqueCols typeName schema := mem_opaqueCols.mpr ⟨field, inside, numeric⟩
  cases batches with
  | nil =>
      obtain rfl := Option.some.inj resolved
      exact .nil
  | cons first rest =>
      have same := oneSchema first List.mem_cons_self
      simp only [resolveOpaqueNumerics, same, if_neg (List.ne_nil_of_mem listed)] at resolved
      obtain ⟨scales, scaled, mapped⟩ := Option.bind_eq_some_iff.mp resolved
      have known : scales.lookup colIdx = some scale := by
        rw [lookup_scales scaled, if_pos listed, inferred]
      have related := (List.forall₂_and_left _ _).mpr ⟨oneSchema, mapM_eq_some_iff.mp mapped⟩
      refine related.imp ?_
      rintro batch result ⟨alike, made⟩
      obtain ⟨cells, found⟩ := exists_cells alike inside numeric
      refine ⟨cells, found, ?_⟩
      rw [entries_of_resolveBatch made, found, known, Option.map_some]

/-- The function returns when all texts of opaque columns are carried over or left alone. -/
theorem exists_resolved (documented : Documented cast parses value)
    (oneSchema : ∀ batch ∈ batches, batch.schema = schema)
    (carried : ∀ colIdx field, schema[colIdx]? = some field → isOpaqueNumeric typeName field = true →
      ∃ scale, inferScale batches colIdx = some scale ∧
        (38 < scale ∨ ∀ text, HasText batches colIdx text → Carried parses scale text)) :
    ∃ results, resolveOpaqueNumerics typeName cast batches = some results := by
  cases batches with
  | nil => exact ⟨[], rfl⟩
  | cons first rest =>
      have same := oneSchema first List.mem_cons_self
      simp only [resolveOpaqueNumerics, same]
      split_ifs with nothing
      · exact ⟨_, rfl⟩
      · obtain ⟨scales, scaled⟩ := @exists_scales Value typeName schema (first :: rest) oneSchema
        rw [scaled]
        show ∃ results, (first :: rest).mapM (resolveBatch cast scales) = some results
        apply exists_mapM_eq_some
        intro batch member
        obtain ⟨column, listed⟩ := List.exists_mem_of_ne_nil _ nothing
        obtain ⟨named, inside, numeric⟩ := mem_opaqueCols.mp listed
        obtain ⟨cells, found⟩ := exists_cells (oneSchema batch member) inside numeric
        have nonempty : batch.entries.zipIdx.map (fun entry => convert cast (scales.lookup entry.2) entry.1) ≠ [] := by
          intro empty
          rw [List.map_eq_nil_iff, List.zipIdx_eq_nil_iff] at empty
          rw [empty] at found
          cases found
        have valid : ∀ entry ∈ batch.entries.zipIdx.map fun entry => convert cast (scales.lookup entry.2) entry.1,
            Fits batch.numRows entry := ?_
        · exact exists_tryNew nonempty valid
        intro entry converted
        obtain ⟨⟨entry, colIdx⟩, numbered, rfl⟩ := List.mem_map.mp converted
        have there := List.mem_zipIdx_iff_getElem?.mp numbered
        have fits := batch.valid entry (List.mem_of_getElem? there)
        rw [lookup_scales scaled]
        split_ifs with chosen
        · obtain ⟨field, inside, numeric⟩ := mem_opaqueCols.mp chosen
          obtain ⟨scale, inferred, rule⟩ := carried colIdx field inside numeric
          obtain ⟨other, again, positive, -⟩ := exists_inferScale oneSchema inside
          obtain rfl : scale = other := Option.some.inj (inferred.symm.trans again)
          obtain ⟨cells, found⟩ := exists_cells (oneSchema batch member) inside numeric
          obtain rfl : entry = (field, .utf8 cells) := Option.some.inj (there.symm.trans found)
          rw [inferred]
          apply fits_convert documented fits positive
          exact rule.imp_right fun texts text has => texts text ⟨batch, member, field, cells, found, has⟩
        · exact fits

theorem exists_paired {Item Result : Type} {related other : Item → Result → Prop} {items : List Item}
    {results : List Result} (pairs : List.Forall₂ related items results) (also : List.Forall₂ other items results)
    {item : Item} (member : item ∈ items) : ∃ result, related item result ∧ other item result := by
  induction pairs with
  | nil => cases member
  | cons one _ ih =>
      obtain ⟨two, rest⟩ := List.forall₂_cons.mp also
      rcases List.mem_cons.mp member with rfl | later
      · exact ⟨_, one, two⟩
      · exact ih rest later

/-- A faithful conversion carries every text over, unless the inferred scale is too large. -/
theorem carried_of_faithful (documented : Documented cast parses value)
    (oneSchema : ∀ batch ∈ batches, batch.schema = schema) (faithful : Faithful typeName cast schema batches)
    {colIdx : Nat} {field : Field} (inside : schema[colIdx]? = some field)
    (numeric : isOpaqueNumeric typeName field = true) :
    ∃ scale, inferScale batches colIdx = some scale ∧
      (38 < scale ∨ ∀ text, HasText batches colIdx text → Carried parses scale text) := by
  obtain ⟨results, resolved, columns⟩ := faithful
  obtain ⟨scale, inferred, kept⟩ := columns colIdx field inside numeric
  refine ⟨scale, inferred, ?_⟩
  by_cases large : 38 < scale
  · exact .inl large
  · right
    rintro text ⟨batch, member, named, cells, found, has⟩
    obtain ⟨other, again, positive, -⟩ := exists_inferScale oneSchema inside
    obtain rfl : scale = other := Option.some.inj (inferred.symm.trans again)
    have converted := resolved_columns oneSchema resolved inside numeric inferred
    rcases kept with exactly | ⟨-, unchanged⟩
    · obtain ⟨result, ⟨texts, foundTexts, outcome⟩, _, others, _, numbers, foundOthers, sameOutcome, exact⟩ :=
        exists_paired converted exactly member
      rw [convert_accepted documented positive (not_lt.mp large)] at outcome
      have cellsSame := found.symm.trans foundTexts
      have othersSame := found.symm.trans foundOthers
      have numbersSame := outcome.symm.trans sameOutcome
      simp only [Option.some.injEq, Prod.mk.injEq, Column.utf8.injEq, Column.decimal128.injEq, true_and]
        at cellsSame othersSame numbersSame
      rw [← numbersSame.2, ← othersSame.2, ← cellsSame.2] at exact
      exact (exact_cells_iff documented positive (not_lt.mp large) cells).mp exact text has
    · obtain ⟨result, ⟨texts, foundTexts, outcome⟩, same⟩ := exists_paired converted unchanged member
      rw [convert_accepted documented positive (not_lt.mp large)] at outcome
      have column := congrArg (Option.map fun entry => entry.2.dataType) (outcome.symm.trans (same.trans foundTexts))
      cases column

/-- The conversion is faithful exactly when, for each opaque column, the inferred scale is too large for the target type
or each text can be parsed and writes a number that fits at that scale. -/
theorem resolveOpaqueNumerics_faithful_iff (documented : Documented cast parses value)
    (oneSchema : ∀ batch ∈ batches, batch.schema = schema) :
    Faithful typeName cast schema batches ↔
      ∀ colIdx field, schema[colIdx]? = some field → isOpaqueNumeric typeName field = true →
        ∃ scale, inferScale batches colIdx = some scale ∧
          (38 < scale ∨ ∀ text, HasText batches colIdx text → Carried parses scale text) := by
  constructor
  · intro faithful colIdx field inside numeric
    exact carried_of_faithful documented oneSchema faithful inside numeric
  · intro carried
    obtain ⟨results, resolved⟩ := exists_resolved documented oneSchema carried
    refine ⟨results, resolved, ?_⟩
    intro colIdx field inside numeric
    obtain ⟨scale, inferred, rule⟩ := carried colIdx field inside numeric
    refine ⟨scale, inferred, ?_⟩
    obtain ⟨other, again, positive, grown⟩ := exists_inferScale oneSchema inside
    obtain rfl : scale = other := Option.some.inj (inferred.symm.trans again)
    have converted := resolved_columns oneSchema resolved inside numeric inferred
    by_cases large : 38 < scale
    · right
      obtain ⟨text, has⟩ := grown (by omega)
      refine ⟨⟨text, has, fun fits => absurd fits.1 (not_le.mpr large)⟩, converted.imp ?_⟩
      rintro batch result ⟨cells, found, outcome⟩
      rw [UnchangedAt, outcome, convert_rejected documented large, found]
    · left
      have texts := rule.resolve_left large
      have member := (List.forall₂_and_left _ _).mpr ⟨fun batch inside => inside, converted⟩
      refine member.imp ?_
      rintro batch result ⟨member, cells, found, outcome⟩
      rw [convert_accepted documented positive (not_lt.mp large)] at outcome
      refine ⟨field, cells, _, _, found, outcome, ?_⟩
      rw [exact_cells_iff documented positive (not_lt.mp large)]
      exact fun text has => texts text ⟨batch, member, field, cells, found, has⟩

end Faithful

section Samples

def sampleParses (text : String) : Bool :=
  (written text).isSome && text.toList.all fun letter => letter ≠ 'e' && letter ≠ 'E'

/-- Plain decimal numbers that fit the scale are read. -/
def sampleValue (scale : Int) (text : String) : Option Int :=
  match written text with
  | none => none
  | some number =>
      let scaled := number * (10 : ℚ) ^ scale
      if sampleParses text ∧ scaled.den = 1 ∧ |scaled.num| < 10 ^ 38 then some scaled.num else none

def sampleCast : Cast Nat
  | .utf8 cells, .decimal128 38 scale =>
      if 0 ≤ scale ∧ scale ≤ 38 then .ok (.decimal128 38 scale (cells.map fun cell => cell.bind (sampleValue scale)))
      else .error "invalid scale"
  | _, _ => .error "unsupported cast"

theorem sampleCast_documented : Documented sampleCast (fun _ => sampleParses) sampleValue where
  accepted := by
    intro scale cells positive bounded
    exact if_pos ⟨positive, bounded⟩
  rejected := by
    intro scale cells large
    exact ⟨"invalid scale", if_neg fun bounds => absurd bounds.2 (not_le.mpr large)⟩
  unparsed := by
    intro scale text unread
    unfold sampleValue
    cases written text with
    | none => rfl
    | some number => simp [unread]
  overflow := by
    intro scale text number found
    unfold sampleValue at found
    split at found
    · cases found
    · dsimp only at found
      split_ifs at found with fits
      exact Option.some.inj found ▸ fits.2.2
  exact := by
    intro scale text number _ _ read writes small
    have scaled : (number : ℚ) / (10 : ℚ) ^ scale * (10 : ℚ) ^ scale = number :=
      div_mul_cancel₀ _ (zpow_ne_zero _ (by norm_num))
    simp only [sampleValue, writes, scaled]
    rw [if_pos ⟨read, Rat.den_intCast number, by rwa [Rat.num_intCast]⟩, Rat.num_intCast]

/-- A column of decimal numbers of another database. -/
def sampleField (nullable : Bool) : Field where
  name := "amount"
  dataType := .utf8
  nullable := nullable
  metadata key := if key = "Spark:DataType:SqlName" then some "DECIMAL(10,2)" else none

def sampleBatch : RecordBatch Nat :=
  ⟨[(sampleField true, .utf8 [some "12.50", none, some "-3.1"])], 3, by decide⟩

/-- One of the two values is no number. -/
def nanBatch (nullable : Bool) : RecordBatch Nat :=
  ⟨[(sampleField nullable, .utf8 [some "1.5", some "NaN"])], 2, by cases nullable <;> decide⟩

theorem resolveOpaqueNumerics_faithful_sample :
    Faithful (fun _ => none) sampleCast [sampleField true] [sampleBatch] := by
  refine (resolveOpaqueNumerics_faithful_iff sampleCast_documented (by simp [sampleBatch, RecordBatch.schema])).mpr ?_
  intro colIdx field inside _
  obtain rfl : colIdx = 0 := by
    have bound := (List.getElem?_eq_some_iff.mp inside).1
    simpa using bound
  refine ⟨2, by decide, .inr ?_⟩
  rintro text ⟨batch, member, named, cells, found, has⟩
  obtain rfl := List.mem_singleton.mp member
  obtain ⟨rfl, same⟩ := Prod.mk.inj (Option.some.inj found)
  obtain rfl := Column.utf8.inj same
  have texts : text = "12.50" ∨ text = "-3.1" := by simpa using has
  rcases texts with rfl | rfl
  · exact ⟨by decide, by decide, 1250, by decide +kernel, by decide⟩
  · exact ⟨by decide, by decide, -310, by decide +kernel, by decide⟩

theorem not_faithful_nan (nullable : Bool) :
    ¬ Faithful (fun _ => none) sampleCast [sampleField nullable] [nanBatch nullable] := by
  intro faithful
  have oneSchema : ∀ batch ∈ [nanBatch nullable], batch.schema = [sampleField nullable] := by
    simp [nanBatch, RecordBatch.schema]
  have opaqueField : isOpaqueNumeric (fun _ => none) (sampleField nullable) = true := by
    cases nullable <;> decide
  obtain ⟨scale, inferred, rule⟩ := carried_of_faithful sampleCast_documented oneSchema faithful
    (show [sampleField nullable][0]? = _ from rfl) opaqueField
  have one : inferScale [nanBatch nullable] 0 = some 1 := by
    cases nullable <;> decide
  obtain rfl : scale = 1 := Option.some.inj (inferred.symm.trans one)
  have carried := rule.resolve_left (by decide) "NaN" ⟨_, List.mem_singleton_self _, _, _, rfl, by simp⟩
  have nothing : written "NaN" = none := by decide
  have read : sampleParses "NaN" = true := carried.1
  rw [sampleParses, nothing] at read
  cases read

theorem nan_is_lost :
    ¬ Faithful (fun _ => none) sampleCast [sampleField true] [nanBatch true] ∧
      ¬ Faithful (fun _ => none) sampleCast [sampleField false] [nanBatch false] :=
  ⟨not_faithful_nan true, not_faithful_nan false⟩

end Samples

end Spicebench.AdbcClient
