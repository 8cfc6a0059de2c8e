import Spicebench.Construction.Sink.Statements
import Spicebench.Library.Traversal

namespace Spicebench.Sink

open Library

/-- The values of these types are written without quotes. -/
def DataType.bare : DataType → Bool
  | .boolean | .int8 | .int16 | .int32 | .int64 | .uint8 | .uint16 | .uint32 | .uint64 => true
  | .float16 | .float32 | .float64 | .decimal128 _ _ | .decimal256 _ _ => true
  | _ => false

/-- Arrow renders a boolean or a number, and never the word for a missing value. -/
def Rendering.Legible {Value : Type} (rendering : Rendering Value) : Prop :=
  ∀ dataType value raw, dataType.bare = true → rendering dataType value = .ok raw → raw ≠ "NULL"

section Literals

variable {Value : Type} {rendering : Rendering Value}

theorem quoted_ne_null (text : String) : "'" ++ text ++ "'" ≠ "NULL" := by
  intro same
  have letters := congrArg String.toList same
  simp at letters

/-- The literal of a present value stands for it, bare or in quotes. -/
theorem sqlLiteral_some {dataType : DataType} {value : Value} {row : Nat} {bigintSuffix : Bool}
    {literal : Literal Value} (built : sqlLiteral rendering dataType (some value) row bigintSuffix = .ok literal) :
    literal.denotes = some value ∧ ∃ raw, rendering dataType value = .ok raw ∧
      (dataType.bare = true ∧ literal.text = raw ∨ bigintSuffix = true ∨
        literal.text = "'" ++ doubled apostrophe raw ++ "'") := by
  unfold sqlLiteral at built
  cases rendered : rendering dataType value with
  | error message => simp [rendered] at built
  | ok raw =>
      simp only [rendered] at built
      cases dataType
      case other debug => cases built
      all_goals
        obtain rfl := Except.ok.inj built
        refine ⟨rfl, raw, rfl, ?_⟩
        cases bigintSuffix <;> simp [DataType.bare]

/-- A literal stands for the cell it is made of. -/
theorem sqlLiteral_denotes {dataType : DataType} {cell : Option Value} {row : Nat} {bigintSuffix : Bool}
    {literal : Literal Value} (built : sqlLiteral rendering dataType cell row bigintSuffix = .ok literal) :
    literal.denotes = cell := by
  cases cell with
  | none =>
      obtain rfl := Except.ok.inj built
      rfl
  | some value => exact (sqlLiteral_some built).1

/-- The text of a literal without a suffix tells a missing value from all others. -/
theorem sqlLiteral_null_iff (legible : rendering.Legible) {dataType : DataType} {cell : Option Value} {row : Nat}
    {literal : Literal Value} (built : sqlLiteral rendering dataType cell row false = .ok literal) :
    literal.text = "NULL" ↔ cell = none := by
  cases cell with
  | none =>
      obtain rfl := Except.ok.inj built
      simp
  | some value =>
      obtain ⟨-, raw, rendered, ⟨bare, text⟩ | suffix | text⟩ := sqlLiteral_some built
      · simpa [text] using legible dataType value raw bare rendered
      · cases suffix
      · simpa [text] using quoted_ne_null _

/-- Whether a literal can be built depends neither on the suffix nor on the number of the row. -/
theorem sqlLiteral_regardless {dataType : DataType} {cell : Option Value} {row : Nat} {bigintSuffix : Bool}
    {literal : Literal Value} (built : sqlLiteral rendering dataType cell row bigintSuffix = .ok literal)
    (otherRow : Nat) (otherSuffix : Bool) :
    ∃ other, sqlLiteral rendering dataType cell otherRow otherSuffix = .ok other := by
  cases cell with
  | none => exact ⟨_, rfl⟩
  | some value =>
      unfold sqlLiteral at built ⊢
      cases rendered : rendering dataType value with
      | error message => simp [rendered] at built
      | ok raw => cases dataType <;> simp_all

end Literals

section Keys

variable {Value : Type} {rendering : Rendering Value} {batch : CellBatch Value}

/-- Each index is the position of its key column. -/
abbrev Located (fields : List Field) : List String → List (Fin fields.length) → Prop :=
  List.Forall₂ fun key index => (fields.findFinIdx? fun field => field.name = key) = some index

theorem resolveKeyColumns_located {fields : List Field} {keyColumns : List String} {context : String}
    {keyIndices : List (Fin fields.length)} (resolved : resolveKeyColumns fields keyColumns context = .ok keyIndices) :
    Located fields keyColumns keyIndices := by
  refine (mapM_eq_ok_iff.mp resolved).imp ?_
  intro key index found
  cases position : fields.findFinIdx? fun field => field.name = key with
  | none => simp [position] at found
  | some place =>
      simp only [position] at found
      exact congrArg some (Except.ok.inj found)

theorem named_of_located {key : String} {index : Fin batch.fields.length}
    (located : (batch.fields.findFinIdx? fun field => field.name = key) = some index)
    (cells : Fin batch.fields.length → Option Value) : batch.named cells key = cells index := by
  simp [CellBatch.named, located]

theorem map_named_of_located {keyColumns : List String} {keyIndices : List (Fin batch.fields.length)}
    (located : Located batch.fields keyColumns keyIndices) (cells : Fin batch.fields.length → Option Value) :
    keyColumns.map (batch.named cells) = keyIndices.map cells := by
  induction located with
  | nil => rfl
  | cons found _ ih => rw [List.map_cons, List.map_cons, ih, named_of_located found]

/-- There is a predicate for each key column. -/
theorem length_keyPredicates {keyColumns : List String} {keyIndices : List (Fin batch.fields.length)}
    (located : Located batch.fields keyColumns keyIndices) {number : Nat}
    {cells : Fin batch.fields.length → Option Value} {predicates : List (Condition Value)}
    (built : keyPredicates rendering batch number cells keyIndices keyColumns = .ok predicates) :
    predicates.length = keyColumns.length := by
  have each := (mapM_eq_ok_iff.mp built).length_eq
  rw [← each, List.length_zip, located.length_eq, min_self]

variable [DecidableEq Value]

/-- The predicate of a literal accepts the cells that are equal to the one it is made of, a missing one included. -/
theorem nullSafePredicate_holds (legible : rendering.Legible) {dataType : DataType} {cell : Option Value} {number : Nat}
    {literal : Literal Value} (built : sqlLiteral rendering dataType cell number false = .ok literal)
    (column : String) (row : TableRow Value) :
    (nullSafePredicateForLiteral column literal).holds row = .yes ↔ row column = cell := by
  unfold nullSafePredicateForLiteral
  by_cases missing : cell = none
  · rw [if_pos ((sqlLiteral_null_iff legible built).mpr missing), Condition.holds, Sql.isNull_eq_yes, missing]
  · rw [if_neg fun text => missing ((sqlLiteral_null_iff legible built).mp text), Condition.holds, Sql.equal_eq_yes,
      sqlLiteral_denotes built]
    refine ⟨And.left, fun same => ⟨same, ?_⟩⟩
    rwa [same]

/-- The predicates of a row accept the rows with its key. -/
theorem keyPredicates_hold (legible : rendering.Legible) {keyColumns : List String}
    {keyIndices : List (Fin batch.fields.length)} (located : Located batch.fields keyColumns keyIndices) {number : Nat}
    {cells : Fin batch.fields.length → Option Value} {predicates : List (Condition Value)}
    (built : keyPredicates rendering batch number cells keyIndices keyColumns = .ok predicates)
    (row : TableRow Value) :
    conditionsHold predicates row = .yes ↔ nullSafeSameKey keyColumns row (batch.named cells) = .yes := by
  induction located generalizing predicates with
  | nil =>
      obtain rfl := Except.ok.inj built
      rfl
  | @cons key index keys indices found _ ih =>
      obtain ⟨predicate, rest, made, others, rfl⟩ := List.forall₂_cons_left_iff.mp (mapM_eq_ok_iff.mp built)
      obtain ⟨literal, written, same⟩ := bind_eq_ok_iff.mp made
      obtain rfl := Except.ok.inj same
      have first := nullSafePredicate_holds legible written key row
      have later := ih (mapM_eq_ok_iff.mpr others)
      simp only [conditionsHold, nullSafeSameKey, Sql.Truth.all_eq_yes, List.forall_mem_map, List.forall_mem_cons,
        Sql.nullSafeEqual_eq_yes] at later ⊢
      rw [first, later, named_of_located found]

end Keys

section Comparison

variable {Value : Type} [DecidableEq Value]

theorem sameKey_eq_yes {keys : List String} {row staged : TableRow Value} :
    sameKey keys row staged = .yes ↔ ∀ key ∈ keys, row key = staged key ∧ row key ≠ none := by
  simp only [sameKey, Sql.Truth.all_eq_yes, List.forall_mem_map, Sql.equal_eq_yes]

theorem nullSafeSameKey_eq_yes {keys : List String} {row staged : TableRow Value} :
    nullSafeSameKey keys row staged = .yes ↔ ∀ key ∈ keys, row key = staged key := by
  simp only [nullSafeSameKey, Sql.Truth.all_eq_yes, List.forall_mem_map, Sql.nullSafeEqual_eq_yes]

/-- The two comparisons of keys differ in the keys with a missing value only. -/
theorem sameKey_iff_nullSafeSameKey {keys : List String} {row staged : TableRow Value} :
    sameKey keys row staged = .yes ↔ nullSafeSameKey keys row staged = .yes ∧ ∀ key ∈ keys, row key ≠ none := by
  rw [sameKey_eq_yes, nullSafeSameKey_eq_yes]
  exact forall₂_and

theorem executeStatementList_cons (staged table : List (TableRow Value)) (statement : Statement Value)
    (rest : List (Statement Value)) :
    executeStatementList staged table (statement :: rest) =
      (statement.execute staged table).bind fun after => executeStatementList staged after rest :=
  List.foldlM_cons

/-- Statements of which each makes one change make all of them in their order. -/
theorem executeStatementList_foldl {Item : Type} {staged : List (TableRow Value)}
    {change : Item → List (TableRow Value) → List (TableRow Value)} {items : List Item}
    {statements : List (Statement Value)}
    (each : List.Forall₂ (fun item statement => ∀ table, statement.execute staged table = some (change item table))
      items statements) (table : List (TableRow Value)) :
    executeStatementList staged table statements =
      some (items.foldl (fun rows item => change item rows) table) := by
  induction each generalizing table with
  | nil => rfl
  | cons first _ ih => rw [executeStatementList_cons, first, Option.bind_some, ih, List.foldl_cons]

end Comparison

/-- Arrow renders a string as itself. -/
def renderString (dataType : DataType) (value : String) : Except String String :=
  if dataType = .utf8 then .ok value else .error "not a string"

theorem renderString_legible : Rendering.Legible renderString := by
  intro dataType value raw bare rendered
  unfold renderString at rendered
  split at rendered
  case isTrue same =>
    subst same
    cases bare
  case isFalse => cases rendered

/-- The rows of this batch have the keys `(7, 'NULL')` and `(8, NULL)`. -/
def sampleKeys : CellBatch String where
  fields := [⟨"id", .utf8⟩, ⟨"region", .utf8⟩]
  distinct := by decide
  rows := [[some "7", some "NULL"].get, [some "8", none].get]

/-- A row of a table by its two cells. -/
def sampleRow (id region : Option String) : TableRow String := fun name =>
  if name = "id" then id else if name = "region" then region else none

end Spicebench.Sink
