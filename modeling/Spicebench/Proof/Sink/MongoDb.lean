import Spicebench.Construction.Sink.MongoDb
import Spicebench.Construction.Sink.Statements
import Spicebench.Library.Separator
import Spicebench.Library.Traversal

namespace Spicebench.Sink.MongoDb
open Library
open Validation (TimeUnit)
open Queries (integerText)

/-- A primary key names distinct columns of a schema. -/
structure PrimaryKey (schema : Schema) where
  columns : List String
  positions : List (Fin schema.length)
  resolved : columns.map (indexOf schema) = positions.map some
  distinct : columns.Nodup

/-- A NULL is the same whatever its slot holds. -/
def Slot.cell (slot : Slot) : Option Value := if slot.valid then some slot.value else none

/-- The key of a row is the tuple of its cells. -/
def PrimaryKey.of {schema : Schema} (key : PrimaryKey schema) (row : Row schema) : List (Option Value) :=
  key.positions.map fun index => (row.slot index).cell

/-- The columns of strings, integers and dates. -/
def DataType.isKeyType : DataType → Bool
  | .int8 | .int16 | .int32 | .int64 | .uint8 | .uint16 | .uint32 | .uint64 => true
  | .utf8 | .largeUtf8 => true
  | .date32 | .date64 | .timestamp _ => true
  | _ => false

def DataType.isText : DataType → Bool
  | .utf8 | .largeUtf8 => true
  | _ => false

def DataType.isInstant : DataType → Bool
  | .date32 | .date64 | .timestamp _ => true
  | _ => false

/-- The timestamps that are not in milliseconds become another number of milliseconds. -/
def DataType.isExact : DataType → Bool
  | .timestamp .second | .timestamp .microsecond | .timestamp .nanosecond => false
  | _ => true

/-- The date and time of an instant is displayed between two quotes, and no two instants alike. -/
structure DisplaysDates (display : Bson → List Char) where
  text : Int → List Char
  injective : Function.Injective text
  plain : ∀ millis, doubleQuote ∉ text millis
  quoted : ∀ millis, display (.dateTime millis) =
    "DateTime(".toList ++ doubleQuote :: (text millis ++ doubleQuote :: ")".toList)

section Parts

variable (display : Bson → List Char)

/-- The text that a value adds to an identifier. -/
def render (value : Value) : Except Failure (List Char) := do
  let bson ← arrowColToBson value
  return bsonToString display bson

def partText (value : Value) : List Char := (render display value).toOption.getD []

theorem render_eq {value : Value} {text : List Char} (rendered : render display value = .ok text) :
    partText display value = text := by
  simp [partText, rendered, Except.toOption]

variable {schema : Schema} (row : Row schema)

/-- The parts of a key are the texts of the values at its positions. -/
theorem mapM_keyPart (tableName : String) {columns : List String} {positions : List (Fin schema.length)}
    (resolved : columns.map (indexOf schema) = positions.map some) :
    columns.mapM (keyPart display tableName row) =
      positions.mapM fun index => render display (row.slot index).value := by
  induction columns generalizing positions with
  | nil =>
      obtain rfl := List.map_eq_nil_iff.mp resolved.symm
      rfl
  | cons column columns same =>
      cases positions with
      | nil => simp at resolved
      | cons index positions =>
          simp only [List.map_cons, List.cons.injEq] at resolved
          rw [List.mapM_cons, List.mapM_cons, same resolved.2, keyPart, resolved.1]
          rfl

variable {sink : MongoDbSink} {tableName : String} {key : PrimaryKey schema} {row}

/-- The identifier is null without key columns, and otherwise their parts are joined. -/
theorem computeId_eq (listed : (sink.primaryKeyColumns tableName).getD [] = key.columns) :
    sink.computeId display tableName row =
      if key.positions = [] then .ok .null
      else do
        let parts ← key.positions.mapM fun index => render display (row.slot index).value
        return .string (List.intercalate [':'] parts) := by
  have empty : key.columns.isEmpty = true ↔ key.positions = [] := by
    rw [List.isEmpty_iff, ← List.map_eq_nil_iff (f := indexOf schema), key.resolved, List.map_eq_nil_iff]
  unfold MongoDbSink.computeId
  simp only [listed, empty, mapM_keyPart display row tableName key.resolved]
  split_ifs
  · rfl
  · refine bind_congr fun parts => congrArg Except.ok ?_
    split
    · simp [List.intercalate]
    · rfl

/-- Every part of a key has a text. -/
def Rendered (key : PrimaryKey schema) (row : Row schema) : Prop :=
  ∀ index ∈ key.positions, ∃ text, render display (row.slot index).value = .ok text

theorem computeId_ok (listed : (sink.primaryKeyColumns tableName).getD [] = key.columns)
    (rendered : Rendered display key row) :
    sink.computeId display tableName row =
      .ok (if key.positions = [] then .null
        else .string (List.intercalate [':'] (key.positions.map fun index =>
          partText display (row.slot index).value))) := by
  have parts : key.positions.mapM (fun index => render display (row.slot index).value) =
      .ok (key.positions.map fun index => partText display (row.slot index).value) := by
    rw [mapM_eq_ok_iff, List.forall₂_map_right_iff, List.forall₂_same]
    intro index member
    obtain ⟨text, same⟩ := rendered index member
    rw [same, render_eq display same]
  rw [computeId_eq display listed]
  split_ifs with empty
  · rfl
  · rw [parts]
    rfl

theorem rendered_of_computeId (listed : (sink.primaryKeyColumns tableName).getD [] = key.columns) {id : Bson}
    (computed : sink.computeId display tableName row = .ok id) : Rendered display key row := by
  intro index member
  rw [computeId_eq display listed, if_neg (List.ne_nil_of_mem member), bind_eq_ok_iff] at computed
  obtain ⟨parts, traversed, _⟩ := computed
  obtain ⟨text, _, same⟩ := exists_of_mapM traversed member
  exact ⟨text, same⟩

end Parts

/-- The identifiers of any two rows are computed, and they are the same exactly for the same key. -/
def Identifies (display : Bson → List Char) (sink : MongoDbSink) (tableName : String) {schema : Schema}
    (key : PrimaryKey schema) : Prop :=
  ∀ first second : Row schema, ∃ id other,
    sink.computeId display tableName first = .ok id ∧ sink.computeId display tableName second = .ok other ∧
      (id = other ↔ key.of first = key.of second)

/-- A key without NULLs, with exact columns and with at most one of them a string, is told from its joined text. -/
structure Telling {schema : Schema} (key : PrimaryKey schema) : Prop where
  complete : ∀ index ∈ key.positions, (schema.get index).nullable = false
  exact : ∀ index ∈ key.positions, (schema.get index).dataType.isExact = true
  single : (key.positions.filter fun index => (schema.get index).dataType.isText).length ≤ 1

section Texts

theorem digits_inj {value other : Nat} (same : Nat.toDigits 10 value = Nat.toDigits 10 other) : value = other := by
  have worth := congrArg (Nat.ofDigitChars 10 · 0) same
  simpa [Nat.ofDigitChars_ten_toDigits] using worth

/-- A decimal text has no sign in front. -/
theorem digits_ne_signed (value : Nat) (digits : List Char) : Nat.toDigits 10 value ≠ '-' :: digits := by
  intro signed
  have member : '-' ∈ Nat.toDigits 10 value := by
    rw [signed]
    exact List.mem_cons_self
  exact absurd (isDigit_of_mem_decimal member) (by decide)

theorem integerText_inj {value other : Int} (same : integerText value = integerText other) : value = other := by
  unfold integerText at same
  split_ifs at same
  · have worth := digits_inj (List.cons.inj same).2
    omega
  · exact absurd same.symm (digits_ne_signed _ _)
  · exact absurd same (digits_ne_signed _ _)
  · have worth := digits_inj same
    omega

theorem notMem_integerText {letter : Char} (noDigit : letter.isDigit = false) (noMinus : letter ≠ '-') (value : Int) :
    letter ∉ integerText value := by
  unfold integerText
  intro member
  rcases List.mem_append.mp member with sign | digit
  · split_ifs at sign
    · exact noMinus (List.mem_singleton.mp sign)
    · cases sign
  · exact absurd (isDigit_of_mem_decimal digit) (by simp [noDigit])

theorem multiply_ok {one other : Int} (low : -2 ^ 63 ≤ one * other) (high : one * other < 2 ^ 63) :
    multiply one other = .ok (one * other) := if_pos ⟨low, high⟩

/-- An exact value of a key column is a string, an integer or an instant. -/
inductive Shape where
  | string (value : List Char)
  | integer (value : Int)
  | instant (millis : Int)

def Value.shape : Value → Option Shape
  | .int8 value => some (.integer value.toInt)
  | .int16 value => some (.integer value.toInt)
  | .int32 value => some (.integer value.toInt)
  | .int64 value => some (.integer value.toInt)
  | .uint8 value => some (.integer value.toNat)
  | .uint16 value => some (.integer value.toNat)
  | .uint32 value => some (.integer value.toNat)
  | .uint64 value => some (.integer value.toBitVec.toInt)
  | .utf8 value => some (.string value)
  | .largeUtf8 value => some (.string value)
  | .date32 days => some (.instant (days.toInt * 86400 * 1000))
  | .date64 millis => some (.instant millis.toInt)
  | .timestamp .millisecond millis => some (.instant millis.toInt)
  | _ => none

def Shape.text (display : Bson → List Char) : Shape → List Char
  | .string value => value
  | .integer value => integerText value
  | .instant millis => display (.dateTime millis)

variable {display : Bson → List Char} {value other : Value} {shape : Shape}

theorem exists_shape (isKey : value.dataType.isKeyType = true) (exact : value.dataType.isExact = true) :
    ∃ shape, value.shape = some shape := by
  cases value with
  | timestamp unit value =>
      cases unit with
      | millisecond => exact ⟨_, rfl⟩
      | _ => simp [Value.dataType, DataType.isExact] at exact
  | boolean | float32 | float64 | decimal128 | binary | largeBinary | other =>
      simp [Value.dataType, DataType.isKeyType] at isKey
  | _ => exact ⟨_, rfl⟩

/-- An exact value adds the text of its shape to an identifier. -/
theorem render_shape (shaped : value.shape = some shape) : render display value = .ok (shape.text display) := by
  cases value with
  | date32 days =>
      obtain rfl := Option.some.inj shaped
      have low := days.le_toInt
      have high := days.toInt_lt
      have day : multiply days.toInt 86400 = .ok (days.toInt * 86400) := multiply_ok (by omega) (by omega)
      have millis : multiply (days.toInt * 86400) 1000 = .ok (days.toInt * 86400 * 1000) :=
        multiply_ok (by omega) (by omega)
      simp [render, arrowColToBson, day, millis, bind, Except.bind, pure, Except.pure, bsonToString, Shape.text]
  | timestamp unit value =>
      cases unit with
      | millisecond =>
          obtain rfl := Option.some.inj shaped
          rfl
      | _ => cases shaped
  | boolean | float32 | float64 | decimal128 | binary | largeBinary | other => cases shaped
  | _ =>
      obtain rfl := Option.some.inj shaped
      rfl

/-- The value of a type is read back from its shape. -/
def Shape.valueOf : DataType → Shape → Value
  | .int8, .integer value => .int8 (.ofInt value)
  | .int16, .integer value => .int16 (.ofInt value)
  | .int32, .integer value => .int32 (.ofInt value)
  | .int64, .integer value => .int64 (.ofInt value)
  | .uint8, .integer value => .uint8 (.ofNat value.toNat)
  | .uint16, .integer value => .uint16 (.ofNat value.toNat)
  | .uint32, .integer value => .uint32 (.ofNat value.toNat)
  | .uint64, .integer value => .uint64 ⟨.ofInt 64 value⟩
  | .largeUtf8, .string value => .largeUtf8 value
  | .date32, .instant millis => .date32 (.ofInt (millis / 86400000))
  | .date64, .instant millis => .date64 (.ofInt millis)
  | .timestamp unit, .instant millis => .timestamp unit (.ofInt millis)
  | _, .string value => .utf8 value
  | _, .integer value => .int64 (.ofInt value)
  | _, .instant millis => .date64 (.ofInt millis)

theorem value_of_shape (shaped : value.shape = some shape) : shape.valueOf value.dataType = value := by
  cases value with
  | date32 days =>
      obtain rfl := Option.some.inj shaped
      have day : days.toInt * 86400 * 1000 / 86400000 = days.toInt := by omega
      simp [Shape.valueOf, Value.dataType, day]
  | timestamp unit value =>
      cases unit with
      | millisecond =>
          obtain rfl := Option.some.inj shaped
          simp [Shape.valueOf, Value.dataType]
      | _ => cases shaped
  | boolean | float32 | float64 | decimal128 | binary | largeBinary | other => cases shaped
  | _ =>
      obtain rfl := Option.some.inj shaped
      simp [Shape.valueOf, Value.dataType]

/-- Values of one type differ where their shapes do. -/
theorem eq_of_shape (sameType : value.dataType = other.dataType) (shaped : value.shape = some shape)
    (otherShaped : other.shape = some shape) : value = other := by
  rw [← value_of_shape shaped, ← value_of_shape otherShaped, sameType]

/-- The type of a value says of what kind its shape is. -/
theorem kind_of_shape (shaped : value.shape = some shape) :
    (value.dataType.isText = true ↔ ∃ text, shape = .string text) ∧
      (value.dataType.isInstant = true ↔ ∃ millis, shape = .instant millis) := by
  cases value with
  | timestamp unit value =>
      cases unit with
      | millisecond =>
          obtain rfl := Option.some.inj shaped
          simp [Value.dataType, DataType.isText, DataType.isInstant]
      | _ => cases shaped
  | boolean | float32 | float64 | decimal128 | binary | largeBinary | other => cases shaped
  | _ =>
      obtain rfl := Option.some.inj shaped
      simp [Value.dataType, DataType.isText, DataType.isInstant]

variable {otherShape : Shape} (displays : DisplaysDates display)

include displays

/-- Texts of one kind are the same only for the same shape, and without strings they are told apart in a joined text. -/
theorem shapes_told (sameType : value.dataType = other.dataType) (shaped : value.shape = some shape)
    (otherShaped : other.shape = some otherShape) :
    (shape.text display = otherShape.text display → shape = otherShape) ∧
      (value.dataType.isText = false →
        ToldInFront ':' (shape.text display, otherShape.text display) ∧
          ToldBehind ':' (shape.text display, otherShape.text display)) := by
  obtain ⟨text, instant⟩ := kind_of_shape shaped
  obtain ⟨otherText, otherInstant⟩ := kind_of_shape otherShaped
  rw [← sameType] at otherText otherInstant
  cases shape with
  | string letters =>
      have isText := text.mpr ⟨letters, rfl⟩
      obtain ⟨others, rfl⟩ := otherText.mp isText
      exact ⟨congrArg _, fun noText => by simp [isText] at noText⟩
  | instant millis =>
      obtain ⟨others, rfl⟩ := otherInstant.mp (instant.mpr ⟨millis, rfl⟩)
      have plain := displays.plain millis
      have otherPlain := displays.plain others
      simp only [Shape.text, displays.quoted]
      refine ⟨fun same => ?_, fun _ => ⟨toldInFront_quoted plain otherPlain _ _, toldBehind_quoted plain otherPlain _ _⟩⟩
      simp only [List.append_cancel_left_eq, List.cons.injEq, true_and] at same
      rw [displays.injective (front_inj plain otherPlain same).1]
  | integer number =>
      cases otherShape with
      | string letters => exact absurd (text.mp (otherText.mpr ⟨letters, rfl⟩)) (by simp)
      | instant millis => exact absurd (instant.mp (otherInstant.mpr ⟨millis, rfl⟩)) (by simp)
      | integer others =>
          have plain := notMem_integerText (by decide : ':'.isDigit = false) (by decide) number
          have otherPlain := notMem_integerText (by decide : ':'.isDigit = false) (by decide) others
          refine ⟨fun same => ?_, fun _ => ⟨toldInFront_plain plain otherPlain, toldBehind_plain plain otherPlain⟩⟩
          rw [integerText_inj same]

end Texts

section Sufficient

variable {display : Bson → List Char} {schema : Schema} {key : PrimaryKey schema}

variable (isKey : ∀ index ∈ key.positions, (schema.get index).dataType.isKeyType = true) (telling : Telling key)

include isKey telling

theorem Telling.exists_shape (row : Row schema) {index : Fin schema.length} (member : index ∈ key.positions) :
    ∃ shape, (row.slot index).value.shape = some shape := by
  apply MongoDb.exists_shape
  · rw [row.typed]
    exact isKey index member
  · rw [row.typed]
    exact telling.exact index member

theorem Telling.rendered (row : Row schema) : Rendered display key row := by
  intro index member
  obtain ⟨shape, shaped⟩ := telling.exists_shape isKey row member
  exact ⟨_, render_shape shaped⟩

/-- The texts at one position are the same only for the same value, and without strings they are told apart. -/
theorem Telling.position_told (displays : DisplaysDates display) (first second : Row schema) {index : Fin schema.length}
    (member : index ∈ key.positions) :
    (partText display (first.slot index).value = partText display (second.slot index).value →
        (first.slot index).value = (second.slot index).value) ∧
      ((schema.get index).dataType.isText = false →
        ToldInFront ':' (partText display (first.slot index).value, partText display (second.slot index).value) ∧
          ToldBehind ':' (partText display (first.slot index).value, partText display (second.slot index).value)) := by
  obtain ⟨shape, shaped⟩ := telling.exists_shape isKey first member
  obtain ⟨otherShape, otherShaped⟩ := telling.exists_shape isKey second member
  have sameType : (first.slot index).value.dataType = (second.slot index).value.dataType := by
    rw [first.typed, second.typed]
  obtain ⟨injective, told⟩ := shapes_told displays sameType shaped otherShaped
  rw [first.typed] at told
  rw [render_eq display (render_shape shaped), render_eq display (render_shape otherShaped)]
  refine ⟨fun same => ?_, told⟩
  have sameShape := injective same
  subst sameShape
  exact eq_of_shape sameType shaped otherShaped

/-- A key that tells is the same for the same joined text. -/
theorem Telling.values_eq (displays : DisplaysDates display) {first second : Row schema} (nonempty : key.positions ≠ [])
    (same : List.intercalate [':'] (key.positions.map fun index => partText display (first.slot index).value) =
      List.intercalate [':'] (key.positions.map fun index => partText display (second.slot index).value)) :
    ∀ index ∈ key.positions, (first.slot index).value = (second.slot index).value := by
  have position (index : Fin schema.length) (member : index ∈ key.positions) :=
    telling.position_told isKey displays first second member
  obtain ⟨front, middle, back, split, others⟩ := exists_around nonempty telling.single
  rw [split] at same position ⊢
  let pair (index : Fin schema.length) : List Char × List Char :=
    (partText display (first.slot index).value, partText display (second.slot index).value)
  have inFront : ∀ words ∈ front.map pair, ToldInFront ':' words := by
    refine List.forall_mem_map.mpr fun index member => ?_
    exact ((position index (by simp [member])).2 (others index (by simp [member]))).1
  have behind : ∀ words ∈ back.map pair, ToldBehind ':' words := by
    refine List.forall_mem_map.mpr fun index member => ?_
    exact ((position index (by simp [member])).2 (others index (by simp [member]))).2
  have joined : List.intercalate [':'] ((front.map pair ++ pair middle :: back.map pair).map Prod.fst) =
      List.intercalate [':'] ((front.map pair ++ pair middle :: back.map pair).map Prod.snd) := by
    rw [← List.map_cons, ← List.map_append, List.map_map, List.map_map]
    exact same
  have texts := intercalate_inj inFront behind joined
  rw [← List.map_cons, ← List.map_append, List.forall_mem_map] at texts
  exact fun index member => (position index member).1 (texts index member)

/-- A key that tells identifies rows. -/
theorem Telling.identifies (displays : DisplaysDates display) {sink : MongoDbSink} {tableName : String}
    (listed : (sink.primaryKeyColumns tableName).getD [] = key.columns) : Identifies display sink tableName key := by
  intro first second
  refine ⟨_, _, computeId_ok display listed (telling.rendered isKey first),
    computeId_ok display listed (telling.rendered isKey second), ?_⟩
  have cells (row : Row schema) {index : Fin schema.length} (member : index ∈ key.positions) :
      (row.slot index).cell = some (row.slot index).value := if_pos (row.filled index (telling.complete index member))
  have tuples : key.of first = key.of second ↔
      ∀ index ∈ key.positions, (first.slot index).value = (second.slot index).value := by
    rw [PrimaryKey.of, PrimaryKey.of, List.map_inj_left]
    refine forall₂_congr fun index member => ?_
    rw [cells first member, cells second member, Option.some.injEq]
  rw [tuples]
  split_ifs with empty
  · simp [empty]
  · rw [Bson.string.injEq]
    refine ⟨telling.values_eq isKey displays empty, fun same => ?_⟩
    rw [List.map_congr_left fun index member => by rw [same index member]]

end Sufficient

section Necessary

/-- A value that every type has. -/
def DataType.zero : DataType → Value
  | .boolean => .boolean false
  | .int8 => .int8 0
  | .int16 => .int16 0
  | .int32 => .int32 0
  | .int64 => .int64 0
  | .uint8 => .uint8 0
  | .uint16 => .uint16 0
  | .uint32 => .uint32 0
  | .uint64 => .uint64 0
  | .float32 => .float32 .nan
  | .float64 => .float64 .nan
  | .decimal128 scale => .decimal128 scale 0
  | .utf8 => .utf8 []
  | .largeUtf8 => .largeUtf8 []
  | .binary => .binary []
  | .largeBinary => .largeBinary []
  | .date32 => .date32 0
  | .date64 => .date64 0
  | .timestamp unit => .timestamp unit 0
  | .other name => .other name []

@[simp]
theorem dataType_zero (type : DataType) : type.zero.dataType = type := by
  cases type <;> rfl

variable {display : Bson → List Char} {schema : Schema} {key : PrimaryKey schema}

/-- The row of zeros without a NULL. -/
def zeroRow (schema : Schema) : Row schema where
  slot index := ⟨(schema.get index).dataType.zero, true⟩
  typed _ := dataType_zero _
  filled _ _ := rfl

/-- A slot is replaced. -/
def Row.set (row : Row schema) (index : Fin schema.length) (slot : Slot)
    (typed : slot.value.dataType = (schema.get index).dataType)
    (filled : (schema.get index).nullable = false → slot.valid = true) : Row schema where
  slot := Function.update row.slot index slot
  typed other := by
    by_cases same : other = index
    · subst same
      rw [Function.update_self]
      exact typed
    · rw [Function.update_of_ne same]
      exact row.typed other
  filled other := by
    by_cases same : other = index
    · subst same
      rw [Function.update_self]
      exact filled
    · rw [Function.update_of_ne same]
      exact row.filled other

section Replaced

variable (row : Row schema) {index other : Fin schema.length} {slot : Slot}
  (typed : slot.value.dataType = (schema.get index).dataType)
  (filled : (schema.get index).nullable = false → slot.valid = true)

theorem slot_set_self : (row.set index slot typed filled).slot index = slot := Function.update_self ..

theorem slot_set_of_ne (different : other ≠ index) : (row.set index slot typed filled).slot other = row.slot other :=
  Function.update_of_ne different ..

end Replaced

/-- The zeros of a key column have a text. -/
theorem render_zero {type : DataType} (isKey : type.isKeyType = true) : ∃ text, render display type.zero = .ok text := by
  cases type with
  | timestamp unit => cases unit <;> exact ⟨_, rfl⟩
  | boolean | float32 | float64 | decimal128 | binary | largeBinary | other => simp [DataType.isKeyType] at isKey
  | _ => exact ⟨_, rfl⟩

variable {sink : MongoDbSink} {tableName : String} (listed : (sink.primaryKeyColumns tableName).getD [] = key.columns)

include listed

/-- Rows with the same texts have the same identifier, so that their keys must be the same. -/
theorem Identifies.keys_eq (identifies : Identifies display sink tableName key) (first second : Row schema)
    (same : ∀ index ∈ key.positions, render display (first.slot index).value = render display (second.slot index).value) :
    key.of first = key.of second := by
  obtain ⟨id, other, computed, otherComputed, equal⟩ := identifies first second
  rw [computeId_eq display listed, mapM_congr same, ← computeId_eq display listed,
    otherComputed] at computed
  exact equal.mp (Except.ok.inj computed).symm

omit listed in
theorem cells_eq {first second : Row schema} (same : key.of first = key.of second) (index : Fin schema.length)
    (member : index ∈ key.positions) : (first.slot index).cell = (second.slot index).cell :=
  List.map_inj_left.mp same index member

/-- A NULL with a zero in its slot is taken for the zero. -/
theorem Identifies.complete (identifies : Identifies display sink tableName key) :
    ∀ index ∈ key.positions, (schema.get index).nullable = false := by
  intro index member
  rw [← Bool.not_eq_true]
  intro nullable
  let second := (zeroRow schema).set index ⟨(schema.get index).dataType.zero, false⟩ (dataType_zero _)
    (fun never => by rw [nullable] at never; cases never)
  have slots (other : Fin schema.length) : (second.slot other).value = ((zeroRow schema).slot other).value := by
    by_cases same : other = index
    · subst same
      rw [slot_set_self]
      rfl
    · rw [slot_set_of_ne _ _ _ same]
  have keys := identifies.keys_eq listed (zeroRow schema) second fun other _ => by rw [slots]
  have cells := cells_eq keys index member
  rw [slot_set_self] at cells
  cases cells

/-- The row of zeros with another value in one slot. -/
def rowWith (index : Fin schema.length) (value : Value) (typed : value.dataType = (schema.get index).dataType) :
    Row schema := (zeroRow schema).set index ⟨value, true⟩ typed fun _ => rfl

omit listed in
theorem slot_rowWith {index : Fin schema.length} {value : Value} (typed : value.dataType = (schema.get index).dataType) :
    (rowWith index value typed).slot index = ⟨value, true⟩ := slot_set_self ..

omit listed in
theorem slot_rowWith_of_ne {index other : Fin schema.length} {value : Value}
    (typed : value.dataType = (schema.get index).dataType) (different : other ≠ index) :
    (rowWith index value typed).slot other = (zeroRow schema).slot other := slot_set_of_ne _ _ _ different

section Column

variable (identifies : Identifies display sink tableName key) {index : Fin schema.length}
  (member : index ∈ key.positions)

include identifies member

/-- Every value of a key column has a text. -/
theorem Identifies.renders (value : Value) (typed : value.dataType = (schema.get index).dataType) :
    ∃ text, render display value = .ok text := by
  obtain ⟨id, _, computed, _⟩ := identifies (rowWith index value typed) (rowWith index value typed)
  have rendered := rendered_of_computeId display listed computed index member
  rwa [slot_rowWith typed] at rendered

/-- The values of a key column have different texts. -/
theorem Identifies.value_eq (value other : Value) (typed : value.dataType = (schema.get index).dataType)
    (otherTyped : other.dataType = (schema.get index).dataType) (same : render display value = render display other) :
    value = other := by
  have keys := identifies.keys_eq listed (rowWith index value typed) (rowWith index other otherTyped)
      fun position _ => by
    by_cases here : position = index
    · subst here
      rw [slot_rowWith, slot_rowWith]
      exact same
    · rw [slot_rowWith_of_ne _ here, slot_rowWith_of_ne _ here]
  have cells := cells_eq keys index member
  rw [slot_rowWith, slot_rowWith] at cells
  exact Option.some.inj cells

/-- Seconds overflow as milliseconds, and smaller units are cut off. -/
theorem Identifies.exact : (schema.get index).dataType.isExact = true := by
  cases type : (schema.get index).dataType with
  | timestamp unit =>
      cases unit with
      | second =>
          obtain ⟨text, rendered⟩ := identifies.renders listed member (.timestamp .second Int64.maxValue) type.symm
          have overflows : render display (.timestamp .second Int64.maxValue) = .error .panicked := rfl
          rw [overflows] at rendered
          cases rendered
      | microsecond =>
          have same := identifies.value_eq listed member (.timestamp .microsecond 0) (.timestamp .microsecond 1)
            type.symm type.symm rfl
          exact absurd same (by decide)
      | nanosecond =>
          have same := identifies.value_eq listed member (.timestamp .nanosecond 0) (.timestamp .nanosecond 1)
            type.symm type.symm rfl
          exact absurd same (by decide)
      | millisecond => rfl
  | _ => rfl

end Column

section Strings

/-- A string in a column of strings. -/
def textValue : DataType → List Char → Value
  | .largeUtf8, text => .largeUtf8 text
  | _, text => .utf8 text

omit listed in
theorem dataType_textValue {type : DataType} (isText : type.isText = true) (text : List Char) :
    (textValue type text).dataType = type := by
  cases type with
  | utf8 | largeUtf8 => rfl
  | _ => cases isText

omit listed in
theorem render_textValue {type : DataType} (isText : type.isText = true) (text : List Char) :
    render display (textValue type text) = .ok text := by
  cases type with
  | utf8 | largeUtf8 => rfl
  | _ => cases isText

omit listed in
theorem textValue_inj {type : DataType} {text other : List Char} (same : textValue type text = textValue type other) :
    text = other := by
  cases type with
  | largeUtf8 => exact Value.largeUtf8.inj same
  | _ => exact Value.utf8.inj same

omit listed in
theorem indexOf_inj {column other : String} {index : Fin schema.length} (found : indexOf schema column = some index)
    (otherFound : indexOf schema other = some index) : column = other := by
  have named := (List.findFinIdx?_eq_some_iff.mp found).1
  have otherNamed := (List.findFinIdx?_eq_some_iff.mp otherFound).1
  rw [beq_iff_eq] at named otherNamed
  rw [← named, ← otherNamed]

omit listed in
/-- Distinct columns have distinct positions. -/
theorem PrimaryKey.positions_nodup (key : PrimaryKey schema) : key.positions.Nodup := by
  have indices : (key.columns.map (indexOf schema)).Nodup := by
    refine List.Nodup.map_on (fun column member other _ same => ?_) key.distinct
    have found : indexOf schema column ∈ key.positions.map some := by
      rw [← key.resolved]
      exact List.mem_map_of_mem member
    obtain ⟨index, _, some⟩ := List.mem_map.mp found
    exact indexOf_inj some.symm (same.symm.trans some.symm)
  rw [key.resolved] at indices
  exact indices.of_map _

section Pair

variable {one two : Fin schema.length} (isText : (schema.get one).dataType.isText = true)
  (alsoText : (schema.get two).dataType.isText = true)

/-- The row of zeros with strings in two slots. -/
def stringsRow (text other : List Char) : Row schema :=
  (rowWith one (textValue _ text) (dataType_textValue isText text)).set two
    ⟨textValue _ other, true⟩ (dataType_textValue alsoText other) fun _ => rfl

omit listed in
theorem slot_stringsRow (different : one ≠ two) (text other : List Char) :
    (stringsRow isText alsoText text other).slot one = ⟨textValue (schema.get one).dataType text, true⟩ ∧
      (stringsRow isText alsoText text other).slot two = ⟨textValue (schema.get two).dataType other, true⟩ ∧
      ∀ index, index ≠ one → index ≠ two →
        (stringsRow isText alsoText text other).slot index = (zeroRow schema).slot index := by
  refine ⟨?_, slot_set_self .., fun index noOne noTwo => ?_⟩
  · rw [stringsRow, slot_set_of_ne _ _ _ different]
    exact slot_rowWith _
  · rw [stringsRow, slot_set_of_ne _ _ _ noTwo]
    exact slot_rowWith_of_ne _ noOne

omit listed in
/-- The strings are joined with the zeros in front of, between and behind them. -/
theorem parts_stringsRow (different : one ≠ two) {front middle back : List (Fin schema.length)}
    (apart : ∀ index ∈ front ++ middle ++ back, index ≠ one ∧ index ≠ two) (text other : List Char) :
    (front ++ one :: (middle ++ two :: back)).map
        (fun index => partText display ((stringsRow isText alsoText text other).slot index).value) =
      front.map (fun index => partText display ((zeroRow schema).slot index).value) ++ text ::
        (middle.map (fun index => partText display ((zeroRow schema).slot index).value) ++ other ::
          back.map fun index => partText display ((zeroRow schema).slot index).value) := by
  obtain ⟨slotOne, slotTwo, others⟩ := slot_stringsRow isText alsoText different text other
  have zeros (indices : List (Fin schema.length)) (inside : ∀ index ∈ indices, index ∈ front ++ middle ++ back) :
      indices.map (fun index => partText display ((stringsRow isText alsoText text other).slot index).value) =
        indices.map fun index => partText display ((zeroRow schema).slot index).value := by
    refine List.map_congr_left fun index member => ?_
    obtain ⟨noOne, noTwo⟩ := apart index (inside index member)
    rw [others index noOne noTwo]
  rw [List.map_append, List.map_cons, List.map_append, List.map_cons, slotOne, slotTwo,
    render_eq display (render_textValue isText text), render_eq display (render_textValue alsoText other),
    zeros front (by simp +contextual), zeros middle (by simp +contextual), zeros back (by simp +contextual)]

end Pair

/-- A colon in one of two strings is taken for the one between them. -/
theorem Identifies.single (identifies : Identifies display sink tableName key)
    (isKey : ∀ index ∈ key.positions, (schema.get index).dataType.isKeyType = true) :
    (key.positions.filter fun index => (schema.get index).dataType.isText).length ≤ 1 := by
  by_contra many
  obtain ⟨front, one, middle, two, back, split, isText, alsoText⟩ := exists_two (not_le.mp many)
  have nodup := key.positions_nodup
  rw [split, List.nodup_middle, List.nodup_cons, ← List.append_assoc, List.nodup_middle, List.nodup_cons] at nodup
  obtain ⟨noOne, noTwo, _⟩ := nodup
  have different : one ≠ two := fun same => noOne (by simp [same])
  have apart : ∀ index ∈ front ++ middle ++ back, index ≠ one ∧ index ≠ two := by
    intro index member
    refine ⟨fun same => noOne ?_, fun same => noTwo (same ▸ member)⟩
    rw [← same]
    simp only [List.mem_append, List.mem_cons] at member ⊢
    tauto
  have rendered (text other : List Char) : Rendered display key (stringsRow isText alsoText text other) := by
    obtain ⟨slotOne, slotTwo, others⟩ := slot_stringsRow isText alsoText different text other
    intro index member
    by_cases isOne : index = one
    · rw [isOne, slotOne]
      exact ⟨text, (render_textValue isText text)⟩
    by_cases isTwo : index = two
    · rw [isTwo, slotTwo]
      exact ⟨other, (render_textValue alsoText other)⟩
    rw [others index isOne isTwo]
    exact render_zero (isKey index member)
  -- The parts in between are put once behind the first string and once in front of the second.
  let between :=
    (middle.map fun index => partText display ((zeroRow schema).slot index).value).flatMap (':' :: ·) ++ [':']
  obtain ⟨id, other, computed, otherComputed, equal⟩ :=
    identifies (stringsRow isText alsoText [] between) (stringsRow isText alsoText between [])
  rw [computeId_ok display listed (rendered _ _)] at computed otherComputed
  have joined : id = other := by
    rw [← Except.ok.inj computed, ← Except.ok.inj otherComputed, split,
      parts_stringsRow isText alsoText different apart, parts_stringsRow isText alsoText different apart,
      intercalate_around, intercalate_around]
    simp [between]
  have cells := cells_eq (equal.mp joined) one (by simp [split])
  rw [(slot_stringsRow isText alsoText different _ _).1, (slot_stringsRow isText alsoText different _ _).1] at cells
  have same := textValue_inj (Option.some.inj cells)
  simp [between] at same

end Strings

end Necessary

/-- Identifiers tell the keys of a table apart exactly if no key column may be NULL, none is a timestamp that is not in
milliseconds, and at most one holds strings. -/
theorem ids_tell_keys_when {display : Bson → List Char} (displays : DisplaysDates display) (sink : MongoDbSink)
    (tableName : String) {schema : Schema} (key : PrimaryKey schema)
    (listed : (sink.primaryKeyColumns tableName).getD [] = key.columns)
    (isKey : ∀ index ∈ key.positions, (schema.get index).dataType.isKeyType = true) :
    Identifies display sink tableName key ↔ Telling key := by
  constructor
  · intro identifies
    exact ⟨identifies.complete listed, fun index member => identifies.exact listed member,
      identifies.single listed isKey⟩
  · intro telling
    exact telling.identifies isKey displays listed

section Samples

/-- An instant is displayed with its milliseconds, as it is when no calendar reaches it. -/
def displayMillis : Bson → List Char
  | .dateTime millis => "DateTime(".toList ++ doubleQuote :: (integerText millis ++ doubleQuote :: ")".toList)
  | .boolean value => (if value then "true" else "false").toList
  | _ => "null".toList

def displayMillis_displaysDates : DisplaysDates displayMillis where
  text := integerText
  injective _ _ := integerText_inj
  plain := notMem_integerText (by decide) (by decide)
  quoted _ := rfl

def sampleSink : MongoDbSink := ⟨fun _ => some ["region", "code"]⟩

/-- The key of an integer and a string. -/
def mixedSchema : Schema := [⟨"region", .int64, false⟩, ⟨"code", .utf8, false⟩]

def mixedKey : PrimaryKey mixedSchema := ⟨["region", "code"], [⟨0, by decide⟩, ⟨1, by decide⟩], by decide, by decide⟩

theorem ids_tell_keys_when_mixed : Identifies displayMillis sampleSink "orders" mixedKey :=
  (ids_tell_keys_when displayMillis_displaysDates sampleSink "orders" mixedKey rfl (by decide)).mpr
    ⟨by decide, by decide, by decide⟩

/-- The key of two strings. -/
def stringSchema : Schema := [⟨"region", .utf8, false⟩, ⟨"code", .utf8, false⟩]

def stringKey : PrimaryKey stringSchema := ⟨["region", "code"], [⟨0, by decide⟩, ⟨1, by decide⟩], by decide, by decide⟩

/-- A row of two strings. -/
def stringRow (region code : List Char) : Row stringSchema where
  slot
    | ⟨0, _⟩ => ⟨.utf8 region, true⟩
    | ⟨_ + 1, _⟩ => ⟨.utf8 code, true⟩
  typed
    | ⟨0, _⟩ => rfl
    | ⟨1, _⟩ => rfl
  filled
    | ⟨0, _⟩, _ => rfl
    | ⟨1, _⟩, _ => rfl

/-- The keys `a:b`, `c` and `a`, `b:c` have the same identifier. -/
theorem joined_strings_collide : ¬Identifies displayMillis sampleSink "orders" stringKey := by
  intro identifies
  obtain ⟨id, other, computed, otherComputed, equal⟩ :=
    identifies (stringRow ['a', ':', 'b'] ['c']) (stringRow ['a'] ['b', ':', 'c'])
  have joined : MongoDbSink.computeId displayMillis sampleSink "orders" (stringRow ['a', ':', 'b'] ['c']) =
      MongoDbSink.computeId displayMillis sampleSink "orders" (stringRow ['a'] ['b', ':', 'c']) := by rfl
  rw [computed, otherComputed] at joined
  have keys := equal.mp (Except.ok.inj joined)
  exact absurd keys (by decide)

end Samples

end Spicebench.Sink.MongoDb
