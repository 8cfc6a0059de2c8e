import Spicebench.Construction.OtelArrow.Builders
import Spicebench.Library.OffsetList

namespace Spicebench.OtelArrow

open Library

/-- The struct of one attribute. -/
structure AttributeRow where
  key : String
  type : Nat
  str : Option String
  int : Option Int64
  double : Option Double
  bool : Option Bool
  bytes : Option (List UInt8)
  ser : Option (List UInt8)
  deriving DecidableEq

/-- An array has no bytes of its own yet, and a kind that is not known has no value. -/
def KeyValue.row (pair : KeyValue) : AttributeRow :=
  match pair.value with
  | .string value => ⟨pair.key, AttributeValueType.str.toU8, some value, none, none, none, none, none⟩
  | .i64 value => ⟨pair.key, AttributeValueType.int.toU8, none, some value, none, none, none, none⟩
  | .f64 value => ⟨pair.key, AttributeValueType.double.toU8, none, none, some value, none, none, none⟩
  | .bool value => ⟨pair.key, AttributeValueType.bool.toU8, none, none, none, some value, none, none⟩
  | .array => ⟨pair.key, AttributeValueType.bytes.toU8, none, none, none, none, some [], none⟩
  | .other => ⟨pair.key, AttributeValueType.unknown.toU8, none, none, none, none, none, none⟩

namespace AttributeColumns

/-- The structs are read across the children. -/
def rows (columns : AttributeColumns) : List AttributeRow :=
  (columns.key.zip (columns.type.zip (columns.str.zip (columns.int.zip (columns.double.zip
    (columns.bool.zip (columns.bytes.zip columns.ser))))))).map
      fun (key, type, str, int, double, bool, bytes, ser) => ⟨key, type, str, int, double, bool, bytes, ser⟩

end AttributeColumns

section Validity

/-- An element is valid where no validity was kept. -/
def isValid (validity : Option (List Bool)) (index : Nat) : Bool :=
  (validity.bind (·[index]?)).getD true

theorem finishNulls_all {nulls : List Bool} {length : Nat} (same : nulls.length = length) :
    (finishNulls nulls).all (·.length = length) = true := by
  unfold finishNulls
  split_ifs
  · rfl
  · simpa using same

theorem finishNulls_true (nulls : List Bool) (valid : ∀ present ∈ nulls, present = true) : finishNulls nulls = none :=
  if_pos (List.all_eq_true.mpr valid)

end Validity

namespace AttributesBuilder

/-- The children have one length, all structs are valid, and no list ends behind them. -/
structure Aligned (builder : AttributesBuilder) : Prop where
  type : builder.type.length = builder.key.length
  str : builder.str.length = builder.key.length
  int : builder.int.length = builder.key.length
  double : builder.double.length = builder.key.length
  bool : builder.bool.length = builder.key.length
  bytes : builder.bytes.length = builder.key.length
  ser : builder.ser.length = builder.key.length
  valid : ∀ present ∈ builder.nulls, present = true
  lists : builder.listOffsets.length = builder.listNulls.length + 1
  within : ∀ offset ∈ builder.listOffsets, offset ≤ builder.key.length

theorem aligned_new : new.Aligned := by constructor <;> simp [new]

variable (builder : AttributesBuilder)

/-- Structs that belong to no list yet. -/
def extend (rows : List AttributeRow) : AttributesBuilder :=
  { builder with
    key := builder.key ++ rows.map (·.key)
    type := builder.type ++ rows.map (·.type)
    str := builder.str ++ rows.map (·.str)
    int := builder.int ++ rows.map (·.int)
    double := builder.double ++ rows.map (·.double)
    bool := builder.bool ++ rows.map (·.bool)
    bytes := builder.bytes ++ rows.map (·.bytes)
    ser := builder.ser ++ rows.map (·.ser)
    nulls := builder.nulls ++ rows.map fun _ => true }

/-- All structs are valid, so that their validity is left out. -/
def array : AttributesArray :=
  ⟨builder.listOffsets, builder.toAttributeColumns, none, finishNulls builder.listNulls⟩

/-- The list of one more row. -/
def appendList (rows : List AttributeRow) : AttributesBuilder :=
  { builder.extend rows with
    listOffsets := builder.listOffsets ++ [builder.key.length + rows.length]
    listNulls := builder.listNulls ++ [true] }

theorem appendAttribute_eq (pair : KeyValue) : appendAttribute builder pair = builder.extend [pair.row] := by
  obtain ⟨key, value⟩ := pair
  cases value <;> rfl

variable {builder}

theorem Aligned.extend (aligned : builder.Aligned) (rows : List AttributeRow) : (builder.extend rows).Aligned where
  type := by simp [AttributesBuilder.extend, aligned.type]
  str := by simp [AttributesBuilder.extend, aligned.str]
  int := by simp [AttributesBuilder.extend, aligned.int]
  double := by simp [AttributesBuilder.extend, aligned.double]
  bool := by simp [AttributesBuilder.extend, aligned.bool]
  bytes := by simp [AttributesBuilder.extend, aligned.bytes]
  ser := by simp [AttributesBuilder.extend, aligned.ser]
  valid := by
    intro present member
    rcases List.mem_append.mp member with before | new
    · exact aligned.valid present before
    · obtain ⟨_, _, rfl⟩ := List.mem_map.mp new
      rfl
  lists := aligned.lists
  within offset member := by
    have before := aligned.within offset member
    simp only [AttributesBuilder.extend, List.length_append]
    omega

theorem Aligned.appendList (aligned : builder.Aligned) (rows : List AttributeRow) :
    (builder.appendList rows).Aligned := by
  have extended := aligned.extend rows
  refine { extended with lists := ?_, within := ?_ }
  · simp [AttributesBuilder.appendList, aligned.lists]
  · intro offset member
    rcases List.mem_append.mp member with before | last
    · exact extended.within offset before
    · rw [List.mem_singleton] at last
      simp [AttributesBuilder.appendList, AttributesBuilder.extend, last]

/-- The change keeps a builder aligned. -/
def KeepsAligned (before after : AttributesBuilder) : Prop := before.Aligned → after.Aligned

theorem KeepsAligned.trans (one other third : AttributesBuilder) (first : KeepsAligned one other)
    (second : KeepsAligned other third) : KeepsAligned one third := second ∘ first

theorem follows_appendAttributes (attributes : List KeyValue) :
    Fallible.Follows KeepsAligned (Fallible.forEach (fun pair => Fallible.modify (appendAttribute · pair)) attributes)
      (fun _ => True) (AttributesBuilder.extend · (attributes.map KeyValue.row)) := by
  induction attributes with
  | nil =>
      intro builder
      refine ⟨fun _ => ?_, fun unguarded => absurd trivial unguarded, fun aligned => aligned.extend []⟩
      simp [Fallible.forEach, Fallible.pure, extend]
  | cons pair rest ih =>
      have one : Fallible.Follows KeepsAligned (Fallible.modify (appendAttribute · pair)) (fun _ => True)
          (AttributesBuilder.extend · [pair.row]) := by
        refine (Fallible.Follows.modify fun builder aligned => ?_).congr (fun _ => Iff.rfl) fun builder =>
          appendAttribute_eq builder pair
        rw [appendAttribute_eq]
        exact aligned.extend _
      refine (one.bind KeepsAligned.trans ih).congr (fun _ => and_self_iff) fun builder => ?_
      simp [extend]

theorem follows_append : Fallible.Follows KeepsAligned (append true) (fun builder => builder.key.length ≤ i32Max)
    (AttributesBuilder.appendList · []) := by
  intro builder
  refine ⟨fun few => ?_, fun many => ?_, fun aligned => aligned.appendList []⟩
  · rw [append, if_pos few]
    simp [appendList, extend]
  · rw [append, if_neg many]
    exact ⟨_, _, rfl, id⟩

/-- Attributes become one more list, unless there are too many for an offset. -/
theorem follows_addAttributesToBuilder (attributes : List KeyValue) :
    Fallible.Follows KeepsAligned (addAttributesToBuilder attributes)
      (fun builder => builder.key.length + attributes.length ≤ i32Max)
      (AttributesBuilder.appendList · (attributes.map KeyValue.row)) := by
  refine ((follows_appendAttributes attributes).bind KeepsAligned.trans follows_append).congr ?_ ?_
  · intro builder
    simp [extend]
  · intro builder
    simp [appendList, extend]

/-- An aligned builder always finishes, and is empty behind it. -/
theorem Aligned.finish (aligned : builder.Aligned) : builder.finish = (some builder.array, new) := by
  have validity := finishNulls_true builder.nulls aligned.valid
  have children : structFits builder.key.length [builder.type.length, builder.str.length, builder.int.length,
      builder.double.length, builder.bool.length, builder.bytes.length, builder.ser.length] none = true := by
    simp [structFits, aligned.type, aligned.str, aligned.int, aligned.double, aligned.bool, aligned.bytes, aligned.ser]
  have last : builder.listOffsets.getLast?.all (· ≤ builder.key.length) = true := by
    cases found : builder.listOffsets.getLast? with
    | none => rfl
    | some offset => simpa using aligned.within offset (List.mem_of_getLast? found)
  have lists : (finishNulls builder.listNulls).all (·.length + 1 = builder.listOffsets.length) = true := by
    unfold finishNulls
    split_ifs
    · rfl
    · simp [aligned.lists]
  unfold AttributesBuilder.finish
  simp [validity, children, last, lists, new, array]

end AttributesBuilder

/-- The list of a row, which is cut out by two offsets. -/
def AttributesArray.list? (array : AttributesArray) (index : Nat) : Option (Option (List AttributeRow)) :=
  (listAt array.offsets array.values.rows index).map fun list =>
    if isValid array.validity index then some list else none

end Spicebench.OtelArrow
