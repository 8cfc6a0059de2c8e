/-
This file embeds the passage of typed values to YAML values and back. The derived code presents a value to the
serializer by its shape, and rebuilds it from what the deserializer hands to its visitors.
-/

import Spicebench.Construction.Yaml

namespace Spicebench.Yaml

open Library

section Types

inductive IntKind where
  | i8 | i16 | i32 | i64 | u8 | u16 | u32 | u64
  deriving DecidableEq

namespace IntKind

def signed : IntKind → Bool
  | i8 | i16 | i32 | i64 => true
  | u8 | u16 | u32 | u64 => false

def width : IntKind → ℕ
  | i8 | u8 => 8
  | i16 | u16 => 16
  | i32 | u32 => 32
  | i64 | u64 => 64

def holds (kind : IntKind) (value : ℤ) : Bool :=
  if kind.signed then -2 ^ (kind.width - 1) ≤ value ∧ value < 2 ^ (kind.width - 1)
  else 0 ≤ value ∧ value < 2 ^ kind.width

end IntKind

/-- A type is built from the types of the language, and from structs and enums that are declared under a name. -/
inductive Ty where
  | bool
  | int (kind : IntKind)
  | string
  | seq (item : Ty)
  | map (item : Ty)
  | option (item : Ty)
  | declared (name : String)
  deriving DecidableEq

/-- The forms of a struct and of a variant. -/
inductive Shape where
  | unit
  | newtype (inner : Ty)
  | tuple (parts : List Ty)
  | named (fields : List (String × Ty))

inductive Item where
  | struct (shape : Shape)
  | enum (variants : List (String × Shape))

abbrev Declarations := String → Item

mutual
/-- A value by the calls that its derived code makes on a serializer. -/
inductive Data where
  | bool (value : Bool)
  | int (kind : IntKind) (value : ℤ)
  | string (value : String)
  | seq (items : List Data)
  | map (entries : List (String × Data))
  | none
  | some (inner : Data)
  | struct (content : Content)
  | variant (name : String) (content : Content)

inductive Content where
  | unit
  | newtype (inner : Data)
  | tuple (parts : List Data)
  | named (fields : List (String × Data))
end

end Types

section Serializer

/-- `Value::from` of the integers, where the unsigned ones have no check of the sign. -/
def fromInt (kind : IntKind) (value : ℤ) : Value :=
  .leaf (.number (if kind.signed then fromI64 value else .posInt value.toNat))

structure SeqSerializer where
  elements : List Value

def SeqSerializer.serializeElement (serializer : SeqSerializer) (value : Value) : SeqSerializer :=
  { serializer with elements := serializer.elements ++ [value] }

def SeqSerializer.finish (serializer : SeqSerializer) : Value := .sequence serializer.elements

structure TupleVariantSerializer where
  variant : String
  elements : List Value

def TupleVariantSerializer.finish (serializer : TupleVariantSerializer) : Value :=
  .mapping (indexMapInsert [] (.leaf (.string serializer.variant)) (.sequence serializer.elements))

structure MapSerializer where
  entries : Mapping
  currentKey : Option Value

def MapSerializer.serializeKey (serializer : MapSerializer) (key : Value) : MapSerializer :=
  { serializer with currentKey := some key }

def MapSerializer.serializeValue (serializer : MapSerializer) (value : Value) : Except Error MapSerializer :=
  match serializer.currentKey with
  | none => throw (.serialize "serialize_value called before serialize_key")
  | some key => return ⟨indexMapInsert serializer.entries key value, none⟩

/-- `serialize_field` of a struct inserts the field itself. -/
def MapSerializer.serializeField (serializer : MapSerializer) (key : String) (value : Value) : MapSerializer :=
  { serializer with entries := indexMapInsert serializer.entries (.leaf (.string key)) value }

def MapSerializer.finish (serializer : MapSerializer) : Value := .mapping serializer.entries

structure StructVariantSerializer where
  variant : String
  entries : Mapping

def StructVariantSerializer.finish (serializer : StructVariantSerializer) : Value :=
  .mapping (indexMapInsert [] (.leaf (.string serializer.variant)) (.mapping serializer.entries))

/-- `serialize_newtype_variant`, once the value inside is serialized. -/
def serializeNewtypeVariant (variant : String) (value : Value) : Value :=
  .mapping (indexMapInsert [] (.leaf (.string variant)) value)

mutual
/-- `value.serialize(Serializer)`. -/
def Data.serialize : Data → Except Error Value
  | .bool value => return .leaf (.bool value)
  | .int kind value => return fromInt kind value
  | .string value => return .leaf (.string value)
  | .seq items => do return (← serializeElements items ⟨[]⟩).finish
  | .map entries => do return (← serializeEntries entries ⟨[], none⟩).finish
  | .none => return .leaf .null
  | .some inner => inner.serialize
  | .struct content => content.serializeStruct
  | .variant name content => content.serializeVariant name

def Content.serializeStruct : Content → Except Error Value
  | .unit => return .leaf .null
  | .newtype inner => inner.serialize
  | .tuple parts => do return (← serializeElements parts ⟨[]⟩).finish
  | .named fields => do return (← serializeFields fields ⟨[], none⟩).finish

def Content.serializeVariant (name : String) : Content → Except Error Value
  | .unit => return .leaf (.string name)
  | .newtype inner => do return serializeNewtypeVariant name (← inner.serialize)
  | .tuple parts => do return TupleVariantSerializer.finish ⟨name, (← serializeElements parts ⟨[]⟩).elements⟩
  | .named fields => do return StructVariantSerializer.finish ⟨name, (← serializeFields fields ⟨[], none⟩).entries⟩

def serializeElements : List Data → SeqSerializer → Except Error SeqSerializer
  | [], serializer => return serializer
  | item :: rest, serializer => do serializeElements rest (serializer.serializeElement (← item.serialize))

/-- The entries of a map are serialized key by key, and each value behind its key. -/
def serializeEntries : List (String × Data) → MapSerializer → Except Error MapSerializer
  | [], serializer => return serializer
  | (key, item) :: rest, serializer => do
      let value ← item.serialize
      serializeEntries rest (← (serializer.serializeKey (.leaf (.string key))).serializeValue value)

def serializeFields : List (String × Data) → MapSerializer → Except Error MapSerializer
  | [], serializer => return serializer
  | (name, item) :: rest, serializer => do serializeFields rest (serializer.serializeField name (← item.serialize))
end

end Serializer

section Deserializer

/-- What a visitor was handed and does not take. -/
inductive Unexpected where
  | bool (value : Bool)
  | unsigned (value : ℕ)
  | signed (value : ℤ)
  | float (value : Double)
  | str (value : String)
  | unit
  | option
  | newtypeStruct
  | seq
  | map
  | enum
  deriving DecidableEq

/-- The errors of the derived code, which the crate keeps as texts of its own. -/
inductive DerivedError where
  | invalidType (found : Unexpected)
  | invalidValue (found : Unexpected)
  | invalidLength (length : ℕ)
  | unknownVariant (variant : String)
  | missingField (field : String)
  | duplicateField (field : String)
  deriving DecidableEq

inductive ReadError where
  | own (error : Error)
  | derived (error : DerivedError)
  deriving DecidableEq

/-- A read gives a result or an error, and nothing when its fuel is spent. -/
abbrev Read := ExceptT ReadError Option

/-- A seed reads its type from a value. -/
abbrev Seed (Out : Type) := Value → Read Out

section Accessors

structure OwnedSeqDeserializer where
  iter : List Value

def OwnedSeqDeserializer.nextElementSeed {Out : Type} (access : OwnedSeqDeserializer) (seed : Seed Out) :
    Read (Option (Out × OwnedSeqDeserializer)) :=
  match access.iter with
  | value :: rest => do return some (← seed value, ⟨rest⟩)
  | [] => return none

structure OwnedMapDeserializer where
  iter : List (Value × Value)
  currentValue : Option Value

def OwnedMapDeserializer.nextKeySeed {Key : Type} (access : OwnedMapDeserializer) (seed : Seed Key) :
    Read (Option (Key × OwnedMapDeserializer)) :=
  match access.iter with
  | (key, value) :: rest => do return some (← seed key, ⟨rest, some value⟩)
  | [] => return none

def OwnedMapDeserializer.nextValueSeed {Out : Type} (access : OwnedMapDeserializer) (seed : Seed Out) :
    Read (Out × OwnedMapDeserializer) :=
  match access.currentValue with
  | some value => do return (← seed value, { access with currentValue := none })
  | none => throw (.own (.deserialize "expected map value"))

inductive OwnedEnumDeserializer where
  | unit (variant : String)
  | withValue (variant : String) (value : Value)

inductive OwnedVariantDeserializer where
  | unit
  | value (value : Value)

def OwnedEnumDeserializer.variantSeed {Out : Type} (access : OwnedEnumDeserializer) (seed : String → Read Out) :
    Read (Out × OwnedVariantDeserializer) :=
  match access with
  | .unit variant => do return (← seed variant, .unit)
  | .withValue variant value => do return (← seed variant, .value value)

end Accessors

/-- A visitor takes what its type expects, and refuses the rest. -/
structure Visitor (Out : Type) where
  visitBool : Bool → Read Out := fun value => throw (.derived (.invalidType (.bool value)))
  visitI64 : ℤ → Read Out := fun value => throw (.derived (.invalidType (.signed value)))
  visitU64 : ℕ → Read Out := fun value => throw (.derived (.invalidType (.unsigned value)))
  visitF64 : Double → Read Out := fun value => throw (.derived (.invalidType (.float value)))
  visitString : String → Read Out := fun value => throw (.derived (.invalidType (.str value)))
  visitNone : Read Out := throw (.derived (.invalidType .option))
  visitSome : Value → Read Out := fun _ => throw (.derived (.invalidType .option))
  visitUnit : Read Out := throw (.derived (.invalidType .unit))
  visitNewtypeStruct : Value → Read Out := fun _ => throw (.derived (.invalidType .newtypeStruct))
  visitSeq : OwnedSeqDeserializer → Read Out := fun _ => throw (.derived (.invalidType .seq))
  visitMap : OwnedMapDeserializer → Read Out := fun _ => throw (.derived (.invalidType .map))
  visitEnum : OwnedEnumDeserializer → Read Out := fun _ => throw (.derived (.invalidType .enum))

/-- This is the text of a number. -/
def Number.display : Number → String
  | .posInt value => toString value
  | .negInt value => toString value
  | .float .nan => ".nan"
  | .float (.infinite false) => ".inf"
  | .float (.infinite true) => "-.inf"
  | .float value => String.ofList value.display

section Methods

variable {Out : Type} (debug : Value → String)

def deserializeAny (value : Value) (visitor : Visitor Out) : Read Out :=
  match value with
  | .leaf .null => visitor.visitUnit
  | .leaf (.bool value) => visitor.visitBool value
  | .leaf (.number (.posInt value)) => visitor.visitU64 value
  | .leaf (.number (.negInt value)) => visitor.visitI64 value
  | .leaf (.number (.float value)) => visitor.visitF64 value
  | .leaf (.string value) => visitor.visitString value
  | .sequence items => visitor.visitSeq ⟨items⟩
  | .mapping entries => visitor.visitMap ⟨entries, none⟩

def deserializeBool (value : Value) (visitor : Visitor Out) : Read Out :=
  match value with
  | .leaf (.bool value) => visitor.visitBool value
  | .leaf (.string text) =>
      let lower := String.ofList (text.toList.map Char.toLower)
      if lower ∈ ["true", "yes", "on"] then visitor.visitBool true
      else if lower ∈ ["false", "no", "off"] then visitor.visitBool false
      else throw (.own (.deserialize s!"expected bool, found string: {text}"))
  | value => throw (.own (.deserialize s!"expected bool, found {debug value}"))

def deserializeOption (value : Value) (visitor : Visitor Out) : Read Out :=
  match value with
  | .leaf .null => visitor.visitNone
  | value => visitor.visitSome value

def deserializeEnum (value : Value) (visitor : Visitor Out) : Read Out :=
  match value with
  | .leaf (.string variant) => visitor.visitEnum (.unit variant)
  | .mapping [(.leaf (.string variant), value)] => visitor.visitEnum (.withValue variant value)
  | .mapping [_] => throw (.own (.deserialize "expected string key for enum variant"))
  | .mapping _ => throw (.own (.deserialize "expected enum with single variant as key"))
  | value => throw (.own (.deserialize s!"expected string or mapping for enum, found {debug value}"))

def deserializeUnit (value : Value) (visitor : Visitor Out) : Read Out :=
  match value with
  | .leaf .null => visitor.visitUnit
  | value => throw (.own (.deserialize s!"expected null, found {debug value}"))

def deserializeUnitStruct (value : Value) (visitor : Visitor Out) : Read Out := deserializeUnit debug value visitor

def deserializeNewtypeStruct (value : Value) (visitor : Visitor Out) : Read Out := visitor.visitNewtypeStruct value

def deserializeSeq (value : Value) (visitor : Visitor Out) : Read Out :=
  match value with
  | .sequence items => visitor.visitSeq ⟨items⟩
  | value => throw (.own (.deserialize s!"expected sequence, found {debug value}"))

def deserializeTupleStruct (value : Value) (visitor : Visitor Out) : Read Out := deserializeSeq debug value visitor

def deserializeMap (value : Value) (visitor : Visitor Out) : Read Out :=
  match value with
  | .mapping entries => visitor.visitMap ⟨entries, none⟩
  | value => throw (.own (.deserialize s!"expected mapping, found {debug value}"))

/-- A null is a struct without entries here. -/
def deserializeStruct (value : Value) (visitor : Visitor Out) : Read Out :=
  match value with
  | .leaf .null => visitor.visitMap ⟨[], none⟩
  | .mapping entries => visitor.visitMap ⟨entries, none⟩
  | value => throw (.own (.deserialize s!"expected mapping, found {debug value}"))

def deserializeString (value : Value) (visitor : Visitor Out) : Read Out :=
  match value with
  | .leaf (.string text) => visitor.visitString text
  | .leaf (.number number) => visitor.visitString number.display
  | .leaf (.bool value) => visitor.visitString (if value then "true" else "false")
  | value => deserializeAny value visitor

namespace OwnedVariantDeserializer

def unitVariant : OwnedVariantDeserializer → Read Unit
  | .unit => return ()
  | .value (.leaf .null) => return ()
  | .value found => throw (.own (.deserialize s!"expected null for unit variant, found {debug found}"))

def newtypeVariantSeed (access : OwnedVariantDeserializer) (seed : Seed Out) : Read Out :=
  match access with
  | .unit => throw (.own (.deserialize "expected newtype variant, found unit variant"))
  | .value inner => seed inner

def tupleVariant (access : OwnedVariantDeserializer) (visitor : Visitor Out) : Read Out :=
  match access with
  | .unit => throw (.own (.deserialize "expected tuple variant, found unit variant"))
  | .value inner => deserializeSeq debug inner visitor

def structVariant (access : OwnedVariantDeserializer) (visitor : Visitor Out) : Read Out :=
  match access with
  | .unit => throw (.own (.deserialize "expected struct variant, found unit variant"))
  | .value inner => deserializeMap debug inner visitor

end OwnedVariantDeserializer

end Methods

end Deserializer

section Derived

variable (debug : Value → String)

/-- The derived integers take any number in their range. -/
def intVisitor (kind : IntKind) : Visitor Data where
  visitI64 value := if kind.holds value then return .int kind value
    else throw (.derived (.invalidValue (.signed value)))
  visitU64 value := if kind.holds value then return .int kind value
    else throw (.derived (.invalidValue (.unsigned value)))

def stringSeed : Seed String := fun value => deserializeString value { visitString := fun text => return text }

/-- `while let Some(item) = seq.next_element()?`, for as many rounds as there are elements. -/
def collectElements (seed : Seed Data) : ℕ → OwnedSeqDeserializer → Read (List Data)
  | 0, _ => return []
  | rounds + 1, access => do
      match ← access.nextElementSeed seed with
      | none => return []
      | some (item, access) => return item :: (← collectElements seed rounds access)

/-- `while let Some((key, value)) = map.next_entry()?`, where an entry replaces one of the same key. -/
def collectEntries (seed : Seed Data) : ℕ → OwnedMapDeserializer → List (String × Data) → Read (List (String × Data))
  | 0, _, done => return done
  | rounds + 1, access, done => do
      match ← access.nextKeySeed stringSeed with
      | none => return done
      | some (key, access) => do
          let (item, access) ← access.nextValueSeed seed
          collectEntries seed rounds access (indexMapInsert done key item)

variable (read : Ty → Seed Data)

/-- The parts of a tuple are the next elements, one for each. -/
def readParts : List Ty → ℕ → OwnedSeqDeserializer → Read (List Data)
  | [], _, _ => return []
  | ty :: rest, index, access => do
      match ← access.nextElementSeed (read ty) with
      | none => throw (.derived (.invalidLength index))
      | some (part, access) => return part :: (← readParts rest (index + 1) access)

/-- A key names a field by its text or by its index, and an unknown field is ignored. -/
def fieldSeed (fields : List (String × Ty)) : Seed (Option (String × Ty)) := fun key =>
  deserializeAny key
    { visitString := fun name => return fields.find? (·.1 = name)
      visitU64 := fun index => return fields[index]? }

def ignoredAny : Seed Unit := fun _ => return ()

/-- `while let Some(key) = map.next_key()?` over the fields of a struct. -/
def collectFields (fields : List (String × Ty)) :
    ℕ → OwnedMapDeserializer → List (String × Data) → Read (List (String × Data))
  | 0, _, done => return done
  | rounds + 1, access, done => do
      match ← access.nextKeySeed (fieldSeed fields) with
      | none => return done
      | some (some (name, ty), access) => do
          if (done.lookup name).isSome then throw (.derived (.duplicateField name))
          let (part, access) ← access.nextValueSeed (read ty)
          collectFields fields rounds access (done ++ [(name, part)])
      | some (none, access) => do
          let ((), access) ← access.nextValueSeed ignoredAny
          collectFields fields rounds access done

/-- A field that has no entry is absent when it is optional, and missing otherwise. -/
def finishField (done : List (String × Data)) (field : String × Ty) : Read (String × Data) :=
  match done.lookup field.1 with
  | some part => return (field.1, part)
  | none =>
      match field.2 with
      | .option _ => return (field.1, .none)
      | _ => throw (.derived (.missingField field.1))

def tupleVisitor (parts : List Ty) : Visitor Content where
  visitSeq access := do return .tuple (← readParts read parts 0 access)

def namedVisitor (fields : List (String × Ty)) : Visitor Content where
  visitMap access := do
    let done ← collectFields read fields access.iter.length access []
    return .named (← fields.mapM (finishField done))

def readStruct (shape : Shape) (value : Value) : Read Content :=
  match shape with
  | .unit => deserializeUnitStruct debug value { visitUnit := return .unit }
  | .newtype inner => deserializeNewtypeStruct value { visitNewtypeStruct := fun value => do
      return .newtype (← read inner value) }
  | .tuple parts => deserializeTupleStruct debug value (tupleVisitor read parts)
  | .named fields => deserializeStruct debug value (namedVisitor read fields)

def readVariant (shape : Shape) (access : OwnedVariantDeserializer) : Read Content :=
  match shape with
  | .unit => do
      access.unitVariant debug
      return .unit
  | .newtype inner => do return .newtype (← access.newtypeVariantSeed (read inner))
  | .tuple parts => access.tupleVariant debug (tupleVisitor read parts)
  | .named fields => access.structVariant debug (namedVisitor read fields)

def variantSeed (variants : List (String × Shape)) (name : String) : Read (String × Shape) :=
  match variants.find? (·.1 = name) with
  | some variant => return variant
  | none => throw (.derived (.unknownVariant name))

def enumVisitor (variants : List (String × Shape)) : Visitor Data where
  visitEnum access := do
    let ((name, shape), access) ← access.variantSeed (variantSeed variants)
    return .variant name (← readVariant debug read shape access)

/-- `T::deserialize(ValueDeserializer::new(value))`, where the fuel bounds the depth of the calls. -/
def deserialize (declarations : Declarations) : ℕ → Ty → Seed Data
  | 0, _, _ => ExceptT.mk none
  | _ + 1, .bool, value => deserializeBool debug value { visitBool := fun value => return .bool value }
  | _ + 1, .int kind, value => deserializeAny value (intVisitor kind)
  | _ + 1, .string, value => do return .string (← stringSeed value)
  | fuel + 1, .seq item, value => deserializeSeq debug value
      { visitSeq := fun access => do
          return .seq (← collectElements (deserialize declarations fuel item) access.iter.length access) }
  | fuel + 1, .map item, value => deserializeMap debug value
      { visitMap := fun access => do
          return .map (← collectEntries (deserialize declarations fuel item) access.iter.length access []) }
  | fuel + 1, .option item, value => deserializeOption value
      { visitNone := return .none
        visitUnit := return .none
        visitSome := fun value => do return .some (← deserialize declarations fuel item value) }
  | fuel + 1, .declared name, value =>
      match declarations name with
      | .struct shape => do return .struct (← readStruct debug (deserialize declarations fuel) shape value)
      | .enum variants => deserializeEnum debug value (enumVisitor debug (deserialize declarations fuel) variants)

end Derived

end Spicebench.Yaml
