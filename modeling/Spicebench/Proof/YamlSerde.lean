import Spicebench.Construction.YamlSerde
import Spicebench.Library.HashGroups
import Spicebench.Proof.Yaml
import Mathlib.Order.Filter.AtTopBot.Basic
import Mathlib.Order.Filter.Finite

namespace Spicebench.Yaml

open Library

section Typing

/-- A field of a struct with its type and its value. -/
abbrev Field := String × Ty × Data

def Field.declared (field : Field) : String × Ty := (field.1, field.2.1)

def Field.content (field : Field) : String × Data := (field.1, field.2.2)

theorem map_declared_fst (fields : List Field) : (fields.map Field.declared).map Prod.fst = fields.map Prod.fst := by
  rw [List.map_map]
  rfl

theorem map_content_fst (fields : List Field) : (fields.map Field.content).map Prod.fst = fields.map Prod.fst := by
  rw [List.map_map]
  rfl

/-- The content has the form of the shape, and these are its parts with their types. -/
inductive Shape.Fits : Shape → Content → List (Ty × Data) → Prop where
  | unit : Fits .unit .unit []
  | newtype (ty : Ty) (inner : Data) : Fits (.newtype ty) (.newtype inner) [(ty, inner)]
  | tuple (parts : List (Ty × Data)) : Fits (.tuple (parts.map Prod.fst)) (.tuple (parts.map Prod.snd)) parts
  | named (fields : List Field) :
      Fits (.named (fields.map Field.declared)) (.named (fields.map Field.content)) (fields.map Prod.snd)

inductive HasType (declarations : Declarations) : Ty → Data → Prop where
  | bool (value : Bool) : HasType declarations .bool (.bool value)
  | int {kind : IntKind} {value : ℤ} (fits : kind.holds value = true) :
      HasType declarations (.int kind) (.int kind value)
  | string (value : String) : HasType declarations .string (.string value)
  | seq {item : Ty} {items : List Data} (each : ∀ part ∈ items, HasType declarations item part) :
      HasType declarations (.seq item) (.seq items)
  | map {item : Ty} {entries : List (String × Data)} (distinct : (entries.map Prod.fst).Nodup)
      (each : ∀ entry ∈ entries, HasType declarations item entry.2) : HasType declarations (.map item) (.map entries)
  | none (item : Ty) : HasType declarations (.option item) .none
  | some {item : Ty} {inner : Data} (typed : HasType declarations item inner) :
      HasType declarations (.option item) (.some inner)
  | struct {name : String} {shape : Shape} {content : Content} {parts : List (Ty × Data)}
      (declared : declarations name = .struct shape) (fits : shape.Fits content parts)
      (each : ∀ part ∈ parts, HasType declarations part.1 part.2) :
      HasType declarations (.declared name) (.struct content)
  | variant {name variant : String} {variants : List (String × Shape)} {shape : Shape} {content : Content}
      {parts : List (Ty × Data)} (declared : declarations name = .enum variants) (member : (variant, shape) ∈ variants)
      (fits : shape.Fits content parts) (each : ∀ part ∈ parts, HasType declarations part.1 part.2) :
      HasType declarations (.declared name) (.variant variant content)

/-- The encoding of a value of the type is never null. -/
def NeverNull (declarations : Declarations) (ty : Ty) : Prop :=
  ∀ value, HasType declarations ty value → value.serialize ≠ .ok (.leaf .null)

/-- An option is one of a type that is never null. -/
def Ty.WellFormed (declarations : Declarations) : Ty → Prop
  | .option item => NeverNull declarations item ∧ item.WellFormed declarations
  | .seq item | .map item => item.WellFormed declarations
  | .bool | .int _ | .string | .declared _ => True

def Shape.types : Shape → List Ty
  | .unit => []
  | .newtype inner => [inner]
  | .tuple parts => parts
  | .named fields => fields.map Prod.snd

def Shape.fieldNames : Shape → List String
  | .named fields => fields.map Prod.fst
  | .unit | .newtype _ | .tuple _ => []

def Item.shapes : Item → List Shape
  | .struct shape => [shape]
  | .enum variants => variants.map Prod.snd

def Item.variantNames : Item → List String
  | .struct _ => []
  | .enum variants => variants.map Prod.fst

/-- The language keeps the fields of a struct and the variants of an enum apart. -/
structure Declarations.WellFormed (declarations : Declarations) : Prop where
  types : ∀ name, ∀ shape ∈ (declarations name).shapes, ∀ ty ∈ shape.types, ty.WellFormed declarations
  fields : ∀ name, ∀ shape ∈ (declarations name).shapes, shape.fieldNames.Nodup
  variants : ∀ name, (declarations name).variantNames.Nodup

theorem Shape.Fits.types_eq {shape : Shape} {content : Content} {parts : List (Ty × Data)}
    (fits : shape.Fits content parts) : shape.types = parts.map Prod.fst := by
  cases fits with
  | unit => rfl
  | newtype ty inner => rfl
  | tuple parts => rfl
  | named fields =>
      rw [Shape.types, List.map_map, List.map_map]
      rfl

end Typing

section Writing

variable {Part : Type} (data : Part → Data) (value : Part → Value) {parts : List Part}

theorem serializeElements_eq (each : ∀ part ∈ parts, (data part).serialize = pure (value part))
    (serializer : SeqSerializer) :
    serializeElements (parts.map data) serializer = pure ⟨serializer.elements ++ parts.map value⟩ := by
  induction parts generalizing serializer with
  | nil => simp [serializeElements]
  | cons part rest ih =>
      obtain ⟨first, others⟩ := List.forall_mem_cons.mp each
      rw [List.map_cons, serializeElements, first, pure_bind, ih others]
      simp [SeqSerializer.serializeElement]

theorem string_notMem {name : String} {entries : Mapping} {names : List String}
    (distinct : (entries.map Prod.fst ++ (name :: names).map fun name => DataTree.leaf (Scalar.string name)).Nodup) :
    DataTree.leaf (Scalar.string name) ∉ entries.map Prod.fst := by
  intro member
  exact (List.nodup_append.mp distinct).2.2 _ member _ (by simp) rfl

variable (name : Part → String)

/-- Distinct keys are appended in their order. -/
theorem serializeEntries_eq (each : ∀ part ∈ parts, (data part).serialize = pure (value part)) {entries : Mapping}
    (distinct : (entries.map Prod.fst ++ (parts.map name).map fun name => DataTree.leaf (Scalar.string name)).Nodup) :
    serializeEntries (parts.map fun part => (name part, data part)) ⟨entries, none⟩ =
      pure ⟨entries ++ parts.map fun part => (.leaf (.string (name part)), value part), none⟩ := by
  induction parts generalizing entries with
  | nil => simp [serializeEntries]
  | cons part rest ih =>
      obtain ⟨first, others⟩ := List.forall_mem_cons.mp each
      rw [List.map_cons, serializeEntries, first, pure_bind, MapSerializer.serializeKey, MapSerializer.serializeValue]
      simp only [pure_bind]
      rw [indexMapInsert_new (string_notMem distinct), ih others (by simpa using distinct)]
      simp

theorem serializeFields_eq (each : ∀ part ∈ parts, (data part).serialize = pure (value part)) {entries : Mapping}
    (distinct : (entries.map Prod.fst ++ (parts.map name).map fun name => DataTree.leaf (Scalar.string name)).Nodup) :
    serializeFields (parts.map fun part => (name part, data part)) ⟨entries, none⟩ =
      pure ⟨entries ++ parts.map fun part => (.leaf (.string (name part)), value part), none⟩ := by
  induction parts generalizing entries with
  | nil => simp [serializeFields]
  | cons part rest ih =>
      obtain ⟨first, others⟩ := List.forall_mem_cons.mp each
      rw [List.map_cons, serializeFields, first, pure_bind, MapSerializer.serializeField]
      dsimp only
      rw [indexMapInsert_new (string_notMem distinct), ih others (by simpa using distinct)]
      simp

end Writing

section Reading

variable {Part : Type} (data : Part → Data) (value : Part → Value) {parts : List Part}

theorem collectElements_eq {seed : Seed Data} (each : ∀ part ∈ parts, seed (value part) = pure (data part)) :
    collectElements seed (parts.map value).length ⟨parts.map value⟩ = pure (parts.map data) := by
  induction parts with
  | nil => rfl
  | cons part rest ih =>
      obtain ⟨first, others⟩ := List.forall_mem_cons.mp each
      rw [List.map_cons, List.length_cons, collectElements, OwnedSeqDeserializer.nextElementSeed]
      simp only [first, pure_bind, ih others, List.map_cons]

theorem readParts_eq {read : Ty → Seed Data} {typed : List (Ty × Data)} (value : Ty × Data → Value)
    (each : ∀ part ∈ typed, read part.1 (value part) = pure part.2) (index : ℕ) :
    readParts read (typed.map Prod.fst) index ⟨typed.map value⟩ = pure (typed.map Prod.snd) := by
  induction typed generalizing index with
  | nil => rfl
  | cons part rest ih =>
      obtain ⟨first, others⟩ := List.forall_mem_cons.mp each
      rw [List.map_cons, List.map_cons, readParts, OwnedSeqDeserializer.nextElementSeed]
      simp only [first, pure_bind, ih others, List.map_cons]

theorem stringSeed_string (text : String) : stringSeed (.leaf (.string text)) = pure text := rfl

theorem collectEntries_eq {seed : Seed Data} {entries : List (String × Data)} (done : List (String × Data))
    {value : String × Data → Value}
    (each : ∀ entry ∈ entries, seed (value entry) = pure entry.2)
    (distinct : ((done ++ entries).map Prod.fst).Nodup) (current : Option Value) :
    collectEntries seed entries.length ⟨entries.map fun entry => (.leaf (.string entry.1), value entry), current⟩ done =
      pure (done ++ entries) := by
  induction entries generalizing done current with
  | nil => rw [List.append_nil]; rfl
  | cons entry rest ih =>
      obtain ⟨first, others⟩ := List.forall_mem_cons.mp each
      have fresh : entry.1 ∉ done.map Prod.fst := by
        rw [List.map_append, List.map_cons] at distinct
        intro member
        exact (List.nodup_append.mp distinct).2.2 _ member _ List.mem_cons_self rfl
      rw [List.map_cons, List.length_cons, collectEntries, OwnedMapDeserializer.nextKeySeed]
      simp only [stringSeed_string, pure_bind, OwnedMapDeserializer.nextValueSeed, first]
      rw [indexMapInsert_new fresh, ih _ others (by simpa using distinct)]
      simp

/-- Each entry fills the field of its name, which is still empty. -/
theorem collectFields_eq {read : Ty → Seed Data} (value : Ty × Data → Value) (done : List Field) {rest : List Field}
    (distinct : ((done ++ rest).map Prod.fst).Nodup)
    (each : ∀ field ∈ rest, read field.2.1 (value field.2) = pure field.2.2) (current : Option Value) :
    collectFields read ((done ++ rest).map Field.declared) rest.length
      ⟨rest.map fun field => (.leaf (.string field.1), value field.2), current⟩ (done.map Field.content) =
      pure ((done ++ rest).map Field.content) := by
  induction rest generalizing done current with
  | nil => rw [List.append_nil]; rfl
  | cons field rest ih =>
      obtain ⟨first, others⟩ := List.forall_mem_cons.mp each
      have known : fieldSeed ((done ++ field :: rest).map Field.declared) (.leaf (.string field.1)) =
          pure (some field.declared) := by
        have inside : field.declared ∈ (done ++ field :: rest).map Field.declared :=
          List.mem_map_of_mem (List.mem_append_right done List.mem_cons_self)
        exact congrArg pure (find?_of_nodup (by rwa [map_declared_fst]) inside)
      have fresh : (done.map Field.content).lookup field.1 = none := by
        rw [List.lookup_eq_none_iff]
        intro other member
        rw [bne_iff_ne]
        intro same
        obtain ⟨earlier, inside, rfl⟩ := List.mem_map.mp member
        rw [List.map_append, List.map_cons] at distinct
        exact (List.nodup_append.mp distinct).2.2 _ (List.mem_map_of_mem inside) _ List.mem_cons_self same.symm
      rw [List.map_cons, List.length_cons, collectFields, OwnedMapDeserializer.nextKeySeed]
      simp only [known, pure_bind, Field.declared, fresh, OwnedMapDeserializer.nextValueSeed, first]
      have step := ih (done ++ [field]) (by simpa using distinct) others none
      simpa [Field.content] using step

/-- Each declared field was found. -/
theorem finishFields_eq {fields : List Field} (distinct : (fields.map Prod.fst).Nodup) {part : List Field}
    (inside : ∀ field ∈ part, field ∈ fields) :
    (part.map Field.declared).mapM (finishField (fields.map Field.content)) = pure (part.map Field.content) := by
  induction part with
  | nil => rfl
  | cons field rest ih =>
      obtain ⟨member, others⟩ := List.forall_mem_cons.mp inside
      have found : (fields.map Field.content).lookup field.1 = some field.2.2 :=
        lookup_of_nodup (by rwa [map_content_fst]) (List.mem_map.mpr ⟨field, member, rfl⟩)
      have finished : finishField (fields.map Field.content) field.declared = pure field.content := by
        rw [finishField, Field.declared]
        simp only [found]
        rfl
      rw [List.map_cons, List.mapM_cons, finished, pure_bind, ih others, pure_bind, List.map_cons]

end Reading

section Contents

variable (debug : Value → String) {shape : Shape} {content : Content} {parts : List (Ty × Data)}
  {value : Ty × Data → Value}

theorem strings_nodup {names : List String} (distinct : names.Nodup) :
    (names.map fun name => DataTree.leaf (Scalar.string name)).Nodup :=
  distinct.map fun _ _ same => Scalar.string.inj (DataTree.leaf.inj same)

theorem serializeFields_content {fields : List Field} (distinct : (fields.map Prod.fst).Nodup)
    (written : ∀ part ∈ fields.map Prod.snd, part.2.serialize = pure (value part)) :
    serializeFields (fields.map Field.content) ⟨[], none⟩ =
      pure ⟨fields.map fun field => (.leaf (.string field.1), value field.2), none⟩ := by
  have apart : (([] : Mapping).map Prod.fst ++
      (fields.map Prod.fst).map fun name => DataTree.leaf (Scalar.string name)).Nodup := strings_nodup distinct
  have each : ∀ field ∈ fields, field.2.2.serialize = pure (value field.2) := List.forall_mem_map.mp written
  exact serializeFields_eq (fun field : Field => field.2.2) (fun field => value field.2) Prod.fst each apart

/-- The parts of a tuple come back from its sequence. -/
theorem tupleVisitor_eq {read : Ty → Seed Data} (each : ∀ part ∈ parts, read part.1 (value part) = pure part.2) :
    (tupleVisitor read (parts.map Prod.fst)).visitSeq ⟨parts.map value⟩ =
      pure (.tuple (parts.map Prod.snd)) := by
  rw [tupleVisitor]
  simp only [readParts_eq value each, pure_bind]

/-- The fields of a struct come back from its mapping. -/
theorem namedVisitor_eq {read : Ty → Seed Data} {fields : List Field} (distinct : (fields.map Prod.fst).Nodup)
    (each : ∀ field ∈ fields, read field.2.1 (value field.2) = pure field.2.2) :
    (namedVisitor read (fields.map Field.declared)).visitMap
      ⟨fields.map fun field => (.leaf (.string field.1), value field.2), none⟩ =
      pure (.named (fields.map Field.content)) := by
  have collected := collectFields_eq value [] distinct each none
  rw [List.nil_append, List.map_nil] at collected
  rw [namedVisitor]
  simp only [List.length_map, collected, pure_bind, finishFields_eq distinct fun _ member => member]

/-- The encoding of a struct, which each reader of its parts reads. -/
theorem exists_struct (fits : shape.Fits content parts) (distinct : shape.fieldNames.Nodup)
    (written : ∀ part ∈ parts, part.2.serialize = pure (value part)) :
    ∃ encoded, content.serializeStruct = pure encoded ∧ ∀ read : Ty → Seed Data,
      (∀ part ∈ parts, read part.1 (value part) = pure part.2) →
        readStruct debug read shape encoded = pure content := by
  cases fits with
  | unit => exact ⟨.leaf .null, rfl, fun _ _ => rfl⟩
  | newtype ty inner =>
      rw [List.forall_mem_singleton] at written
      refine ⟨value (ty, inner), written, fun read each => ?_⟩
      rw [List.forall_mem_singleton] at each
      simp only [readStruct, deserializeNewtypeStruct, each, pure_bind]
  | tuple parts =>
      refine ⟨.sequence (parts.map value), ?_, fun read each => ?_⟩
      · rw [Content.serializeStruct, serializeElements_eq Prod.snd value written, pure_bind]
        rfl
      · exact tupleVisitor_eq each
  | named fields =>
      have names : (fields.map Prod.fst).Nodup := by rwa [← map_declared_fst]
      refine ⟨.mapping (fields.map fun field => (.leaf (.string field.1), value field.2)), ?_, fun read each => ?_⟩
      · rw [Content.serializeStruct, serializeFields_content names written, pure_bind]
        rfl
      · exact namedVisitor_eq names (List.forall_mem_map.mp each)

/-- The encoding of a variant, which each reader of its parts reads. -/
theorem exists_variant {variants : List (String × Shape)} {name : String} (fits : shape.Fits content parts)
    (distinct : shape.fieldNames.Nodup) (apart : (variants.map Prod.fst).Nodup) (member : (name, shape) ∈ variants)
    (written : ∀ part ∈ parts, part.2.serialize = pure (value part)) :
    ∃ encoded, content.serializeVariant name = pure encoded ∧ ∀ read : Ty → Seed Data,
      (∀ part ∈ parts, read part.1 (value part) = pure part.2) →
        deserializeEnum debug encoded (enumVisitor debug read variants) = pure (.variant name content) := by
  have found : variantSeed variants name = pure (name, shape) := by
    have first : variants.find? (·.1 = name) = some (name, shape) := find?_of_nodup apart member
    rw [variantSeed, first]
  cases fits with
  | unit =>
      refine ⟨.leaf (.string name), rfl, fun read _ => ?_⟩
      simp only [deserializeEnum, enumVisitor, OwnedEnumDeserializer.variantSeed, found, pure_bind, readVariant,
        OwnedVariantDeserializer.unitVariant]
  | newtype ty inner =>
      rw [List.forall_mem_singleton] at written
      refine ⟨.mapping [(.leaf (.string name), value (ty, inner))], ?_, fun read each => ?_⟩
      · rw [Content.serializeVariant, written, pure_bind]
        rfl
      · rw [List.forall_mem_singleton] at each
        simp only [deserializeEnum, enumVisitor, OwnedEnumDeserializer.variantSeed, found, pure_bind, readVariant,
          OwnedVariantDeserializer.newtypeVariantSeed, each]
  | tuple parts =>
      refine ⟨.mapping [(.leaf (.string name), .sequence (parts.map value))], ?_, fun read each => ?_⟩
      · rw [Content.serializeVariant, serializeElements_eq Prod.snd value written, pure_bind]
        rfl
      · simp only [deserializeEnum, enumVisitor, OwnedEnumDeserializer.variantSeed, found, pure_bind, readVariant,
          OwnedVariantDeserializer.tupleVariant, deserializeSeq, tupleVisitor_eq each]
  | named fields =>
      have names : (fields.map Prod.fst).Nodup := by rwa [← map_declared_fst]
      refine ⟨.mapping [(.leaf (.string name),
        .mapping (fields.map fun field => (.leaf (.string field.1), value field.2)))], ?_, fun read each => ?_⟩
      · rw [Content.serializeVariant, serializeFields_content names written, pure_bind]
        rfl
      · have visited := namedVisitor_eq names (List.forall_mem_map.mp each)
        simp only [deserializeEnum, enumVisitor, OwnedEnumDeserializer.variantSeed, found, pure_bind, readVariant,
          OwnedVariantDeserializer.structVariant, deserializeMap]
        simp only [visited, pure_bind]

end Contents

section RoundTrip

variable (debug : Value → String) {declarations : Declarations} {ty : Ty} {value : Data}

instance : Inhabited Value := ⟨.leaf .null⟩

/-- The value is encoded as the given one, and comes back from it once the fuel is enough. -/
structure Returned (declarations : Declarations) (ty : Ty) (value : Data) (encoded : Value) : Prop where
  written : value.serialize = pure encoded
  back : ∀ᶠ fuel in Filter.atTop, deserialize debug declarations fuel ty encoded = pure value

/-- One call takes one unit of the fuel. -/
theorem eventually_of_succ {holds : ℕ → Prop} (eventually : ∀ᶠ fuel in Filter.atTop, holds (fuel + 1)) :
    ∀ᶠ fuel in Filter.atTop, holds fuel := by
  obtain ⟨enough, holdsFrom⟩ := Filter.eventually_atTop.mp eventually
  refine Filter.eventually_atTop.mpr ⟨enough + 1, fun fuel more => ?_⟩
  obtain ⟨rest, rfl⟩ := Nat.exists_eq_add_of_le' (Nat.le_of_add_left_le more)
  exact holdsFrom rest (by omega)

/-- One amount of fuel is enough for all members of a list. -/
theorem eventually_forall_mem {Part : Type} {parts : List Part} {holds : ℕ → Part → Prop}
    (each : ∀ part ∈ parts, ∀ᶠ fuel in Filter.atTop, holds fuel part) :
    ∀ᶠ fuel in Filter.atTop, ∀ part ∈ parts, holds fuel part :=
  (Filter.eventually_all_finite parts.finite_toSet).mpr each

theorem deserializeOption_some {Out : Type} {encoded : Value} (present : encoded ≠ .leaf .null)
    (visitor : Visitor Out) :
    deserializeOption encoded visitor = visitor.visitSome encoded := by
  unfold deserializeOption
  split
  · exact absurd rfl present
  · rfl

theorem intVisitor_fromInt {kind : IntKind} {value : ℤ} (fits : kind.holds value = true) :
    deserializeAny (fromInt kind value) (intVisitor kind) = pure (.int kind value) := by
  have negative : ¬ 0 ≤ value → kind.signed = true := by
    intro below
    by_contra unsigned
    simp only [IntKind.holds, unsigned, if_false, decide_eq_true_eq] at fits
    exact below fits.1
  by_cases sign : 0 ≤ value
  · have encoded : fromInt kind value = .leaf (.number (.posInt value.toNat)) := by
      simp [fromInt, fromI64, sign]
    rw [encoded]
    simp only [deserializeAny, intVisitor, Int.toNat_of_nonneg sign, fits, if_true]
  · have encoded : fromInt kind value = .leaf (.number (.negInt value)) := by
      simp [fromInt, fromI64, sign, negative sign]
    rw [encoded]
    simp only [deserializeAny, intVisitor, fits, if_true]

/-- By induction on the typing, where the parts of a value come back first. -/
theorem exists_returned (wellFormed : declarations.WellFormed) (allowed : ty.WellFormed declarations)
    (typed : HasType declarations ty value) : ∃ encoded, Returned debug declarations ty value encoded := by
  induction typed with
  | bool value => exact ⟨_, rfl, eventually_of_succ (.of_forall fun fuel => rfl)⟩
  | int fits => exact ⟨_, rfl, eventually_of_succ (.of_forall fun fuel => intVisitor_fromInt fits)⟩
  | string value => exact ⟨_, rfl, eventually_of_succ (.of_forall fun fuel => rfl)⟩
  | @seq item items each ih =>
      choose! encoded returned using fun part member => ih part member allowed
      refine ⟨.sequence (items.map encoded), ?_, eventually_of_succ ?_⟩
      · have elements := serializeElements_eq id encoded (fun part member => (returned part member).written) ⟨[]⟩
        rw [List.map_id] at elements
        rw [Data.serialize, elements, pure_bind]
        rfl
      · filter_upwards [eventually_forall_mem fun part member => (returned part member).back] with fuel back
        have collected := collectElements_eq id encoded back
        rw [List.map_id] at collected
        simp only [deserialize, deserializeSeq, collected, pure_bind]
  | @map item entries distinct each ih =>
      choose! encoded returned using fun entry member => ih entry member allowed
      refine ⟨.mapping (entries.map fun entry => (.leaf (.string entry.1), encoded entry)), ?_, eventually_of_succ ?_⟩
      · have apart : (([] : Mapping).map Prod.fst ++
            (entries.map Prod.fst).map fun name => DataTree.leaf (Scalar.string name)).Nodup := strings_nodup distinct
        have pairs := serializeEntries_eq Prod.snd encoded Prod.fst
          (fun entry member => (returned entry member).written) apart
        rw [List.map_id'' fun _ => rfl] at pairs
        rw [Data.serialize, pairs, pure_bind]
        rfl
      · filter_upwards [eventually_forall_mem fun entry member => (returned entry member).back] with fuel back
        have collected := collectEntries_eq [] back (by simpa using distinct) none
        simp only [deserialize, deserializeMap, List.length_map, collected, pure_bind, List.nil_append]
  | none item => exact ⟨_, rfl, eventually_of_succ (.of_forall fun fuel => rfl)⟩
  | some typed ih =>
      obtain ⟨present, allowed⟩ := allowed
      obtain ⟨encoded, written, back⟩ := ih allowed
      refine ⟨encoded, written, eventually_of_succ ?_⟩
      have differs : encoded ≠ .leaf .null := by
        rintro rfl
        exact present _ typed written
      filter_upwards [back] with fuel back
      simp only [deserialize, deserializeOption_some differs, back, pure_bind]
  | @struct name shape content parts declared fits each ih =>
      have known : shape ∈ (declarations name).shapes := by simp [declared, Item.shapes]
      have sound : ∀ part ∈ parts, part.1.WellFormed declarations := fun part member =>
        wellFormed.types name shape known part.1 (fits.types_eq ▸ List.mem_map_of_mem member)
      choose! encoded returned using fun part member => ih part member (sound part member)
      obtain ⟨whole, written, reads⟩ := exists_struct debug fits (wellFormed.fields name shape known)
        fun part member => (returned part member).written
      refine ⟨whole, written, eventually_of_succ ?_⟩
      filter_upwards [eventually_forall_mem fun part member => (returned part member).back] with fuel back
      simp only [deserialize, declared, reads _ back, pure_bind]
  | @variant name variant variants shape content parts declared member fits each ih =>
      have known : shape ∈ (declarations name).shapes := by
        rw [declared]
        exact List.mem_map_of_mem member
      have sound : ∀ part ∈ parts, part.1.WellFormed declarations := fun part inside =>
        wellFormed.types name shape known part.1 (fits.types_eq ▸ List.mem_map_of_mem inside)
      have apart : (variants.map Prod.fst).Nodup := by
        have names := wellFormed.variants name
        rwa [declared] at names
      choose! encoded returned using fun part inside => ih part inside (sound part inside)
      obtain ⟨whole, written, reads⟩ := exists_variant debug fits (wellFormed.fields name shape known) apart
        member fun part inside => (returned part inside).written
      refine ⟨whole, written, eventually_of_succ ?_⟩
      filter_upwards [eventually_forall_mem fun part inside => (returned part inside).back] with fuel back
      simp only [deserialize, declared, reads _ back]

/-- Each value of a type comes back from its encoding, and enough fuel is a finite amount. -/
theorem serde_round_trip (wellFormed : declarations.WellFormed) (allowed : ty.WellFormed declarations)
    (typed : HasType declarations ty value) : ∃ encoded, value.serialize = .ok encoded ∧
      ∃ enough, ∀ fuel ≥ enough, deserialize debug declarations fuel ty encoded = pure value := by
  obtain ⟨encoded, written, back⟩ := exists_returned debug wellFormed allowed typed
  exact ⟨encoded, written, Filter.eventually_atTop.mp back⟩

end RoundTrip

section Sample

/-- A node has an optional label and nodes below it, and a step has one of the four forms of a variant. -/
def sampleDeclarations : Declarations := fun name =>
  if name = "Node" then .struct (.named [("label", .option .string), ("below", .seq (.declared "Node"))])
  else .enum [("Idle", .unit), ("Wait", .newtype (.int .i8)), ("Move", .tuple [.bool, .int .u64]),
    ("Grow", .named [("node", .declared "Node")])]

theorem sampleDeclarations_wellFormed : sampleDeclarations.WellFormed := by
  have present : NeverNull sampleDeclarations .string := by
    intro value typed
    cases typed
    rintro ⟨⟩
  constructor
  · intro name
    rw [sampleDeclarations]
    split_ifs <;> simp [Item.shapes, Shape.types, Ty.WellFormed, present]
  · intro name
    rw [sampleDeclarations]
    split_ifs <;> simp [Item.shapes, Shape.fieldNames]
  · intro name
    rw [sampleDeclarations]
    split_ifs <;> simp [Item.variantNames]

/-- The step `Grow { node: Node { label: None, below: [Node { label: "a", below: [] }] } }`. -/
def sampleStep : Data :=
  .variant "Grow" (.named [("node", .struct (.named [("label", .none), ("below", .seq
    [.struct (.named [("label", .some (.string "a")), ("below", .seq [])])])]))])

theorem sampleStep_typed : HasType sampleDeclarations (.declared "Step") sampleStep := by
  have below : HasType sampleDeclarations (.declared "Node")
      (.struct (.named [("label", .some (.string "a")), ("below", .seq [])])) :=
    .struct rfl (.named [("label", .option .string, _), ("below", .seq (.declared "Node"), _)])
      (by simpa using ⟨.some (.string "a"), .seq (by simp)⟩)
  have node : HasType sampleDeclarations (.declared "Node") (.struct (.named [("label", .none), ("below", .seq
      [.struct (.named [("label", .some (.string "a")), ("below", .seq [])])])])) :=
    .struct rfl (.named [("label", .option .string, _), ("below", .seq (.declared "Node"), _)])
      (by simpa using ⟨.none .string, .seq (by simpa using below)⟩)
  exact .variant rfl (by simp [Field.declared]) (.named [("node", .declared "Node", _)]) (by simpa using node)

theorem serde_round_trip_sample : ∃ encoded, sampleStep.serialize = .ok encoded ∧ ∃ enough, ∀ fuel ≥ enough,
    deserialize (fun _ => "") sampleDeclarations fuel (.declared "Step") encoded = pure sampleStep :=
  serde_round_trip _ sampleDeclarations_wellFormed trivial sampleStep_typed

end Sample

end Spicebench.Yaml
