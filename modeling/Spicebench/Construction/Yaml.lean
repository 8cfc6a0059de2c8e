/-
This file embeds the passage of values to YAML text and back, over a library that dumps and loads YAML trees.
A text is a list of characters.
-/

import Spicebench.Library.FloatText
import Spicebench.Library.DataTree

namespace Spicebench.Yaml

open Library

/-- A number is unsigned, negative, or a binary64 value. -/
inductive Number where
  | posInt (value : Nat)
  | negInt (value : Int)
  | float (value : Double)
  deriving DecidableEq

/-- The values without parts. -/
inductive Scalar where
  | null
  | bool (value : Bool)
  | number (value : Number)
  | string (value : String)
  deriving DecidableEq

/-- A value is a scalar, a sequence of values, or a mapping whose keys are values. -/
abbrev Value := DataTree Scalar

/-- The nodes without parts of the YAML library, where a real is kept as its text. -/
inductive YamlNode where
  | real (text : String)
  | integer (value : Int)
  | string (value : String)
  | boolean (value : Bool)
  | alias (anchor : Nat)
  | null
  | badValue
  deriving DecidableEq

abbrev YamlTree := DataTree YamlNode

inductive Error where
  | parse (message : String)
  | serialize (message : String)
  | deserialize (message : String)
  deriving DecidableEq

section Maps

variable {Key Item : Type} [DecidableEq Key]

/-- `IndexMap::insert` replaces the value of a key in its place, and appends a new key. -/
def indexMapInsert (entries : List (Key × Item)) (key : Key) (value : Item) : List (Key × Item) :=
  if key ∈ entries.map Prod.fst then entries.map fun entry => if entry.1 = key then (key, value) else entry
  else entries ++ [(key, value)]

/-- The hash of the library moves a replaced key to its end. -/
def hashInsert (entries : List (Key × Item)) (key : Key) (value : Item) : List (Key × Item) :=
  (entries.filter fun entry => entry.1 ≠ key) ++ [(key, value)]

end Maps

def i64Max : Nat := 2 ^ 63 - 1

section Serialize

/-- `Value::from(i64)`. -/
def fromI64 (value : Int) : Number := if 0 ≤ value then .posInt value.toNat else .negInt value

/-- The serializer and the deserializer of values rebuild each scalar. -/
def rebuildScalar : Scalar → Scalar
  | .number (.negInt value) => .number (fromI64 value)
  | scalar => scalar

mutual
/-- Both serde passes visit a value and rebuild it from its parts. -/
def rebuild : Value → Value
  | .leaf scalar => .leaf (rebuildScalar scalar)
  | .sequence items => .sequence (rebuildItems items)
  | .mapping entries => .mapping (rebuildEntries entries [])

def rebuildItems : List Value → List Value
  | [] => []
  | item :: rest => rebuild item :: rebuildItems rest

def rebuildEntries : List (Value × Value) → List (Value × Value) → List (Value × Value)
  | [], done => done
  | (key, value) :: rest, done => rebuildEntries rest (indexMapInsert done (rebuild key) (rebuild value))
end

/-- `to_value` of a value. -/
def toValue (value : Value) : Value := rebuild value

/-- `Value::deserialize`. -/
def deserializeValue (value : Value) : Value := rebuild value

def floatToYaml (value : Double) : YamlNode :=
  match value with
  | .nan => .real ".nan"
  | .infinite false => .real ".inf"
  | .infinite true => .real "-.inf"
  | .finite .. => .real (String.ofList value.display)

def scalarToYaml : Scalar → Except Error YamlNode
  | .null => .ok .null
  | .bool value => .ok (.boolean value)
  | .number (.posInt value) =>
      if value ≤ i64Max then .ok (.integer value)
      else .error (.serialize
        s!"u64 value {value} exceeds i64::MAX ({i64Max}) and cannot be represented in YAML")
  | .number (.negInt value) => .ok (.integer value)
  | .number (.float value) => .ok (floatToYaml value)
  | .string value => .ok (.string value)

mutual
def valueToYaml : Value → Except Error YamlTree
  | .leaf scalar => do return .leaf (← scalarToYaml scalar)
  | .sequence items => do return .sequence (← valuesToYaml items)
  | .mapping entries => do return .mapping (← entriesToYaml entries [])

def valuesToYaml : List Value → Except Error (List YamlTree)
  | [] => .ok []
  | item :: rest => do
      let first ← valueToYaml item
      let others ← valuesToYaml rest
      return first :: others

def entriesToYaml : List (Value × Value) → List (YamlTree × YamlTree) → Except Error (List (YamlTree × YamlTree))
  | [], hash => .ok hash
  | (key, value) :: rest, hash => do
      let newKey ← valueToYaml key
      let newValue ← valueToYaml value
      entriesToYaml rest (hashInsert hash newKey newValue)
end

end Serialize

section Deserialize

def mergeKey : String := "<<"

/-- A real that is no number of binary64 is one of the special values, or a string. -/
def realToScalar (text : String) : Scalar :=
  match parseF64 text.toList with
  | some value => .number (.float value)
  | none =>
      let lower := text.toList.map Char.toLower
      if lower = ".inf".toList ∨ lower = "inf".toList then .number (.float (.infinite false))
      else if lower = "-.inf".toList ∨ lower = "-inf".toList then .number (.float (.infinite true))
      else if lower = ".nan".toList ∨ lower = "nan".toList then .number (.float .nan)
      else .string text

def nodeToScalar : YamlNode → Scalar
  | .boolean value => .bool value
  | .integer value => .number (fromI64 value)
  | .real text => realToScalar text
  | .string value => .string value
  | .null | .alias _ | .badValue => .null

abbrev Mapping := List (Value × Value)

/-- What was merged earlier, and what is a key already, is kept. -/
def applyMergeValues (map : Mapping) (mergeValues : List Mapping) : Mapping :=
  mergeValues.flatten.foldl
    (fun map entry => if entry.1 ∈ map.map Prod.fst then map else indexMapInsert map entry.1 entry.2) map

mutual
def yamlToValue : YamlTree → Value
  | .leaf node => .leaf (nodeToScalar node)
  | .sequence items => .sequence (yamlsToValues items)
  | .mapping hash => .mapping (yamlHashToValue hash [] [])

def yamlsToValues : List YamlTree → List Value
  | [] => []
  | item :: rest => yamlToValue item :: yamlsToValues rest

/-- The pass over a hash inserts its entries and collects what its merge key names. -/
def yamlHashToValue : List (YamlTree × YamlTree) → Mapping → List Mapping → Mapping
  | [], map, mergeValues => applyMergeValues map mergeValues
  | (key, value) :: rest, map, mergeValues =>
      if key = .leaf (.string mergeKey) then yamlHashToValue rest map (mergeValues ++ collectMergeValues value)
      else yamlHashToValue rest (indexMapInsert map (yamlToValue key) (yamlToValue value)) mergeValues

/-- The mappings of a merge value, where what is no mapping is ignored. -/
def collectMergeValues : YamlTree → List Mapping
  | .leaf _ => []
  | .sequence items => collectAllMergeValues items
  | .mapping hash => [yamlHashToValue hash [] []]

def collectAllMergeValues : List YamlTree → List Mapping
  | [] => []
  | item :: rest => collectMergeValues item ++ collectAllMergeValues rest
end

end Deserialize

/-- The YAML library dumps a tree, and loads the documents of a text. -/
structure YamlLibrary where
  dump : YamlTree → Except String (List Char)
  load : List Char → Except String (List YamlTree)

section Text

variable (library : YamlLibrary)

/-- `trim_start_matches("---")`. -/
def trimMarks : List Char → List Char
  | '-' :: '-' :: '-' :: rest => trimMarks rest
  | text => text

def emitYaml (value : Value) : Except Error (List Char) := do
  let yaml ← valueToYaml value
  let out ← (library.dump yaml).mapError Error.serialize
  let result := (trimMarks out).dropWhile (· = '\n')
  return if result.getLast? = some '\n' then result else result ++ ['\n']

def parseYaml (text : List Char) : Except Error Value := do
  let docs ← (library.load text).mapError Error.parse
  match docs with
  | [] => return .leaf .null
  | [doc] => return yamlToValue doc
  | docs => throw (.deserialize
      (s!"multi-document YAML is not supported (found {docs.length} documents). " ++
        "Use `from_str_multi` for multi-document YAML, or `---` only at the start of a single document."))

/-- `to_string` of a value. -/
def toText (value : Value) : Except Error (List Char) := emitYaml library (toValue value)

/-- `from_str::<Value>`. -/
def fromText (text : List Char) : Except Error Value := do
  let value ← parseYaml library text
  return deserializeValue value

end Text

end Spicebench.Yaml
