/-
This file embeds the equality and the hash of YAML values. A float is kept as its bits, and a mapping carries the table
of its keys.
-/

import Mathlib.Data.List.Basic

namespace Spicebench.YamlValue

/-- The calls that a hash makes on a hasher. -/
inductive Write where
  | u8 (value : UInt8)
  | u64 (value : UInt64)
  | i64 (value : Int64)
  | lengthPrefix (length : ℕ)
  | str (text : String)
  deriving DecidableEq

inductive Number where
  | posInt (value : UInt64)
  | negInt (value : Int64)
  | float (bits : UInt64)
  deriving DecidableEq

/-- The table of a mapping gives the positions that are compared with a key of the given writes. -/
abbrev Table := List Write → List ℕ

/-- The values without parts. -/
inductive Scalar where
  | null
  | bool (value : Bool)
  | number (value : Number)
  | string (value : String)
  deriving DecidableEq

inductive Value where
  | scalar (value : Scalar)
  | sequence (items : List Value)
  | mapping (table : Table) (entries : List (Value × Value))

/-- Floats are compared by their bits. -/
def Number.eq : Number → Number → Bool
  | .posInt a, .posInt b => a == b
  | .negInt a, .negInt b => a == b
  | .float a, .float b => a == b
  | _, _ => false

def Number.hash : Number → List Write
  | .posInt n => [.u8 0, .u64 n]
  | .negInt n => [.u8 1, .i64 n]
  | .float n => [.u8 2, .u64 n]

def Scalar.eq : Scalar → Scalar → Bool
  | .null, .null => true
  | .bool a, .bool b => a == b
  | .number a, .number b => a.eq b
  | .string a, .string b => a == b
  | _, _ => false

def Scalar.hash : Scalar → List Write
  | .null => [.u8 0]
  | .bool b => [.u8 1, .u8 (if b then 1 else 0)]
  | .number n => .u8 2 :: n.hash
  | .string s => [.u8 3, .str s]

mutual
/-- `Hash::hash` writes a tag and what is behind it. -/
def Value.hash : Value → List Write
  | .scalar value => value.hash
  | .sequence seq => .u8 4 :: .lengthPrefix seq.length :: hashItems seq
  | .mapping _ map => .u8 5 :: hashEntries map

def hashItems : List Value → List Write
  | [] => []
  | item :: rest => item.hash ++ hashItems rest

/-- The entries are written in their order, without their number. -/
def hashEntries : List (Value × Value) → List Write
  | [] => []
  | (k, v) :: rest => k.hash ++ v.hash ++ hashEntries rest
end

/-- The value of the first key that is accepted at the given positions. -/
def findAt (positions : List ℕ) (entries : List (Value × Value)) (accepts : Value → Bool) : Option Value :=
  ((positions.filterMap fun position => entries[position]?).find? fun entry => accepts entry.1).map Prod.snd

mutual
/-- The derived equality, where mappings are compared as `IndexMap` does it: each entry is looked up in the other. -/
def Value.eq : Value → Value → Bool
  | .scalar a, .scalar b => a.eq b
  | .sequence a, .sequence b => eqItems a b
  | .mapping _ a, .mapping table b => a.length == b.length && eqEntries a table b
  | _, _ => false

def eqItems : List Value → List Value → Bool
  | [], [] => true
  | item :: rest, other :: others => item.eq other && eqItems rest others
  | _, _ => false

def eqEntries : List (Value × Value) → Table → List (Value × Value) → Bool
  | [], _, _ => true
  | (key, value) :: rest, table, others =>
      (match findAt (table key.hash) others fun other => key.eq other with
        | some found => value.eq found
        | none => false) && eqEntries rest table others
end

/-- `IndexMap::get` compares the key with the keys at the positions of its table. -/
def get (table : Table) (entries : List (Value × Value)) (key : Value) : Option Value :=
  findAt (table key.hash) entries fun other => key.eq other

end Spicebench.YamlValue
