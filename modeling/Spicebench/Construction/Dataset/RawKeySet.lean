/-
This file embeds the operations of the indexed key set on its plain fields, and the sampling loop with its random
source.
-/

import Spicebench.Construction.Dataset.KeySet
import Spicebench.Library.HashGroups

namespace Spicebench.DataGeneration

open Library

/-- A random source yields numbers below the bound that it is asked for. -/
structure Rng (State : Type) where
  randomRange : ℕ → State → ℕ × State
  below : ∀ len state, 0 < len → (randomRange len state).1 < len

/-- The fields of `IndexedKeySet`, of which nothing is known. -/
structure RawKeySet (Key : Type) where
  keys : List Key
  index : Key → Option ℕ

/-- `Vec::swap_remove` panics beyond the end. -/
def vecSwapRemove {Key : Type} (keys : List Key) (position : ℕ) : Option (List Key) :=
  if position < keys.length then some (swapRemove keys position) else none

namespace RawKeySet

variable {Key State : Type}

def new : RawKeySet Key := ⟨[], fun _ => none⟩

section Updates

variable [DecidableEq Key]

/-- The result says if the key was newly inserted. -/
def insert (set : RawKeySet Key) (key : Key) : Bool × RawKeySet Key :=
  if (set.index key).isSome then (false, set)
  else
    let idx := set.keys.length
    (true, ⟨set.keys ++ [key], Function.update set.index key (some idx)⟩)

/-- The result says if the key was present, and there is none when the removal panics. -/
def remove (set : RawKeySet Key) (key : Key) : Option (Bool × RawKeySet Key) :=
  match set.index key with
  | none => some (false, set)
  | some idx => do
      let index := Function.update set.index key none
      let keys ← vecSwapRemove set.keys idx
      match keys[idx]? with
      | some moved => return (true, ⟨keys, Function.update index moved (some idx)⟩)
      | none => return (true, ⟨keys, index⟩)

end Updates

/-- `while chosen.len() < n`, for as many rounds as the fuel allows. -/
def chooseUntil (rng : Rng State) (n len : ℕ) (fuel : ℕ) (chosen : List ℕ) (state : State) : Option (List ℕ × State) :=
  if chosen.length < n then
    match fuel with
    | 0 => none
    | fuel + 1 =>
        let (drawn, state) := rng.randomRange len state
        chooseUntil rng n len fuel (chosen.insert drawn) state
  else some (chosen, state)

/-- The sample comes with the set, which is borrowed only, and the source behind it. -/
def sampleKeys (set : RawKeySet Key) (n : ℕ) (rng : Rng State) (order : HashOrder ℕ) (fuel : ℕ) (state : State) :
    Option (List Key × RawKeySet Key × State) :=
  let len := set.keys.length
  if len ≤ n then some (set.keys, set, state)
  else if n = 0 then some ([], set, state)
  else do
    let (chosen, state) ← chooseUntil rng n len fuel [] state
    let sample ← (order.arrange chosen).mapM fun i => set.keys[i]?
    return (sample, set, state)

end RawKeySet

inductive KeyOperation (Key : Type) where
  | insert (key : Key)
  | remove (key : Key)

section Runs

variable {Key : Type} [DecidableEq Key]

def KeyOperation.apply (operation : KeyOperation Key) (set : RawKeySet Key) : Option (Bool × RawKeySet Key) :=
  match operation with
  | .insert key => some (set.insert key)
  | .remove key => set.remove key

/-- The set after a sequence of operations, where there is none after a panic. -/
def RawKeySet.run (set : RawKeySet Key) : List (KeyOperation Key) → Option (RawKeySet Key)
  | [] => some set
  | operation :: rest => do
      let (_, set) ← operation.apply set
      set.run rest

end Runs

end Spicebench.DataGeneration
