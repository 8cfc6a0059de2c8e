import Mathlib.Data.List.Basic

namespace Spicebench.Library

variable {Item : Type}

/-- Lists that stand one after the other begin and end at these offsets. -/
def offsets (lists : List (List Item)) : List Nat :=
  (List.range (lists.length + 1)).map fun count => (lists.take count).flatten.length

/-- This list stands between one offset and the next one. -/
def listAt (offsets : List Nat) (values : List Item) (index : Nat) : Option (List Item) := do
  let start ← offsets[index]?
  let stop ← offsets[index + 1]?
  return (values.drop start).take (stop - start)

@[simp] theorem offsets_nil : offsets ([] : List (List Item)) = [0] := rfl

end Spicebench.Library
