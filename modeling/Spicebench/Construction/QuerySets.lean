/-
This file embeds how the queries of a parameterized test are dealt into sets, by way of a hash map of their names.
-/

import Spicebench.Library.HashGroups

namespace Spicebench.QuerySets

open Library

variable {Query : Type}

/-- The loop over the groups keeps the size of the first one, and fails at a group of another size. -/
def validateSizes : Option ℕ → List (String × List Query) → Except String (Option ℕ)
  | expectedSize, [] => return expectedSize
  | none, (_, queryGroup) :: rest => validateSizes (some queryGroup.length) rest
  | some expected, (name, queryGroup) :: rest =>
      if expected ≠ queryGroup.length then
        throw (s!"Uneven parameter groups detected: query '{name}' has " ++
          s!"{queryGroup.length} parameters, expected {expected}")
      else validateSizes (some expected) rest

/-- A query is cloned as a whole, and only its name is read. -/
def buildUniqueQuerySets (name : Query → String) (order : HashOrder String) (queries : List Query) :
    Except String (List (List Query)) := do
  let groups := HashGroups.iterate order (HashGroups.collect name queries)
  let expectedSize ← validateSizes none groups
  let numVariations := expectedSize.getD 0
  return (List.range numVariations).map fun paramIndex => HashGroups.column groups paramIndex

end Spicebench.QuerySets
