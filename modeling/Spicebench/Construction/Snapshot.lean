/-
This file embeds the sorting of union children in explain plans. A text is a list of characters.
-/

import Spicebench.Construction.Duration
import Mathlib.Data.List.Sort
import Mathlib.Data.List.Lex
import Mathlib.Data.Char

namespace Spicebench.Snapshot

open DurationParse (isWhitespace)

abbrev Line := List Char

def stripCarriageReturn (line : Line) : Line := if line.getLast? = some '\r' then line.dropLast else line

/-- The text behind the last line feed is a line of its own unless it is empty. -/
def linesOf : List Line → List Line
  | [] => []
  | [last] => if last = [] then [] else [last]
  | piece :: next :: rest => stripCarriageReturn piece :: linesOf (next :: rest)

/-- `str::lines`. -/
def lines (text : List Char) : List Line := linesOf (text.splitOn '\n')

def join (lines : List Line) : List Char := ['\n'].intercalate lines

/-- `str::contains` with the name of the union node. -/
def containsUnion (text : List Char) : Prop := "PartitionedUnionExec".toList <:+: text

instance (text : List Char) : Decidable (containsUnion text) := by
  unfold containsUnion
  infer_instance

def isEmptyContentLine (line : Line) : Bool := line.all fun char => isWhitespace char || char == '|'

def getIndentLevel (line : Line) : Nat := (line.takeWhile fun char => isWhitespace char || char == '|').length

/-- The children of a union go on until an empty line or a line that is not deeper than the union. -/
def isChildLine (parentIndent : Nat) (line : Line) : Bool :=
  !isEmptyContentLine line && parentIndent < getIndentLevel line

/-- A line at the indentation of the first child starts a new subtree. -/
def splitSubtrees (firstChildIndent : Nat) (currentSubtree : List Line) : List Line → List (List Line)
  | [] => if currentSubtree = [] then [] else [currentSubtree]
  | line :: rest =>
      if getIndentLevel line = firstChildIndent ∧ currentSubtree ≠ [] then
        currentSubtree :: splitSubtrees firstChildIndent [line] rest
      else splitSubtrees firstChildIndent (currentSubtree ++ [line]) rest

section Split

variable (indent : Nat) (current : List Line)

theorem splitSubtrees_nil : splitSubtrees indent current [] = if current = [] then [] else [current] := rfl

theorem splitSubtrees_cons (line : Line) (rest : List Line) : splitSubtrees indent current (line :: rest) =
    if getIndentLevel line = indent ∧ current ≠ [] then current :: splitSubtrees indent [line] rest
    else splitSubtrees indent (current ++ [line]) rest := rfl

end Split

def sortSubtrees (subtrees : List (List Line)) : List (List Line) :=
  subtrees.insertionSort fun first second => join first ≤ join second

/-- The loop over the lines from the current one on. -/
def sortLines : List Line → List Line
  | [] => []
  | [line] => [line]
  | line :: firstChild :: later =>
      if containsUnion line then
        if getIndentLevel firstChild ≤ getIndentLevel line then line :: sortLines (firstChild :: later)
        else
          let children := (firstChild :: later).takeWhile (isChildLine (getIndentLevel line))
          line :: ((sortSubtrees (splitSubtrees (getIndentLevel firstChild) [] children)).flatten ++
            sortLines ((firstChild :: later).dropWhile (isChildLine (getIndentLevel line))))
      else line :: sortLines (firstChild :: later)
  termination_by lines => lines.length
  decreasing_by
    · simp
    · exact Nat.lt_succ_of_le (List.dropWhile_suffix _).length_le
    · simp

/-- A text without a union is returned as it is. -/
def sortPartitionedUnionChildren (explainPlan : List Char) : List Char :=
  if containsUnion explainPlan then join (sortLines (lines explainPlan)) else explainPlan

example : sortPartitionedUnionChildren "PartitionedUnionExec\n  c\n  a\n b\nd\n".toList =
    "PartitionedUnionExec\n  a\n b\n  c\nd".toList := by decide +kernel

end Spicebench.Snapshot
