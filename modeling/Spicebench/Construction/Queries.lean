/-
This file embeds the parameters of queries and their inlining into the text of a query. A text is a list of characters.
-/

import Spicebench.Library.FloatText
import Spicebench.Library.Lexing

namespace Spicebench.Queries

open Library

inductive ParameterValue where
  | string (value : List Char)
  | number (value : Int)
  | float (value : Double)

def apostrophe : Char := Char.ofNat 39

/-- This is the text of an `i64`. -/
def integerText (value : Int) : List Char :=
  (if value < 0 then ['-'] else []) ++ Nat.toDigits 10 value.natAbs

def ParameterValue.toSqlLiteral : ParameterValue → List Char
  | .string value =>
      apostrophe :: (value.flatMap (fun letter => if letter = apostrophe then [letter, letter] else [letter]) ++
        [apostrophe])
  | .number value => integerText value
  | .float value => value.display

/-- `str::replacen` with the count one: the first occurrence of a character is replaced. -/
def replaceFirst (mark : Char) (literal : List Char) : List Char → List Char
  | [] => []
  | letter :: rest => if letter = mark then literal ++ rest else letter :: replaceFirst mark literal rest

/-- `str::replace`: the occurrences of a text are replaced from left to right; `skip` letters of the last one are left. -/
def replaceFrom (placeholder literal : List Char) : (skip : Nat) → List Char → List Char
  | _, [] => []
  | skip + 1, _ :: rest => replaceFrom placeholder literal skip rest
  | 0, letter :: rest =>
      if placeholder <+: letter :: rest then literal ++ replaceFrom placeholder literal (placeholder.length - 1) rest
      else letter :: replaceFrom placeholder literal 0 rest

def replaceAll (placeholder literal text : List Char) : List Char := replaceFrom placeholder literal 0 text

/-- The text of a placeholder, which is counted from one. -/
def placeholderText (position : Nat) : List Char := '$' :: Nat.toDigits 10 position

structure Query where
  sql : List Char
  parameters : Option (List ParameterValue)

/-- Every parameter is replaced in the text that the parameters before it have left. -/
def Query.toSqlWithInlinedParams (query : Query) : List Char :=
  match query.parameters with
  | none => query.sql
  | some [] => query.sql
  | some params =>
      if '?' ∈ query.sql then
        params.foldl (fun sql param => replaceFirst '?' param.toSqlLiteral sql) query.sql
      else
        params.zipIdx.foldl (fun sql entry => replaceAll (placeholderText (entry.2 + 1)) entry.1.toSqlLiteral sql)
          query.sql

end Spicebench.Queries
