/-
This file embeds the parser of durations once more, at the level of bytes: its offsets count bytes, a slice panics unless
both ends are between characters, and arithmetic that is not checked panics when it overflows.
-/

import Spicebench.Construction.Duration
import Spicebench.Library.Utf8

namespace Spicebench.DurationParse.Bytes

open Library

/-- `&input[start..stop]`. -/
def slice (input : List Char) (start stop : Nat) : Except Failure (List Char) :=
  match sliceBytes input start stop with
  | some inside => .ok inside
  | none => .error .panicked

/-- `&input[start..]`. -/
def sliceFrom (input : List Char) (start : Nat) : Except Failure (List Char) :=
  slice input start (byteLength input)

/-- The subtraction of a `usize`. -/
def sub (one other : Nat) : Except Failure Nat :=
  if other ≤ one then .ok (one - other) else .error .panicked

/-- The operators of a `u128`. -/
def checked (value : Nat) : Except Failure Nat := if value ≤ u128Max then .ok value else .error .panicked

/-- The negation of an `i32`. -/
def negate (value : Int) : Except Failure Int := if value = -2 ^ 31 then .error .panicked else .ok (-value)

/-- The offset behind the digits from an offset on. -/
def skipDigits (bytes : List UInt8) (pos : Nat) : Nat := scan isAsciiDigit (bytes.drop pos) pos

/-- The byte at an offset, which is looked up only inside of the text. -/
def hasByte (bytes : List UInt8) (pos : Nat) (mark : Char) : Bool :=
  (bytes.drop pos).head? = some (UInt8.ofNat mark.toNat)

def applyExponent (number : ParsedNumber) (input : List Char) : Except Failure (ParsedNumber × List Char) :=
  let bytes := encode input
  let expNegative := hasByte bytes 0 '-'
  let expStart := if hasByte bytes 0 '-' then 1 else if hasByte bytes 0 '+' then 1 else 0
  let pos := skipDigits bytes expStart
  if pos = expStart then invalidInput "Expected digits after exponent 'e'"
  else do
    let digits ← slice input expStart pos
    match parseUnsigned (i32Max + 1) digits with
    | none => invalidInput "Exponent too large"
    | some expVal =>
        let exp : Int ← if expNegative then negate expVal else .ok expVal
        if maxExponentMagnitude < exp.natAbs then
          invalidInput s!"Exponent magnitude {exp.natAbs} exceeds maximum ({maxExponentMagnitude})"
        else
          let shifted ← shift number exp
          let rest ← sliceFrom input pos
          return (shifted, rest)

/-- The fraction of a number whose integer part ends at an offset: the offset behind it, its digits and its value. -/
def parseFraction (input : List Char) (bytes : List UInt8) (pos : Nat) : Except Failure (Nat × Nat × Nat) :=
  if hasByte bytes pos '.' then do
    let fracStart := pos + 1
    let pos := skipDigits bytes fracStart
    let count ← sub pos fracStart
    if 0 < toU32 count then
      let digits ← slice input fracStart pos
      match parseUnsigned (u64Max + 1) digits with
      | none => .error (.error (.syntaxAt fracStart "Invalid fractional part"))
      | some fracValue => return (pos, toU32 count, fracValue)
    else return (pos, toU32 count, 0)
  else .ok (pos, 0, 0)

def parseNumber (input : List Char) : Except Failure (ParsedNumber × List Char) :=
  let bytes := encode input
  if bytes.isEmpty then invalidInput "Expected a number"
  else do
    let intEnd := skipDigits bytes 0
    let (pos, fracDigits, fracValue) ← parseFraction input bytes intEnd
    if intEnd = 0 ∧ fracDigits = 0 then
      let found ← slice input 0 (min 1 bytes.length)
      .error (.error (.syntaxAt 0 s!"Expected a number, found '{String.ofList found}'"))
    else
      let integer ← if 0 < intEnd then do
          let digits ← slice input 0 intEnd
          match parseUnsigned (u64Max + 1) digits with
          | none => invalidInput "Number too large"
          | some integer => .ok integer
        else .ok 0
      let remaining ← sliceFrom input pos
      if remaining.head? = some 'e' ∨ remaining.head? = some 'E' then
        let exponent ← sliceFrom remaining 1
        applyExponent ⟨integer, fracDigits, fracValue⟩ exponent
      else return (⟨integer, fracDigits, fracValue⟩, remaining)

def multiplyToNanos (number : ParsedNumber) (unitNanos : Nat) : Except Failure Nat := do
  let integerNanos ← checked (number.integer * unitNanos)
  if 0 < number.fracDigits ∧ 0 < number.fracValue then
    if 10 ^ number.fracDigits ≤ u128Max then
      let numerator := number.fracValue * unitNanos
      checked (integerNanos + if numerator ≤ u128Max then numerator / 10 ^ number.fracDigits else 0)
    else return integerNanos
  else checked (integerNanos + 0)

/-- The loop over the segments takes at most as many turns as there are characters, and one more to end. -/
def parseSegments (input : List Char) : (turns : Nat) → Duration → Bool → List Char → Except Failure Duration
  | 0, _, _, _ => .error .panicked
  | turns + 1, total, parsedAny, remaining =>
      if (trimStart remaining).isEmpty then
        if parsedAny then .ok total
        else invalidInput s!"Invalid duration: '{String.ofList input}'"
      else do
        let (number, rest) ← parseNumber (trimStart remaining)
        let nanos ← multiplyToNanos number (parseTimeUnit rest).1
        parseSegments input turns (total.saturatingAdd (nanosToDuration nanos)) true (parseTimeUnit rest).2

def parseCompoundDuration (input : List Char) : Except Failure Duration :=
  parseSegments input (input.length + 1) .zero false input

def parseDuration (input : List Char) : Except Failure Duration :=
  match trim input with
  | [] => invalidInput "Empty input"
  | '-' :: _ => invalidInput "Negative durations are not supported"
  | trimmed =>
      let input := match trimmed with
        | '+' :: rest => rest
        | _ => trimmed
      if input = [] then invalidInput "Missing number after sign"
      else if eqIgnoreAsciiCase input "inf" || eqIgnoreAsciiCase input "infinity" then .ok .max
      else parseCompoundDuration input

end Spicebench.DurationParse.Bytes
