/-
This file embeds the parser and the formatter of durations. A text is a list of characters.
-/

import Spicebench.Library.Decimal
import Spicebench.Library.Traversal
import Mathlib.Data.List.DropRight
import Mathlib.Data.List.Infix

namespace Spicebench.DurationParse

open Library

def u32Max : Nat := 2 ^ 32 - 1

def u64Max : Nat := 2 ^ 64 - 1

def u128Max : Nat := 2 ^ 128 - 1

def i32Max : Nat := 2 ^ 31 - 1

/-- A duration has whole seconds in 64 bits and less than one second of nanoseconds. -/
@[ext]
structure Duration where
  secs : Nat
  nanos : Nat
  bounded : secs ≤ u64Max
  proper : nanos < 1000000000
  deriving DecidableEq

namespace Duration

def zero : Duration := ⟨0, 0, by decide, by decide⟩

theorem mod_proper (nanos : Nat) : nanos % 1000000000 < 1000000000 := Nat.mod_lt nanos (by decide)

/-- `Duration::MAX`. -/
def max : Duration := ⟨u64Max, 999999999, le_rfl, by decide⟩

def saturatingAdd (left right : Duration) : Duration :=
  let nanos := left.nanos + right.nanos
  let secs := left.secs + right.secs + nanos / 1000000000
  if bounded : secs ≤ u64Max then ⟨secs, nanos % 1000000000, bounded, Nat.mod_lt _ (by decide)⟩ else max

def isZero (duration : Duration) : Bool := duration.secs == 0 && duration.nanos == 0

end Duration

inductive ParseError where
  | invalidInput (message : String)
  | syntaxAt (position : Nat) (message : String)
  deriving DecidableEq, Repr

/-- The parser returns an error, or a slice falls inside a character and it panics. -/
inductive Failure where
  | error (error : ParseError)
  | panicked
  deriving DecidableEq, Repr

def invalidInput {Value : Type} (message : String) : Except Failure Value :=
  .error (.error (.invalidInput message))

/-- `char::is_whitespace`. -/
def isWhitespace (char : Char) : Bool :=
  let code := char.toNat
  (9 ≤ code && code ≤ 13) || code == 32 || code == 0x85 || code == 0xA0 || code == 0x1680 ||
    (0x2000 ≤ code && code ≤ 0x200A) || code == 0x2028 || code == 0x2029 || code == 0x202F ||
    code == 0x205F || code == 0x3000

def trimStart (text : List Char) : List Char := text.dropWhile isWhitespace

def trim (text : List Char) : List Char := text.dropWhile isWhitespace |>.rdropWhile isWhitespace

def eqIgnoreAsciiCase (text : List Char) (other : String) : Bool := text.map Char.toLower == other.toList

/-- `&input[..1.min(input.len())]` panics unless the first character is a single byte. -/
def firstByte (input : List Char) : Except Failure String :=
  match input with
  | [] => .ok ""
  | first :: _ => if first.utf8Size = 1 then .ok (String.singleton first) else .error .panicked

structure ParsedNumber where
  integer : Nat
  fracDigits : Nat
  fracValue : Nat
  deriving DecidableEq

def maxExponentMagnitude : Nat := 20

/-- A length is cut off at the largest 32-bit value. -/
def toU32 (length : Nat) : Nat := if length ≤ u32Max then length else u32Max

/-- A length is cast to 32 bits. -/
def asU32 (length : Nat) : Nat := length % 2 ^ 32

/-- The digits become an integer with `zeros` zeros behind them, which saturates. -/
def shiftLeft (digits : List Char) (zeros : Nat) : Except Failure ParsedNumber :=
  match parseUnsigned (u128Max + 1) digits with
  | none => invalidInput "Number too large"
  | some integer =>
      let shifted := integer * 10 ^ zeros
      if 10 ^ zeros ≤ u128Max ∧ shifted ≤ u128Max ∧ shifted ≤ u64Max then .ok ⟨shifted, 0, 0⟩
      else .ok ⟨u64Max, 0, 0⟩

/-- The last `count` of the digits become the fraction. -/
def shiftRight (digits : List Char) (count : Nat) : Except Failure ParsedNumber :=
  if digits.length ≤ count then
    let padded := List.replicate (count - digits.length) '0' ++ digits
    match parseUnsigned (u64Max + 1) padded with
    | none => invalidInput "Fractional part too large"
    | some fracValue => .ok ⟨0, asU32 padded.length, fracValue⟩
  else
    let intPart := digits.take (digits.length - count)
    let fracPart := digits.drop (digits.length - count)
    match parseUnsigned (u64Max + 1) intPart with
    | none => invalidInput "Number too large"
    | some integer =>
        if fracPart = [] then .ok ⟨integer, asU32 fracPart.length, 0⟩
        else
          match parseUnsigned (u64Max + 1) fracPart with
          | none => invalidInput "Fractional part too large"
          | some fracValue => .ok ⟨integer, asU32 fracPart.length, fracValue⟩

/-- The decimal point of the number moves to the right by `exponent`. -/
def shift (number : ParsedNumber) (exponent : Int) : Except Failure ParsedNumber :=
  let fraction := if 0 < number.fracDigits then
      let raw := Nat.toDigits 10 number.fracValue
      List.replicate (number.fracDigits - raw.length) '0' ++ raw
    else []
  let allDigits := Nat.toDigits 10 number.integer ++ fraction
  let newFracDigits : Int := number.fracDigits - exponent
  if newFracDigits ≤ 0 then shiftLeft allDigits newFracDigits.natAbs
  else shiftRight allDigits newFracDigits.toNat

def stripSign : List Char → Bool × List Char
  | '-' :: rest => (true, rest)
  | '+' :: rest => (false, rest)
  | input => (false, input)

/-- An exponent is read from the start of the text and applied to the number. -/
def applyExponent (number : ParsedNumber) (input : List Char) : Except Failure (ParsedNumber × List Char) :=
  let (negative, unsigned) := stripSign input
  let digits := unsigned.takeWhile Char.isDigit
  if digits = [] then invalidInput "Expected digits after exponent 'e'"
  else
    match parseUnsigned (i32Max + 1) digits with
    | none => invalidInput "Exponent too large"
    | some magnitude =>
        if maxExponentMagnitude < magnitude then
          invalidInput s!"Exponent magnitude {magnitude} exceeds maximum ({maxExponentMagnitude})"
        else do
          let number ← shift number (if negative then -magnitude else magnitude)
          return (number, unsigned.dropWhile Char.isDigit)

/-- The digits behind a decimal point are split off, if there is one. -/
def readFraction : List Char → List Char × List Char
  | '.' :: rest => (rest.takeWhile Char.isDigit, rest.dropWhile Char.isDigit)
  | input => ([], input)

/-- The exponent of a number is applied, if there is one. -/
def readExponent (number : ParsedNumber) : List Char → Except Failure (ParsedNumber × List Char)
  | 'e' :: rest => applyExponent number rest
  | 'E' :: rest => applyExponent number rest
  | input => .ok (number, input)

/-- A run of digits is read as a 64-bit number, and no digits as zero. -/
def readU64 (digits : List Char) (failure : Failure) : Except Failure Nat :=
  if digits = [] then .ok 0
  else
    match parseUnsigned (u64Max + 1) digits with
    | none => .error failure
    | some value => .ok value

/-- A number is read from the start of a text. -/
def parseNumber (input : List Char) : Except Failure (ParsedNumber × List Char) :=
  let intPart := input.takeWhile Char.isDigit
  let fracPart := (readFraction (input.dropWhile Char.isDigit)).1
  let fracDigits := toU32 fracPart.length
  if input = [] then invalidInput "Expected a number"
  else do
    let fracValue ← readU64 fracPart (.error (.syntaxAt (intPart.length + 1) "Invalid fractional part"))
    if intPart = [] ∧ fracDigits = 0 then
      let found ← firstByte input
      .error (.error (.syntaxAt 0 s!"Expected a number, found '{found}'"))
    else
      let integer ← readU64 intPart (.error (.invalidInput "Number too large"))
      readExponent ⟨integer, fracDigits, fracValue⟩ (readFraction (input.dropWhile Char.isDigit)).2

section Shrinking

variable {number parsed : ParsedNumber} {input rest : List Char}

theorem stripSign_suffix (input : List Char) : (stripSign input).2 <:+ input := by
  unfold stripSign
  split
  · exact List.suffix_cons _ _
  · exact List.suffix_cons _ _
  · exact List.suffix_rfl

theorem readExponent_suffix (read : readExponent number input = .ok (parsed, rest)) : rest <:+ input := by
  have applied : ∀ head tail, applyExponent number tail = .ok (parsed, rest) → rest <:+ head :: tail := by
    intro head tail applied
    unfold applyExponent invalidInput at applied
    dsimp only at applied
    split at applied
    · simp at applied
    split at applied
    · simp at applied
    split at applied
    · simp at applied
    obtain ⟨shifted, _, same⟩ := bind_eq_ok_iff.mp applied
    obtain ⟨_, rfl⟩ := Prod.mk.inj (Except.ok.inj same)
    exact ((List.dropWhile_suffix _).trans (stripSign_suffix tail)).trans (List.suffix_cons _ _)
  unfold readExponent at read
  split at read
  · exact applied _ _ read
  · exact applied _ _ read
  · obtain ⟨_, rfl⟩ := Prod.mk.inj (Except.ok.inj read)
    exact List.suffix_rfl

theorem length_digits (input : List Char) :
    (input.takeWhile Char.isDigit).length + (input.dropWhile Char.isDigit).length = input.length := by
  rw [← List.length_append, List.takeWhile_append_dropWhile]

theorem readFraction_length (input : List Char) :
    (readFraction input).1.length + (readFraction input).2.length ≤ input.length := by
  unfold readFraction
  split
  · rename_i rest
    have split := length_digits rest
    simp only [List.length_cons]
    omega
  · simp

/-- A number takes at least one character from the text. -/
theorem parseNumber_shorter (read : parseNumber input = .ok (parsed, rest)) : rest.length < input.length := by
  unfold parseNumber invalidInput at read
  dsimp only at read
  split at read
  · cases read
  obtain ⟨fracValue, _, read⟩ := bind_eq_ok_iff.mp read
  split at read
  · obtain ⟨found, _, read⟩ := bind_eq_ok_iff.mp read
    cases read
  rename_i missing
  obtain ⟨integer, _, read⟩ := bind_eq_ok_iff.mp read
  have last := (readExponent_suffix read).length_le
  have middle := readFraction_length (input.dropWhile Char.isDigit)
  have split := length_digits input
  -- Either the integer part or the fraction has a digit.
  have taken : input.takeWhile Char.isDigit ≠ [] ∨ 0 < (readFraction (input.dropWhile Char.isDigit)).1.length := by
    by_contra none
    apply missing
    simp only [not_or, ne_eq, not_not, not_lt, Nat.le_zero] at none
    simp [none.1, none.2, toU32]
  rcases taken with digits | digits
  · have := List.length_pos_iff.mpr digits
    omega
  · omega

end Shrinking

def nanosPerNanosecond : Nat := 1

def nanosPerMicrosecond : Nat := 1000

def nanosPerMillisecond : Nat := 1000000

def nanosPerSecond : Nat := 1000000000

def nanosPerMinute : Nat := 60 * nanosPerSecond

def nanosPerHour : Nat := 60 * nanosPerMinute

def nanosPerDay : Nat := 24 * nanosPerHour

def nanosPerWeek : Nat := 7 * nanosPerDay

/-- The units are tried in this order. -/
def units : List (List Char × Nat) :=
  [(['n', 's'], nanosPerNanosecond), (['u', 's'], nanosPerMicrosecond), (['M', 's'], nanosPerMicrosecond),
    (['m', 's'], nanosPerMillisecond), (['s'], nanosPerSecond), (['m'], nanosPerMinute), (['h'], nanosPerHour),
    (['d'], nanosPerDay), (['w'], nanosPerWeek)]

def stripUnit (input : List Char) : List (List Char × Nat) → Nat × List Char
  | [] => (nanosPerSecond, input)
  | (suffix, nanos) :: others =>
      if suffix <+: input then (nanos, input.drop suffix.length) else stripUnit input others

/-- A text without a known unit is left as it is, and seconds are assumed. -/
def parseTimeUnit (input : List Char) : Nat × List Char := stripUnit input units

/-- The number is multiplied without loss, except where the fraction is too fine to matter. -/
def multiplyToNanos (number : ParsedNumber) (unitNanos : Nat) : Nat :=
  let integerNanos := number.integer * unitNanos
  if 0 < number.fracDigits ∧ 0 < number.fracValue then
    if 10 ^ number.fracDigits ≤ u128Max then
      let numerator := number.fracValue * unitNanos
      integerNanos + if numerator ≤ u128Max then numerator / 10 ^ number.fracDigits else 0
    else integerNanos
  else integerNanos

def nanosToDuration (nanos : Nat) : Duration :=
  if bounded : nanos / 1000000000 ≤ u64Max then
    ⟨nanos / 1000000000, nanos % 1000000000, bounded, Nat.mod_lt _ (by decide)⟩
  else .max

theorem stripUnit_suffix (input : List Char) (others : List (List Char × Nat)) :
    (stripUnit input others).2 <:+ input := by
  induction others with
  | nil => exact List.suffix_rfl
  | cons unit others suffix =>
      unfold stripUnit
      split
      · exact List.drop_suffix _ _
      · exact suffix

/-- The segments of a text are added up; `parsedAny` tells whether there was one before. -/
def parseSegments (input : List Char) (total : Duration) (parsedAny : Bool) (remaining : List Char) :
    Except Failure Duration :=
  match _trimmed : trimStart remaining with
  | [] =>
      if parsedAny then .ok total
      else invalidInput s!"Invalid duration: '{String.ofList input}'"
  | first :: others =>
      match _read : parseNumber (first :: others) with
      | .error failure => .error failure
      | .ok (number, rest) =>
          let nanos := multiplyToNanos number (parseTimeUnit rest).1
          parseSegments input (total.saturatingAdd (nanosToDuration nanos)) true (parseTimeUnit rest).2
termination_by remaining.length
decreasing_by
  have skipped : (trimStart remaining).length ≤ remaining.length := (List.dropWhile_suffix _).length_le
  have shorter := parseNumber_shorter _read
  have unit : (parseTimeUnit rest).2.length ≤ rest.length := (stripUnit_suffix rest units).length_le
  rw [_trimmed] at skipped
  omega

def parseCompoundDuration (input : List Char) : Except Failure Duration :=
  parseSegments input .zero false input

def parseDuration (input : List Char) : Except Failure Duration :=
  match trim input with
  | [] => invalidInput "Empty input"
  | '-' :: _ => invalidInput "Negative durations are not supported"
  | trimmed =>
      let input := match trimmed with
        | '+' :: rest => rest
        | _ => trimmed
      if input = [] then invalidInput "Missing number after sign"
      else if eqIgnoreAsciiCase input "inf" || eqIgnoreAsciiCase input "infinity" then .ok .max
      else parseCompoundDuration input

/-- A component of zero is left out. -/
def component (value : Nat) (suffix : String) : List (List Char) :=
  if 0 < value then [Nat.toDigits 10 value ++ suffix.toList] else []

def formatDuration (duration : Duration) : List Char :=
  if duration.isZero then "0s".toList
  else
    let secs := duration.secs
    let nanos := duration.nanos
    let parts := component (secs / (7 * 24 * 3600)) "w" ++
      component (secs % (7 * 24 * 3600) / (24 * 3600)) "d" ++
      component (secs % (7 * 24 * 3600) % (24 * 3600) / 3600) "h" ++
      component (secs % (7 * 24 * 3600) % (24 * 3600) % 3600 / 60) "m" ++
      component (secs % (7 * 24 * 3600) % (24 * 3600) % 3600 % 60) "s" ++
      component (nanos / 1000000) "ms" ++
      component (nanos % 1000000 / 1000) "us" ++
      component (nanos % 1000000 % 1000) "ns"
    List.intercalate [' '] parts

end Spicebench.DurationParse
