import Spicebench.Construction.DurationBytes
import Mathlib.Tactic.Ring

namespace Spicebench.DurationParse
open Library

section Offsets

variable {front middle rest : List Char}

theorem drop_encode (front rest : List Char) : (encode (front ++ rest)).drop (byteLength front) = encode rest := by
  rw [encode_append, ← length_encode, List.drop_left]

theorem skipDigits_append (front rest : List Char) :
    Bytes.skipDigits (encode (front ++ rest)) (byteLength front) =
      byteLength front + (rest.takeWhile Char.isDigit).length := by
  rw [Bytes.skipDigits, drop_encode, scan_digits]

theorem hasByte_append (front rest : List Char) {mark : Char} (ascii : mark.toNat < 128) :
    Bytes.hasByte (encode (front ++ rest)) (byteLength front) mark = decide (rest.head? = some mark) := by
  rw [Bytes.hasByte, drop_encode, decide_eq_decide]
  exact head?_encode rest ascii

theorem slice_append (front middle rest : List Char) :
    Bytes.slice (front ++ middle ++ rest) (byteLength front) (byteLength front + byteLength middle) = .ok middle := by
  rw [Bytes.slice, sliceBytes_append]

theorem sliceFrom_append (front rest : List Char) : Bytes.sliceFrom (front ++ rest) (byteLength front) = .ok rest := by
  rw [Bytes.sliceFrom, Bytes.slice, sliceBytes_rest]

theorem byteLength_takeWhile (text : List Char) :
    byteLength (text.takeWhile Char.isDigit) = (text.takeWhile Char.isDigit).length :=
  byteLength_digits fun _ member => List.mem_takeWhile_imp member

/-- The digits behind an offset are the slice up to where they end. -/
theorem slice_digits (front rest : List Char) :
    Bytes.slice (front ++ rest) (byteLength front) (byteLength front + (rest.takeWhile Char.isDigit).length) =
      .ok (rest.takeWhile Char.isDigit) := by
  have sliced := slice_append front (rest.takeWhile Char.isDigit) (rest.dropWhile Char.isDigit)
  rwa [List.append_assoc, List.takeWhile_append_dropWhile, byteLength_takeWhile] at sliced

theorem sliceFrom_digits (front rest : List Char) :
    Bytes.sliceFrom (front ++ rest) (byteLength front + (rest.takeWhile Char.isDigit).length) =
      .ok (rest.dropWhile Char.isDigit) := by
  have sliced := sliceFrom_append (front ++ rest.takeWhile Char.isDigit) (rest.dropWhile Char.isDigit)
  rwa [List.append_assoc, List.takeWhile_append_dropWhile, byteLength_append, byteLength_takeWhile] at sliced

end Offsets

section Refinement

/-- The sign of an exponent is the text in front of its digits. -/
theorem exists_sign (input : List Char) :
    ∃ sign, input = sign ++ (stripSign input).2 ∧
      ((sign = [] ∧ input.head? ≠ some '-' ∧ input.head? ≠ some '+' ∧ (stripSign input).1 = false) ∨
        (sign = ['-'] ∧ (stripSign input).1 = true) ∨ (sign = ['+'] ∧ (stripSign input).1 = false)) := by
  unfold stripSign
  split
  · exact ⟨['-'], rfl, .inr (.inl ⟨rfl, rfl⟩)⟩
  · exact ⟨['+'], rfl, .inr (.inr ⟨rfl, rfl⟩)⟩
  · rename_i minus plus
    refine ⟨[], rfl, .inl ⟨rfl, ?_, ?_, rfl⟩⟩
    · intro head
      obtain ⟨rest, rfl⟩ := List.head?_eq_some_iff.mp head
      exact minus rest rfl
    · intro head
      obtain ⟨rest, rfl⟩ := List.head?_eq_some_iff.mp head
      exact plus rest rfl

/-- Where the sign of an exponent ends, its digits start. -/
theorem exponent_start (input : List Char) {sign : List Char} (split : input = sign ++ (stripSign input).2)
    (shape : (sign = [] ∧ input.head? ≠ some '-' ∧ input.head? ≠ some '+' ∧ (stripSign input).1 = false) ∨
      (sign = ['-'] ∧ (stripSign input).1 = true) ∨ (sign = ['+'] ∧ (stripSign input).1 = false)) :
    (if Bytes.hasByte (encode input) 0 '-' then 1 else if Bytes.hasByte (encode input) 0 '+' then 1 else 0) =
      byteLength sign ∧ Bytes.hasByte (encode input) 0 '-' = (stripSign input).1 := by
  have minus := @hasByte_append [] input '-' (by decide)
  have plus := @hasByte_append [] input '+' (by decide)
  simp only [List.nil_append, byteLength_nil] at minus plus
  have single : byteLength ['-'] = 1 ∧ byteLength ['+'] = 1 := by decide
  rw [minus, plus]
  rcases shape with ⟨rfl, noMinus, noPlus, positive⟩ | ⟨rfl, negative⟩ | ⟨rfl, positive⟩
  · simp [noMinus, noPlus, positive]
  · have head : input.head? = some '-' := by rw [split]; rfl
    simp [head, negative, single]
  · have head : input.head? = some '+' := by rw [split]; rfl
    simp [head, positive, single]

theorem negate_natCast (value : Nat) : Bytes.negate value = .ok (-value) := by
  rw [Bytes.negate, if_neg (by omega)]

/-- The exponent is read alike at both levels. -/
theorem applyExponent_bytes (number : ParsedNumber) (input : List Char) :
    Bytes.applyExponent number input = applyExponent number input := by
  obtain ⟨sign, split, shape⟩ := exists_sign input
  obtain ⟨start, negative⟩ := exponent_start input split shape
  generalize unsigned : (stripSign input).2 = digits at split
  have stop := skipDigits_append sign digits
  have inside := slice_digits sign digits
  have behind := sliceFrom_digits sign digits
  rw [← split] at stop inside behind
  have nothing : byteLength sign + (digits.takeWhile Char.isDigit).length = byteLength sign ↔
      digits.takeWhile Char.isDigit = [] := by
    rw [Nat.add_eq_left, List.length_eq_zero_iff]
  unfold Bytes.applyExponent applyExponent
  dsimp only
  rw [start, negative, stop, inside, behind, unsigned]
  by_cases missing : digits.takeWhile Char.isDigit = []
  · rw [if_pos (nothing.mpr missing), if_pos missing]
  · rw [if_neg (fun same => missing (nothing.mp same)), if_neg missing]
    refine (pure_bind _ _).trans ?_
    cases parseUnsigned (i32Max + 1) (digits.takeWhile Char.isDigit) with
    | none => rfl
    | some magnitude =>
        dsimp only
        cases (stripSign input).1 with
        | false => rfl
        | true =>
            rw [negate_natCast, if_pos rfl, if_pos rfl]
            change (if maxExponentMagnitude < (-(magnitude : Int)).natAbs then _ else _) = _
            rw [Int.natAbs_neg, Int.natAbs_natCast]
            rfl

/-- The digits of a text are in front of the rest of it. -/
theorem digits_append (input : List Char) :
    input = input.takeWhile Char.isDigit ++ input.dropWhile Char.isDigit := List.takeWhile_append_dropWhile.symm

theorem toU32_pos {length : Nat} : 0 < toU32 length ↔ 0 < length := by
  unfold toU32
  split_ifs with small
  · rfl
  · have large : u32Max < length := by omega
    exact iff_of_true (by decide) (by omega)

/-- The fraction is read alike at both levels, and its offset is the one behind the fraction. -/
theorem parseFraction_bytes (front behind : List Char) :
    ∃ read, front ++ behind = read ++ (readFraction behind).2 ∧
      Bytes.parseFraction (front ++ behind) (encode (front ++ behind)) (byteLength front) =
        (readU64 (readFraction behind).1 (.error (.syntaxAt (byteLength front + 1) "Invalid fractional part"))).map
          fun value => (byteLength read, toU32 (readFraction behind).1.length, value) := by
  have point := @hasByte_append front behind '.' (by decide)
  by_cases head : behind.head? = some '.'
  · obtain ⟨rest, rfl⟩ := List.head?_eq_some_iff.mp head
    have single : byteLength ['.'] = 1 := by decide
    have pointed : byteLength (front ++ ['.']) = byteLength front + 1 := by rw [byteLength_append, single]
    have stop := skipDigits_append (front ++ ['.']) rest
    have inside := slice_digits (front ++ ['.']) rest
    rw [pointed, List.append_assoc, List.singleton_append] at stop inside
    refine ⟨front ++ ['.'] ++ rest.takeWhile Char.isDigit, ?_, ?_⟩
    · simp [readFraction]
    · have count : Bytes.sub (byteLength front + 1 + (rest.takeWhile Char.isDigit).length) (byteLength front + 1) =
          .ok (rest.takeWhile Char.isDigit).length := by
        rw [Bytes.sub, if_pos (by omega), Nat.add_sub_cancel_left]
      unfold Bytes.parseFraction
      rw [point, decide_eq_true head, if_pos rfl]
      dsimp only
      rw [stop, count]
      simp only [readFraction, readU64, byteLength_append, byteLength_takeWhile]
      change (if 0 < toU32 (rest.takeWhile Char.isDigit).length then _ else _) = _
      by_cases missing : rest.takeWhile Char.isDigit = []
      · rw [if_pos missing, missing, if_neg (by decide), single]
        rfl
      · rw [if_neg missing, if_pos (toU32_pos.mpr (List.length_pos_iff.mpr missing)), inside, single]
        refine (pure_bind _ _).trans ?_
        cases parseUnsigned (u64Max + 1) (rest.takeWhile Char.isDigit) with
        | none => rfl
        | some value => rfl
  · have whole : readFraction behind = ([], behind) := by
      unfold readFraction
      split
      · exact absurd rfl head
      · rfl
    refine ⟨front, by rw [whole], ?_⟩
    unfold Bytes.parseFraction
    rw [point, decide_eq_false head, if_neg Bool.false_ne_true, whole]
    rfl

/-- The first byte of a text is a slice only if it is a character. -/
theorem firstByte_bytes (input : List Char) :
    (Bytes.slice input 0 (min 1 (encode input).length)).map String.ofList = firstByte input := by
  cases input with
  | nil => rfl
  | cons letter rest =>
      have positive := letter.utf8Size_pos
      have one : min 1 (encode (letter :: rest)).length = 1 := by
        rw [length_encode, byteLength_cons]
        omega
      rw [one, Bytes.slice, sliceBytes, splitAtByte, firstByte]
      by_cases single : letter.utf8Size = 1
      · rw [if_pos (by omega), if_pos single, single]
        simp [splitAtByte]
        rfl
      · rw [if_neg (by omega), if_neg single]
        rfl

/-- The rest of a number is read alike at both levels. -/
theorem readExponent_bytes (number : ParsedNumber) (remaining : List Char) :
    (if remaining.head? = some 'e' ∨ remaining.head? = some 'E' then do
        let exponent ← Bytes.sliceFrom remaining 1
        Bytes.applyExponent number exponent
      else return (number, remaining)) = readExponent number remaining := by
  by_cases marked : remaining.head? = some 'e' ∨ remaining.head? = some 'E'
  · rw [if_pos marked]
    rcases marked with head | head
    · obtain ⟨rest, rfl⟩ := List.head?_eq_some_iff.mp head
      have behind : Bytes.sliceFrom ('e' :: rest) 1 = .ok rest := sliceFrom_append ['e'] rest
      rw [behind]
      exact applyExponent_bytes number rest
    · obtain ⟨rest, rfl⟩ := List.head?_eq_some_iff.mp head
      have behind : Bytes.sliceFrom ('E' :: rest) 1 = .ok rest := sliceFrom_append ['E'] rest
      rw [behind]
      exact applyExponent_bytes number rest
  · rw [if_neg marked]
    unfold readExponent
    split
    · exact absurd (.inl rfl) marked
    · exact absurd (.inr rfl) marked
    · rfl

/-- A number is read alike at both levels. -/
theorem parseNumber_bytes (input : List Char) : Bytes.parseNumber input = parseNumber input := by
  by_cases blank : input = []
  · subst blank
    rfl
  have length : byteLength (input.takeWhile Char.isDigit) = (input.takeWhile Char.isDigit).length :=
    byteLength_takeWhile input
  have full : (encode input).isEmpty = false := by
    obtain ⟨letter, rest, rfl⟩ := List.exists_cons_of_ne_nil blank
    have positive := letter.utf8Size_pos
    rw [List.isEmpty_eq_false_iff, ← List.length_pos_iff, length_encode, byteLength_cons]
    omega
  have stop : Bytes.skipDigits (encode input) 0 = (input.takeWhile Char.isDigit).length := by
    have skipped := skipDigits_append [] input
    simpa using skipped
  have inside : Bytes.slice input 0 (input.takeWhile Char.isDigit).length = .ok (input.takeWhile Char.isDigit) := by
    have sliced := slice_digits [] input
    simpa using sliced
  obtain ⟨read, split, fraction⟩ := parseFraction_bytes (input.takeWhile Char.isDigit) (input.dropWhile Char.isDigit)
  rw [← digits_append, length] at fraction
  rw [← digits_append] at split
  have behind := sliceFrom_append read (readFraction (input.dropWhile Char.isDigit)).2
  rw [← split] at behind
  unfold Bytes.parseNumber parseNumber
  rw [if_neg blank]
  dsimp only
  rw [full, if_neg Bool.false_ne_true, stop, fraction]
  generalize readU64 (readFraction (input.dropWhile Char.isDigit)).1 _ = value
  cases value with
  | error failure => rfl
  | ok fracValue =>
      change (if (input.takeWhile Char.isDigit).length = 0 ∧ toU32 _ = 0 then _ else _) =
        (if input.takeWhile Char.isDigit = [] ∧ toU32 _ = 0 then _ else _)
      by_cases missing : input.takeWhile Char.isDigit = [] ∧
          toU32 (readFraction (input.dropWhile Char.isDigit)).1.length = 0
      · have first := firstByte_bytes input
        rw [if_pos missing, if_pos ⟨List.length_eq_zero_iff.mpr missing.1, missing.2⟩, ← first]
        generalize Bytes.slice input 0 (min 1 (encode input).length) = found
        cases found with
        | error failure => rfl
        | ok found => rfl
      · rw [if_neg missing, if_neg fun same => missing ⟨List.length_eq_zero_iff.mp same.1, same.2⟩]
        by_cases digits : input.takeWhile Char.isDigit = []
        · rw [if_neg (by rw [digits]; decide), readU64, if_pos digits, behind]
          exact readExponent_bytes _ _
        · rw [if_pos (List.length_pos_iff.mpr digits), readU64, if_neg digits, inside, behind]
          refine (pure_bind _ _).trans ?_
          cases parseUnsigned (u64Max + 1) (input.takeWhile Char.isDigit) with
          | none => rfl
          | some integer => exact readExponent_bytes _ _

end Refinement

end Spicebench.DurationParse
