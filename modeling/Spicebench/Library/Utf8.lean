/-
This file takes texts apart at the offsets of their UTF-8 bytes.
-/

import Spicebench.Library.Decimal
import Mathlib.Data.List.TakeWhile
import Mathlib.Tactic.Linarith

namespace Spicebench.Library

def encode (text : List Char) : List UInt8 := text.flatMap String.utf8EncodeChar

def byteLength (text : List Char) : Nat := (text.map Char.utf8Size).sum

/-- A text is cut at an offset; there is no result inside of a character or behind the end. -/
def splitAtByte : List Char → Nat → Option (List Char × List Char)
  | text, 0 => some ([], text)
  | [], _ + 1 => none
  | letter :: rest, offset + 1 =>
      if letter.utf8Size ≤ offset + 1 then
        (splitAtByte rest (offset + 1 - letter.utf8Size)).map fun parts => (letter :: parts.1, parts.2)
      else none

/-- The characters between two offsets. -/
def sliceBytes (text : List Char) (start stop : Nat) : Option (List Char) := do
  let (front, _) ← splitAtByte text stop
  let (_, inside) ← splitAtByte front start
  return inside

/-- The offset at which the bytes stop to be accepted, counted from the offset of the first of them. -/
def scan (accepts : UInt8 → Bool) : List UInt8 → Nat → Nat
  | [], offset => offset
  | byte :: bytes, offset => if accepts byte then scan accepts bytes (offset + 1) else offset

variable {text front middle rest : List Char}

@[simp]
theorem encode_append : encode (front ++ rest) = encode front ++ encode rest := by
  simp [encode]

@[simp]
theorem byteLength_nil : byteLength [] = 0 := rfl

@[simp]
theorem byteLength_cons (letter : Char) : byteLength (letter :: text) = letter.utf8Size + byteLength text := by
  simp [byteLength]

@[simp]
theorem byteLength_append : byteLength (front ++ rest) = byteLength front + byteLength rest := by
  simp [byteLength]

@[simp]
theorem length_encode (text : List Char) : (encode text).length = byteLength text := by
  induction text with
  | nil => rfl
  | cons letter text same =>
      rw [encode, List.flatMap_cons, List.length_append, String.length_utf8EncodeChar, byteLength_cons]
      exact congrArg _ same

theorem splitAtByte_append : splitAtByte (front ++ rest) (byteLength front) = some (front, rest) := by
  induction front with
  | nil => simp [splitAtByte]
  | cons letter front split =>
      have positive := letter.utf8Size_pos
      obtain ⟨offset, same⟩ := Nat.exists_eq_succ_of_ne_zero (show letter.utf8Size + byteLength front ≠ 0 by omega)
      have fits : letter.utf8Size ≤ offset + 1 := by omega
      have left : offset + 1 - letter.utf8Size = byteLength front := by omega
      rw [byteLength_cons, same, List.cons_append, splitAtByte, if_pos fits, left, split]
      rfl

/-- A part of a text is its slice between the lengths in front of and behind it. -/
theorem sliceBytes_append :
    sliceBytes (front ++ middle ++ rest) (byteLength front) (byteLength front + byteLength middle) = some middle := by
  have stop := @splitAtByte_append (front ++ middle) rest
  rw [byteLength_append] at stop
  unfold sliceBytes
  rw [stop]
  simp [splitAtByte_append]

theorem sliceBytes_rest :
    sliceBytes (front ++ rest) (byteLength front) (byteLength (front ++ rest)) = some rest := by
  have sliced := @sliceBytes_append front rest []
  simpa using sliced

/-- An ASCII character is one byte, and any other one starts with a byte above. -/
theorem utf8EncodeChar_cases (letter : Char) :
    (letter.toNat < 128 ∧ letter.utf8Size = 1 ∧ String.utf8EncodeChar letter = [UInt8.ofNat letter.toNat]) ∨
    (128 ≤ letter.toNat ∧ 1 < letter.utf8Size ∧
      ∃ byte bytes, String.utf8EncodeChar letter = byte :: bytes ∧ 128 ≤ byte.toNat) := by
  have size := String.length_utf8EncodeChar letter
  have leading (value : Nat) (large : 128 ≤ value) (small : value < 256) : 128 ≤ (UInt8.ofNat value).toNat := by
    rw [UInt8.toNat_ofNat', Nat.mod_eq_of_lt small]
    exact large
  have code : letter.val.toNat = letter.toNat := rfl
  unfold String.utf8EncodeChar at size ⊢
  rw [code] at size ⊢
  dsimp only at size ⊢
  split_ifs at size ⊢ with one two three
  · exact .inl ⟨by omega, by simpa using size.symm, rfl⟩
  · refine .inr ⟨by omega, ?_, _, _, rfl, leading _ (by omega) (by omega)⟩
    rw [← size]
    simp
  · refine .inr ⟨by omega, ?_, _, _, rfl, leading _ (by omega) (by omega)⟩
    rw [← size]
    simp
  · refine .inr ⟨by omega, ?_, _, _, rfl, leading _ (by omega) (by omega)⟩
    rw [← size]
    simp

/-- `u8::is_ascii_digit`. -/
def isAsciiDigit (byte : UInt8) : Bool := 48 ≤ byte.toNat && byte.toNat ≤ 57

/-- The digits at the start of a text are as many bytes as characters. -/
theorem scan_digits (text : List Char) (offset : Nat) :
    scan isAsciiDigit (encode text) offset = offset + (text.takeWhile Char.isDigit).length := by
  induction text generalizing offset with
  | nil => rfl
  | cons letter text scanned =>
      rw [encode, List.flatMap_cons]
      rcases utf8EncodeChar_cases letter with ⟨small, _, bytes⟩ | ⟨large, _, byte, bytes, encoded, high⟩
      · have value : (UInt8.ofNat letter.toNat).toNat = letter.toNat := by
          rw [UInt8.toNat_ofNat', Nat.mod_eq_of_lt (by omega)]
        have same : isAsciiDigit (UInt8.ofNat letter.toNat) = letter.isDigit := by
          rw [Bool.eq_iff_iff, isDigit_iff_range, isAsciiDigit, value]
          simp
        rw [bytes, List.singleton_append, scan, same]
        cases digit : letter.isDigit with
        | true =>
            have later := scanned (offset + 1)
            rw [encode] at later
            simp [later, digit]
            omega
        | false => simp [digit]
      · have other : isAsciiDigit byte = false := by
          simp only [isAsciiDigit, Bool.and_eq_false_iff, decide_eq_false_iff_not]
          omega
        have none : letter.isDigit = false := by
          rw [Bool.eq_false_iff, ne_eq, isDigit_iff_range]
          omega
        rw [encoded, List.cons_append, scan, other]
        simp [none]

theorem byteLength_digits {digits : List Char} (all : ∀ digit ∈ digits, digit.isDigit = true) :
    byteLength digits = digits.length := by
  induction digits with
  | nil => rfl
  | cons digit digits same =>
      have range := isDigit_iff_range.mp (all digit List.mem_cons_self)
      have single : digit.utf8Size = 1 := by
        rcases utf8EncodeChar_cases digit with ⟨_, size, _⟩ | ⟨large, _⟩
        · exact size
        · omega
      rw [byteLength_cons, single, same fun other member => all other (List.mem_cons_of_mem _ member),
        List.length_cons, Nat.add_comm]

/-- The byte at the start of a text is an ASCII character exactly when the text starts with that character. -/
theorem head?_encode (text : List Char) {mark : Char} (ascii : mark.toNat < 128) :
    (encode text).head? = some (UInt8.ofNat mark.toNat) ↔ text.head? = some mark := by
  have value : (UInt8.ofNat mark.toNat).toNat = mark.toNat := by
    rw [UInt8.toNat_ofNat', Nat.mod_eq_of_lt (by omega)]
  cases text with
  | nil => simp [encode]
  | cons letter text =>
      rw [encode, List.flatMap_cons]
      rcases utf8EncodeChar_cases letter with ⟨small, _, bytes⟩ | ⟨large, _, byte, bytes, encoded, high⟩
      · have other : (UInt8.ofNat letter.toNat).toNat = letter.toNat := by
          rw [UInt8.toNat_ofNat', Nat.mod_eq_of_lt (by omega)]
        rw [bytes, List.singleton_append, List.head?_cons, List.head?_cons, Option.some.injEq, Option.some.injEq,
          ← UInt8.toNat_inj, value, other]
        exact ⟨fun same => Char.toNat_inj.mp same, fun same => congrArg _ same⟩
      · rw [encoded, List.cons_append, List.head?_cons, List.head?_cons, Option.some.injEq, Option.some.injEq,
          ← UInt8.toNat_inj, value]
        refine iff_of_false (by omega) ?_
        rintro rfl
        omega

end Spicebench.Library
