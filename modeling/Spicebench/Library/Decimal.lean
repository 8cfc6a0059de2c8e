/-
This file reads the decimal texts of natural numbers back.
-/

import Mathlib.Data.List.Induction
import Mathlib.Data.List.TakeWhile
import Mathlib.Tactic.IntervalCases

namespace Spicebench.Library

/-- An unsigned number of a fixed width is read from decimal digits, after at most one plus sign. -/
def parseUnsigned (bound : Nat) (text : List Char) : Option Nat :=
  let digits := match text with
    | '+' :: rest => rest
    | _ => text
  if digits ≠ [] ∧ digits.all Char.isDigit then
    let value := Nat.ofDigitChars 10 digits 0
    if value < bound then some value else none
  else none

variable {bound number : Nat} {digit : Char} {rest : List Char}

theorem isDigit_of_mem_decimal (member : digit ∈ Nat.toDigits 10 number) : digit.isDigit = true :=
  Nat.isDigit_of_mem_toDigits (by decide) (by decide) member

theorem isDigit_iff_range {letter : Char} : letter.isDigit = true ↔ 48 ≤ letter.toNat ∧ letter.toNat ≤ 57 := by
  simp [Char.isDigit, UInt32.le_iff_toNat_le]

theorem toLower_digit (isDigit : digit.isDigit = true) : digit.toLower = digit := by
  rw [isDigit_iff_range] at isDigit
  obtain ⟨low, high⟩ := isDigit
  rw [← Char.ofNat_toNat digit]
  interval_cases digit.toNat <;> decide

/-- The decimal text of a number starts with a digit. -/
theorem exists_decimal_cons (number : Nat) :
    ∃ digit digits, Nat.toDigits 10 number = digit :: digits ∧ digit.isDigit = true := by
  match listed : Nat.toDigits 10 number with
  | [] => exact absurd listed Nat.toDigits_ne_nil
  | digit :: digits => exact ⟨digit, digits, rfl, isDigit_of_mem_decimal (by rw [listed]; exact List.mem_cons_self)⟩

/-- A decimal text is read as the number that it was written from. -/
theorem parseUnsigned_decimal (fits : number < bound) :
    parseUnsigned bound (Nat.toDigits 10 number) = some number := by
  obtain ⟨digit, digits, listed, isDigit⟩ := exists_decimal_cons number
  have unsigned : ∀ tail, Nat.toDigits 10 number ≠ '+' :: tail := by
    intro tail signed
    obtain ⟨rfl, _⟩ := List.cons.inj (listed.symm.trans signed)
    simp at isDigit
  have all : (Nat.toDigits 10 number).all Char.isDigit = true :=
    List.all_eq_true.mpr fun _ => isDigit_of_mem_decimal
  unfold parseUnsigned
  split
  · rename_i tail same
    exact absurd same (unsigned tail)
  · simp [all, Nat.toDigits_ne_nil, Nat.ofDigitChars_ten_toDigits, fits]

section Digits

variable {text : List Char}

/-- The digits before another character are all that is taken. -/
theorem takeWhile_digits (digits : ∀ digit ∈ text, digit.isDigit = true)
    (stops : ∀ next ∈ rest.head?, next.isDigit = false) : (text ++ rest).takeWhile Char.isDigit = text := by
  rw [List.takeWhile_append_of_pos digits]
  cases rest with
  | nil => simp
  | cons next tail => simp [stops next (by simp)]

/-- The text behind the digits is all that is left. -/
theorem dropWhile_digits (digits : ∀ digit ∈ text, digit.isDigit = true)
    (stops : ∀ next ∈ rest.head?, next.isDigit = false) : (text ++ rest).dropWhile Char.isDigit = rest := by
  rw [List.dropWhile_append_of_pos digits]
  cases rest with
  | nil => rfl
  | cons next tail => simp [stops next (by simp)]

/-- A run of digits is read by its value, if that fits. -/
theorem parseUnsigned_digits (nonempty : text ≠ []) (digits : ∀ digit ∈ text, digit.isDigit = true) :
    parseUnsigned bound text =
      if Nat.ofDigitChars 10 text 0 < bound then some (Nat.ofDigitChars 10 text 0) else none := by
  have unsigned : ∀ tail, text ≠ '+' :: tail := by
    rintro tail rfl
    have plus := digits '+' List.mem_cons_self
    simp at plus
  have all : text.all Char.isDigit = true := List.all_eq_true.mpr digits
  unfold parseUnsigned
  split
  · rename_i tail
    exact absurd rfl (unsigned tail)
  · simp [all, nonempty]

/-- The digits in front count by the power of ten behind them. -/
theorem ofDigitChars_split (front behind : List Char) :
    Nat.ofDigitChars 10 (front ++ behind) 0 =
      Nat.ofDigitChars 10 front 0 * 10 ^ behind.length + Nat.ofDigitChars 10 behind 0 := by
  rw [Nat.ofDigitChars_append, Nat.ofDigitChars_eq_ofDigitChars_zero, Nat.mul_comm]

theorem ofDigitChars_lt (digits : ∀ digit ∈ text, digit.isDigit = true) :
    Nat.ofDigitChars 10 text 0 < 10 ^ text.length := by
  induction text using List.reverseRecOn with
  | nil => simp
  | append_singleton front last small =>
      have bound := small fun digit member => digits digit (List.mem_append_left _ member)
      obtain ⟨low, high⟩ := isDigit_iff_range.mp (digits last (by simp))
      rw [ofDigitChars_split, Nat.ofDigitChars_cons, Nat.ofDigitChars_nil, List.length_append, List.length_singleton,
        Nat.pow_one, Nat.pow_succ]
      have zero : '0'.toNat = 48 := rfl
      omega

end Digits

theorem takeWhile_decimal (stops : ∀ next ∈ rest.head?, next.isDigit = false) :
    (Nat.toDigits 10 number ++ rest).takeWhile Char.isDigit = Nat.toDigits 10 number :=
  takeWhile_digits (fun _ => isDigit_of_mem_decimal) stops

theorem dropWhile_decimal (stops : ∀ next ∈ rest.head?, next.isDigit = false) :
    (Nat.toDigits 10 number ++ rest).dropWhile Char.isDigit = rest :=
  dropWhile_digits (fun _ => isDigit_of_mem_decimal) stops

/-- A number is written with zeros in front, up to a width. -/
def padded (width number : Nat) : List Char := (Nat.toDigits 10 number).leftpad width '0'

@[simp]
theorem padded_zero (number : Nat) : padded 0 number = Nat.toDigits 10 number := by
  simp [padded, List.leftpad]

@[simp]
theorem padded_ne_nil (width number : Nat) : padded width number ≠ [] := by
  simp [padded, List.leftpad, Nat.toDigits_ne_nil]

theorem isDigit_of_mem_padded {width : Nat} (member : digit ∈ padded width number) : digit.isDigit = true := by
  rcases List.mem_append.mp member with zero | decimal
  · rw [List.eq_of_mem_replicate zero]
    rfl
  · exact isDigit_of_mem_decimal decimal

@[simp]
theorem ofDigitChars_padded (width number : Nat) : Nat.ofDigitChars 10 (padded width number) 0 = number := by
  simp [padded, List.leftpad, Nat.ofDigitChars_append, Nat.ofDigitChars_replicate_zero]

theorem length_padded {width : Nat} (positive : 0 < width) (fits : number < 10 ^ width) :
    (padded width number).length = width := by
  have short := (Nat.length_toDigits_le_iff (by decide) positive).mpr fits
  simp [padded, List.leftpad, short]

/-- The number at the start of a text is read up to the first character that is no digit. -/
def readNat (text : List Char) : Option (Nat × List Char) :=
  match text.takeWhile Char.isDigit with
  | [] => none
  | digits => some (Nat.ofDigitChars 10 digits 0, text.dropWhile Char.isDigit)

theorem readNat_padded (width : Nat) (stops : ∀ next ∈ rest.head?, next.isDigit = false) :
    readNat (padded width number ++ rest) = some (number, rest) := by
  have digits : ∀ digit ∈ padded width number, digit.isDigit = true := fun _ => isDigit_of_mem_padded
  unfold readNat
  rw [takeWhile_digits digits stops, dropWhile_digits digits stops]
  split
  · rename_i empty
    exact absurd empty (padded_ne_nil width number)
  · simp

end Spicebench.Library
