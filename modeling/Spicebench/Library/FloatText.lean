import Spicebench.Library.Binary64
import Spicebench.Library.Decimal
import Mathlib.Data.List.DropRight

namespace Spicebench.Library

/-- A binary64 value by its sign and magnitude, so that the two zeros differ as their bits do. -/
inductive Double where
  | nan
  | infinite (negative : Bool)
  | finite (negative : Bool) (magnitude : ℚ) (nonneg : 0 ≤ magnitude)
      (rounded : F64.ofRat magnitude = .finite magnitude)
  deriving DecidableEq

namespace Double

def isFinite : Double → Bool
  | .finite .. => true
  | _ => false

def ofRat (negative : Bool) (value : ℚ) (nonneg : 0 ≤ value) : Double :=
  match found : F64.ofRat value with
  | .nan => .nan
  | .infinite _ => .infinite negative
  | .finite magnitude => .finite negative magnitude (F64.nonneg_of_ofRat nonneg found) (F64.ofRat_of_ofRat found)

theorem ofRat_eq {negative : Bool} {value magnitude : ℚ} (nonneg : 0 ≤ value) (positive : 0 ≤ magnitude)
    (rounded : F64.ofRat magnitude = .finite magnitude) (found : F64.ofRat value = .finite magnitude) :
    ofRat negative value nonneg = .finite negative magnitude positive rounded := by
  unfold ofRat
  split
  · simp_all
  · simp_all
  · rename_i other same
    obtain rfl := F64.finite.inj (same.symm.trans found)
    rfl

end Double

/-- A decimal number is a power of ten times its digits. -/
structure DecimalNumber where
  digits : ℕ
  exponent : ℤ

namespace DecimalNumber

def value (number : DecimalNumber) : ℚ := number.digits * 10 ^ number.exponent

theorem value_nonneg (number : DecimalNumber) : 0 ≤ number.value :=
  mul_nonneg (Nat.cast_nonneg _) (zpow_nonneg (by norm_num) _)

/-- The digits behind the point, without the zeros at the end. -/
def fraction (places rest : ℕ) : List Char :=
  (List.replicate (places - (Nat.toDigits 10 rest).length) '0' ++ Nat.toDigits 10 rest).rdropWhile (· = '0')

/-- The text of a number without an exponent. -/
def text (number : DecimalNumber) : List Char :=
  let places := (-number.exponent).toNat
  let scaled := number.digits * 10 ^ number.exponent.toNat
  let behind := fraction places (scaled % 10 ^ places)
  Nat.toDigits 10 (scaled / 10 ^ places) ++ if behind = [] then [] else '.' :: behind

end DecimalNumber

/-- The decimal numbers of a given length next to a value, of which the nearer one is taken that rounds to it. -/
def nearby (value : ℚ) (length : ℕ) : Option DecimalNumber :=
  let exponent := Int.log 10 value - length + 1
  let digits := ⌊value / 10 ^ exponent⌋₊
  let below : DecimalNumber := ⟨digits, exponent⟩
  let above : DecimalNumber := ⟨digits + 1, exponent⟩
  if F64.ofRat below.value = .finite value ∧
      (F64.ofRat above.value ≠ .finite value ∨ value - below.value < above.value - value) then some below
  else if F64.ofRat above.value = .finite value then some above
  else none

/-- The shortest decimal number that rounds to a value. Seventeen digits are always enough, and the exact number stands
behind them. -/
def shortest (value : ℚ) : DecimalNumber :=
  ((List.range 17).findSome? fun length => nearby value (length + 1)).getD ⟨(value * 10 ^ 1074).num.toNat, -1074⟩

/-- As many decimal places as binary places write a power of two exactly. -/
theorem exists_zpow_two_mul {exponent : ℤ} {places : ℕ} (enough : 0 ≤ exponent + places) :
    ∃ digits : ℤ, (2 : ℚ) ^ exponent * 10 ^ places = digits := by
  refine ⟨2 ^ (exponent + places).toNat * 5 ^ places, ?_⟩
  have binary : (2 : ℚ) ^ exponent * 2 ^ places = 2 ^ (exponent + places).toNat := by
    rw [← zpow_natCast, ← zpow_natCast, ← zpow_add₀ (by norm_num), Int.toNat_of_nonneg enough]
  rw [show (10 : ℚ) = 2 * 5 by norm_num, mul_pow, ← mul_assoc, binary]
  push_cast
  rfl

/-- A number of binary64 has at most 1074 binary places, and so at most as many decimal places. -/
theorem exists_exact {value : ℚ} (rounded : F64.ofRat value = .finite value) :
    ∃ digits : ℤ, value * 10 ^ 1074 = digits := by
  unfold F64.ofRat at rounded
  by_cases zero : value = 0
  · exact ⟨0, by rw [zero, zero_mul, Int.cast_zero]⟩
  · rw [if_neg zero] at rounded
    dsimp only at rounded
    split_ifs at rounded with above under
    have multiple := F64.finite.inj rounded
    have enough : 0 ≤ max (Int.log 2 |value| - 52) (-1074) + ((1074 : ℕ) : ℤ) := by omega
    obtain ⟨digits, same⟩ := exists_zpow_two_mul enough
    refine ⟨F64.roundHalfEven (value / F64.spacing value) * digits, ?_⟩
    rw [Int.cast_mul, ← same, ← mul_assoc]
    exact congrArg (· * 10 ^ 1074) multiple.symm

theorem value_of_places {value : ℚ} {digits places : ℕ} (whole : value * 10 ^ places = digits) :
    DecimalNumber.value ⟨digits, -(places : ℤ)⟩ = value := by
  have ten : (10 : ℚ) ^ places ≠ 0 := pow_ne_zero _ (by norm_num)
  rw [DecimalNumber.value, ← whole, zpow_neg, zpow_natCast, mul_inv_cancel_right₀ ten]

theorem nearby_rounds {value : ℚ} {length : ℕ} {number : DecimalNumber} (found : nearby value length = some number) :
    F64.ofRat number.value = .finite value := by
  unfold nearby at found
  dsimp only at found
  split_ifs at found with below above
  · obtain rfl := Option.some.inj found
    exact below.1
  · obtain rfl := Option.some.inj found
    exact above

/-- The shortest number rounds to the value that it is made of. -/
theorem shortest_rounds {value : ℚ} (nonneg : 0 ≤ value) (rounded : F64.ofRat value = .finite value) :
    F64.ofRat (shortest value).value = .finite value := by
  unfold shortest
  cases searched : (List.range 17).findSome? fun length => nearby value (length + 1) with
  | some number =>
      obtain ⟨length, -, found⟩ := List.exists_of_findSome?_eq_some searched
      exact nearby_rounds found
  | none =>
      obtain ⟨digits, whole⟩ := exists_exact rounded
      have positive : 0 ≤ digits := by
        have scaled : 0 ≤ value * 10 ^ 1074 := mul_nonneg nonneg (pow_nonneg (by norm_num) _)
        rw [whole] at scaled
        exact_mod_cast scaled
      have same : DecimalNumber.value ⟨(value * 10 ^ 1074).num.toNat, -1074⟩ = value := by
        apply value_of_places
        rw [whole, Rat.num_intCast, ← Int.cast_natCast, Int.toNat_of_nonneg positive]
      rw [Option.getD_none, same, rounded]

/-- This is the text of `{}`. -/
def Double.display : Double → List Char
  | .nan => "NaN".toList
  | .infinite negative => (if negative then "-inf" else "inf").toList
  | .finite negative magnitude _ _ => (if negative then ['-'] else []) ++ (shortest magnitude).text

/-- The exponent behind the digits, where an absent one is zero. -/
def parseExponent : List Char → Option ℤ
  | [] => some 0
  | mark :: rest =>
      if mark = 'e' ∨ mark = 'E' then
        let (negative, digits) := match rest with
          | '-' :: digits => (true, digits)
          | '+' :: digits => (false, digits)
          | digits => (false, digits)
        if digits ≠ [] ∧ digits.all Char.isDigit then
          let size : ℤ := Nat.ofDigitChars 10 digits 0
          some (if negative then -size else size)
        else none
      else none

/-- The digits before and behind the point, of which some are needed, and an exponent. -/
def parseDecimal (text : List Char) : Option DecimalNumber :=
  let whole := text.takeWhile Char.isDigit
  let after := text.dropWhile Char.isDigit
  let (behind, rest) := match after with
    | '.' :: more => (more.takeWhile Char.isDigit, more.dropWhile Char.isDigit)
    | _ => ([], after)
  if whole = [] ∧ behind = [] then none
  else (parseExponent rest).map fun exponent =>
    ⟨Nat.ofDigitChars 10 (whole ++ behind) 0, exponent - behind.length⟩

def splitSign : List Char → Bool × List Char
  | '-' :: rest => (true, rest)
  | '+' :: rest => (false, rest)
  | text => (false, text)

/-- This is `parse::<f64>()`. -/
def parseF64 (text : List Char) : Option Double :=
  let (negative, rest) := splitSign text
  let lower := rest.map Char.toLower
  if lower = "nan".toList then some .nan
  else if lower = "inf".toList ∨ lower = "infinity".toList then some (.infinite negative)
  else (parseDecimal rest).map fun number => .ofRat negative number.value number.value_nonneg

/-- This is `parse::<i64>()`. -/
def parseI64 (text : List Char) : Option ℤ :=
  let (negative, digits) := splitSign text
  if digits ≠ [] ∧ digits.all Char.isDigit then
    let size : ℤ := Nat.ofDigitChars 10 digits 0
    let value := if negative then -size else size
    if -2 ^ 63 ≤ value ∧ value < 2 ^ 63 then some value else none
  else none

namespace DecimalNumber

/-- The fraction is followed by zeros only, up to the given number of places. -/
theorem fraction_append_zeros (places rest : ℕ) :
    ∃ zeros, List.replicate (places - (Nat.toDigits 10 rest).length) '0' ++ Nat.toDigits 10 rest =
      fraction places rest ++ List.replicate zeros '0' := by
  generalize written : List.replicate (places - (Nat.toDigits 10 rest).length) '0' ++ Nat.toDigits 10 rest = digits
  refine ⟨(digits.rtakeWhile (· = '0')).length, ?_⟩
  have zeros : digits.rtakeWhile (· = '0') = List.replicate (digits.rtakeWhile (· = '0')).length '0' := by
    apply List.eq_replicate_of_mem
    intro digit member
    simpa using List.mem_rtakeWhile_imp member
  rw [fraction, written, ← zeros, List.rdropWhile_append_rtakeWhile]

/-- Without its zeros the fraction stands for the same part. -/
theorem ofDigitChars_fraction {places rest : ℕ} (fits : rest < 10 ^ places) :
    Nat.ofDigitChars 10 (fraction places rest) 0 * 10 ^ places = rest * 10 ^ (fraction places rest).length := by
  obtain ⟨zeros, written⟩ := fraction_append_zeros places rest
  have worth : rest = 10 ^ zeros * Nat.ofDigitChars 10 (fraction places rest) 0 := by
    have same := congrArg (Nat.ofDigitChars 10 · 0) written
    simpa [Nat.ofDigitChars_append, Nat.ofDigitChars_replicate_zero, Nat.ofDigitChars_ten_toDigits] using same
  cases places with
  | zero =>
      obtain rfl : rest = 0 := by simpa using fits
      have none : Nat.ofDigitChars 10 (fraction 0 0) 0 = 0 := by decide
      rw [none, Nat.zero_mul, Nat.zero_mul]
  | succ places =>
      have long : (fraction (places + 1) rest).length + zeros = places + 1 := by
        have digits := (Nat.length_toDigits_le_iff (by decide) places.succ_pos).mpr fits
        have same := congrArg List.length written
        simp only [List.length_append, List.length_replicate] at same
        omega
      generalize fraction (places + 1) rest = behind at worth long ⊢
      rw [worth, ← long, Nat.pow_add]
      ring

theorem isDigit_of_mem_fraction {places rest : ℕ} {digit : Char} (member : digit ∈ fraction places rest) :
    digit.isDigit = true := by
  have inside := (List.rdropWhile_prefix _ _).subset member
  rcases List.mem_append.mp inside with zero | written
  · rw [List.eq_of_mem_replicate zero]
    rfl
  · exact isDigit_of_mem_decimal written

/-- The digits on both sides of the point are read as they were written. -/
theorem parseDecimal_digits (whole : ℕ) {behind : List Char} (digits : ∀ digit ∈ behind, digit.isDigit = true) :
    parseDecimal (Nat.toDigits 10 whole ++ if behind = [] then [] else '.' :: behind) =
      some ⟨Nat.ofDigitChars 10 (Nat.toDigits 10 whole ++ behind) 0, -behind.length⟩ := by
  have stops : ∀ next ∈ (if behind = [] then [] else '.' :: behind : List Char).head?, next.isDigit = false := by
    split_ifs <;> simp
  unfold parseDecimal
  rw [takeWhile_decimal stops, dropWhile_decimal stops]
  by_cases none : behind = []
  · subst none
    simp [parseExponent, Nat.toDigits_ne_nil]
  · have all : behind.takeWhile Char.isDigit = behind := List.takeWhile_eq_self_iff.mpr digits
    have rest : behind.dropWhile Char.isDigit = [] := List.dropWhile_eq_nil_iff.mpr digits
    simp [none, all, rest, parseExponent]

/-- Two ways to write a number are compared by clearing their denominators. -/
theorem value_eq (number : DecimalNumber) {worth length : ℕ}
    (cleared : worth * 10 ^ (-number.exponent).toNat = number.digits * 10 ^ number.exponent.toNat * 10 ^ length) :
    DecimalNumber.value ⟨worth, -length⟩ = number.value := by
  have exponent : number.exponent = number.exponent.toNat - (-number.exponent).toNat := by omega
  have written : (10 : ℚ) ^ number.exponent = 10 ^ number.exponent.toNat / 10 ^ (-number.exponent).toNat := by
    conv_lhs => rw [exponent]
    rw [zpow_sub₀ (by norm_num), zpow_natCast, zpow_natCast]
  have ratios : (worth : ℚ) * 10 ^ (-number.exponent).toNat =
      number.digits * 10 ^ number.exponent.toNat * 10 ^ length := by
    exact_mod_cast cleared
  rw [value, value, written, zpow_neg, zpow_natCast, ← div_eq_mul_inv, ← mul_div_assoc,
    div_eq_div_iff (pow_ne_zero _ (by norm_num)) (pow_ne_zero _ (by norm_num)), ratios]

/-- The text of a number is read as the number. -/
theorem parseDecimal_text (number : DecimalNumber) :
    ∃ read, parseDecimal number.text = some read ∧ read.value = number.value := by
  refine ⟨_, parseDecimal_digits _ fun _ => isDigit_of_mem_fraction, ?_⟩
  apply value_eq
  generalize number.digits * 10 ^ number.exponent.toNat = scaled
  generalize (-number.exponent).toNat = places
  have behind := ofDigitChars_fraction (Nat.mod_lt scaled (Nat.pow_pos (n := places) (by decide : 0 < 10)))
  generalize fraction places (scaled % 10 ^ places) = digits at behind ⊢
  calc Nat.ofDigitChars 10 (Nat.toDigits 10 (scaled / 10 ^ places) ++ digits) 0 * 10 ^ places
      = 10 ^ digits.length * (scaled / 10 ^ places) * 10 ^ places +
          Nat.ofDigitChars 10 digits 0 * 10 ^ places := by
        rw [Nat.ofDigitChars_append, Nat.ofDigitChars_ten_toDigits, Nat.ofDigitChars_eq_ofDigitChars_zero, Nat.add_mul]
    _ = 10 ^ digits.length * (10 ^ places * (scaled / 10 ^ places) + scaled % 10 ^ places) := by
        rw [behind]
        ring
    _ = scaled * 10 ^ digits.length := by rw [Nat.div_add_mod, Nat.mul_comm]

/-- The text of a number starts with a digit. -/
theorem exists_text_cons (number : DecimalNumber) :
    ∃ digit rest, number.text = digit :: rest ∧ digit.isDigit = true := by
  obtain ⟨digit, digits, listed, isDigit⟩ := exists_decimal_cons
    (number.digits * 10 ^ number.exponent.toNat / 10 ^ (-number.exponent).toNat)
  exact ⟨digit, _, by rw [text, listed, List.cons_append], isDigit⟩

end DecimalNumber

theorem splitSign_digit {digit : Char} (isDigit : digit.isDigit = true) (rest : List Char) :
    splitSign (digit :: rest) = (false, digit :: rest) := by
  unfold splitSign
  split
  · simp_all
  · simp_all
  · rfl

/-- A finite number is read back from its text, the sign of a zero included. -/
theorem parseF64_display {double : Double} (finite : double.isFinite = true) :
    parseF64 double.display = some double := by
  cases double with
  | nan => cases finite
  | infinite negative => cases finite
  | finite negative magnitude nonneg rounded =>
      obtain ⟨read, parsed, same⟩ := DecimalNumber.parseDecimal_text (shortest magnitude)
      obtain ⟨digit, rest, text, isDigit⟩ := DecimalNumber.exists_text_cons (shortest magnitude)
      have sign : splitSign ((if negative then ['-'] else []) ++ (shortest magnitude).text) =
          (negative, (shortest magnitude).text) := by
        cases negative with
        | false =>
            rw [text]
            exact splitSign_digit isDigit rest
        | true => rfl
      have word : ∀ letter letters, letter.isDigit = false →
          (shortest magnitude).text.map Char.toLower ≠ letter :: letters := by
        intro letter letters other same
        rw [text, List.map_cons, List.cons.injEq, toLower_digit isDigit] at same
        rw [same.1, other] at isDigit
        cases isDigit
      have value : F64.ofRat read.value = .finite magnitude := by
        rw [same]
        exact shortest_rounds nonneg rounded
      have notNan : (shortest magnitude).text.map Char.toLower ≠ "nan".toList := word 'n' _ rfl
      have notInf : (shortest magnitude).text.map Char.toLower ≠ "inf".toList := word 'i' _ rfl
      have notInfinity : (shortest magnitude).text.map Char.toLower ≠ "infinity".toList := word 'i' _ rfl
      unfold parseF64 Double.display
      dsimp only
      rw [sign]
      dsimp only
      rw [if_neg notNan, if_neg (not_or.mpr ⟨notInf, notInfinity⟩), parsed, Option.map_some,
        Double.ofRat_eq _ nonneg rounded value]

end Spicebench.Library
