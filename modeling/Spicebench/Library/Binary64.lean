import Mathlib.Algebra.Order.Floor.Ring
import Mathlib.Data.Int.Log
import Mathlib.Data.Rat.Floor
import Mathlib.Tactic.Linarith
import Mathlib.Tactic.Positivity
import Mathlib.Tactic.Ring

namespace Spicebench.Library

/-- A binary64 value is not a number, one of the two infinities, or a finite number.
The two zeros are one value, since no operation below divides by zero. -/
inductive F64 where
  | nan
  | infinite (negative : Bool)
  | finite (value : ℚ)
  deriving DecidableEq, Repr

namespace F64

/-- The nearest integer, where a tie goes to the even one. -/
def roundHalfEven (value : ℚ) : ℤ :=
  let below := ⌊value⌋
  let rest := value - below
  if rest < 1 / 2 then below
  else if 1 / 2 < rest then below + 1
  else if below % 2 = 0 then below else below + 1

/-- The spacing of binary64 numbers around a nonzero value, with 53 bits of precision. -/
def spacing (value : ℚ) : ℚ := 2 ^ max (Int.log 2 |value| - 52) (-1074)

/-- Every operation rounds its exact result to binary64. -/
def ofRat (value : ℚ) : F64 :=
  if value = 0 then .finite 0
  else
    let rounded := roundHalfEven (value / spacing value) * spacing value
    if 2 ^ 1024 ≤ rounded then .infinite false
    else if rounded ≤ -2 ^ 1024 then .infinite true
    else .finite rounded

/-- This is `n as f64`. -/
def ofNat (count : ℕ) : F64 := ofRat count

def isNegative : F64 → Bool
  | .nan => false
  | .infinite negative => negative
  | .finite value => decide (value < 0)

def add : F64 → F64 → F64
  | .nan, _ => .nan
  | _, .nan => .nan
  | .infinite first, .infinite second => if first = second then .infinite first else .nan
  | .infinite negative, .finite _ => .infinite negative
  | .finite _, .infinite negative => .infinite negative
  | .finite first, .finite second => ofRat (first + second)

def mul : F64 → F64 → F64
  | .nan, _ => .nan
  | _, .nan => .nan
  | .infinite first, .infinite second => .infinite (first != second)
  | .infinite negative, .finite value =>
      if value = 0 then .nan else .infinite (negative != decide (value < 0))
  | .finite value, .infinite negative =>
      if value = 0 then .nan else .infinite (negative != decide (value < 0))
  | .finite first, .finite second => ofRat (first * second)

def div : F64 → F64 → F64
  | .nan, _ => .nan
  | _, .nan => .nan
  | .infinite _, .infinite _ => .nan
  | .infinite negative, .finite value => .infinite (negative != decide (value < 0))
  | .finite _, .infinite _ => .finite 0
  | .finite first, .finite second =>
      if second = 0 then (if first = 0 then .nan else .infinite (decide (first < 0)))
      else ofRat (first / second)

instance : Add F64 := ⟨add⟩
instance : Mul F64 := ⟨mul⟩
instance : Div F64 := ⟨div⟩

/-- This is `value > bound` for a finite bound. -/
def exceeds (value : F64) (bound : ℚ) : Bool :=
  match value with
  | .nan => false
  | .infinite negative => !negative
  | .finite value => decide (bound < value)

/-- This is `value == 0.0`. -/
def isZero : F64 → Bool
  | .finite value => decide (value = 0)
  | _ => false

/-- This map applies an exact integer rounding to the finite values. -/
def onFinite (rounding : ℚ → ℤ) : F64 → F64
  | .finite value => .finite (rounding value)
  | other => other

/-- This is `f64::round`, where a tie goes away from zero. -/
def round : F64 → F64 :=
  onFinite fun value => if 0 ≤ value then ⌊value + 1 / 2⌋ else ⌈value - 1 / 2⌉

def floor : F64 → F64 := onFinite Int.floor

def ceil : F64 → F64 := onFinite Int.ceil

/-- The largest `usize` and `u64`. -/
def maxWord : ℕ := 2 ^ 64 - 1

/-- This is `value as usize`: it truncates, saturates, and takes a NaN to zero. -/
def toUsize : F64 → ℕ
  | .nan => 0
  | .infinite negative => if negative then 0 else maxWord
  | .finite value => min ⌊value⌋₊ maxWord

@[simp] theorem ofRat_zero : ofRat 0 = .finite 0 := rfl

theorem isZero_iff (value : F64) : value.isZero = true ↔ value = .finite 0 := by
  cases value <;> simp [isZero]

/-- Scaling any amount by zero leaves no rows: an infinite amount gives a NaN, which is zero too. -/
theorem toUsize_round_mul_zero (amount : F64) : (round (amount * .finite 0)).toUsize = 0 := by
  cases amount with
  | nan => rfl
  | infinite negative => rfl
  | finite value =>
      change (round (ofRat (value * 0))).toUsize = 0
      rw [mul_zero]
      decide +kernel

@[simp] theorem roundHalfEven_intCast (count : ℤ) : roundHalfEven count = count := by
  simp [roundHalfEven]

theorem roundHalfEven_le {value : ℚ} {bound : ℤ} (le : value ≤ bound) : roundHalfEven value ≤ bound := by
  have below : ⌊value⌋ ≤ bound := by exact_mod_cast (Int.floor_le value).trans le
  rcases below.lt_or_eq with strict | same
  · unfold roundHalfEven
    dsimp only
    split_ifs <;> omega
  · have equal : value = bound := le.antisymm (same ▸ Int.floor_le value)
    rw [equal, roundHalfEven_intCast]

theorem le_roundHalfEven {value : ℚ} {bound : ℤ} (le : bound ≤ value) : bound ≤ roundHalfEven value := by
  have below : bound ≤ ⌊value⌋ := Int.le_floor.mpr le
  unfold roundHalfEven
  dsimp only
  split_ifs <;> omega

theorem spacing_positive (value : ℚ) : 0 < spacing value := zpow_pos (by norm_num) _

/-- At most 53 bits are a multiple of the spacing at their own size. -/
theorem exists_spacing_mul {count exponent : ℤ} (low : -1074 ≤ exponent) (nonzero : count ≠ 0)
    (small : |count| ≤ 2 ^ 53) : ∃ other : ℤ, (count * 2 ^ exponent : ℚ) = other * spacing (count * 2 ^ exponent) := by
  have power : (0 : ℚ) < 2 ^ exponent := zpow_pos (by norm_num) _
  have magnitude : |(count * 2 ^ exponent : ℚ)| = |count| * 2 ^ exponent := by
    rw [abs_mul, abs_of_pos power, Int.cast_abs]
  have positive : (0 : ℚ) < |(count * 2 ^ exponent : ℚ)| := by
    rw [magnitude]
    exact mul_pos (by exact_mod_cast abs_pos.mpr nonzero) power
  have log_le := Int.zpow_log_le_self (b := 2) (by norm_num) positive
  unfold spacing
  generalize logarithm : Int.log 2 |(count * 2 ^ exponent : ℚ)| = log at log_le
  rw [magnitude] at log_le
  by_cases fits : log ≤ 52 + exponent
  · -- Nothing was carried, and the spacing divides the old one.
    have finer : max (log - 52) (-1074) ≤ exponent := by omega
    refine ⟨count * 2 ^ (exponent - max (log - 52) (-1074)).toNat, ?_⟩
    push_cast
    rw [mul_assoc, ← zpow_natCast, ← zpow_add₀ (by norm_num : (2 : ℚ) ≠ 0)]
    congr 2
    omega
  · have carried : (2 : ℤ) ^ 53 ≤ |count| := by
      have bound : (2 : ℚ) ^ (53 + exponent) ≤ |count| * 2 ^ exponent :=
        le_trans (zpow_le_zpow_right₀ (by norm_num) (by omega)) log_le
      rw [zpow_add₀ (by norm_num)] at bound
      exact_mod_cast le_of_mul_le_mul_right bound power
    have whole : |count| = 2 ^ 53 := le_antisymm small carried
    have top : log = 53 + exponent := by
      have size : ((2 ^ 53 : ℤ) : ℚ) * 2 ^ exponent = ((2 : ℕ) : ℚ) ^ (53 + exponent) := by
        rw [zpow_add₀ (by norm_num)]
        norm_num
      rw [← logarithm, magnitude, whole, size, Int.log_zpow (by norm_num)]
    obtain ⟨half, halved⟩ : (2 : ℤ) ∣ count := by
      rw [← dvd_abs, whole]
      norm_num
    refine ⟨half, ?_⟩
    rw [halved, max_eq_left (by omega), top, show (53 + exponent - 52 : ℤ) = exponent + 1 by ring,
      zpow_add_one₀ (by norm_num)]
    push_cast
    ring

/-- The rounded value is an integer of at most 53 bits times the spacing. -/
theorem abs_roundHalfEven_le (value : ℚ) : |roundHalfEven (value / spacing value)| ≤ 2 ^ 53 := by
  have below : |value| < 2 ^ 53 * spacing value := by
    refine (Int.lt_zpow_succ_log_self (b := 2) (by norm_num) |value|).trans_le ?_
    rw [spacing, ← zpow_natCast, ← zpow_add₀ (by norm_num)]
    exact zpow_le_zpow_right₀ (by norm_num) (by push_cast; omega)
  have quotient : |value / spacing value| ≤ 2 ^ 53 := by
    rw [abs_div, abs_of_pos (spacing_positive value), div_le_iff₀ (spacing_positive value)]
    exact below.le
  rw [abs_le] at quotient ⊢
  refine ⟨le_roundHalfEven ?_, roundHalfEven_le ?_⟩
  · push_cast
    exact quotient.1
  · push_cast
    exact quotient.2

/-- Rounding a rounded value changes nothing. -/
theorem ofRat_of_ofRat {value rounded : ℚ} (finite : ofRat value = .finite rounded) :
    ofRat rounded = .finite rounded := by
  unfold ofRat at finite
  by_cases zero : value = 0
  · rw [if_pos zero, F64.finite.injEq] at finite
    rw [← finite, ofRat_zero]
  · rw [if_neg zero] at finite
    dsimp only at finite
    split_ifs at finite with above under
    obtain rfl := F64.finite.inj finite
    by_cases none : roundHalfEven (value / spacing value) = 0
    · rw [none, Int.cast_zero, zero_mul, ofRat_zero]
    · have nonzero : (roundHalfEven (value / spacing value) : ℚ) * spacing value ≠ 0 :=
        mul_ne_zero (by exact_mod_cast none) (spacing_positive value).ne'
      have multiple : ∃ other : ℤ, (roundHalfEven (value / spacing value) : ℚ) * spacing value =
          other * spacing (roundHalfEven (value / spacing value) * spacing value) :=
        exists_spacing_mul (le_max_right (Int.log 2 |value| - 52) _) none (abs_roundHalfEven_le value)
      generalize (roundHalfEven (value / spacing value) : ℚ) * spacing value = rounded at *
      obtain ⟨other, same⟩ := multiple
      have again : rounded / spacing rounded = other := (div_eq_iff (spacing_positive rounded).ne').mpr same
      rw [ofRat, if_neg nonzero]
      dsimp only
      rw [again, roundHalfEven_intCast, ← same, if_neg above, if_neg under]

theorem nonneg_of_ofRat {value rounded : ℚ} (nonneg : 0 ≤ value) (finite : ofRat value = .finite rounded) :
    0 ≤ rounded := by
  unfold ofRat at finite
  by_cases zero : value = 0
  · rw [if_pos zero, F64.finite.injEq] at finite
    rw [← finite]
  · rw [if_neg zero] at finite
    dsimp only at finite
    split_ifs at finite with above under
    obtain rfl := F64.finite.inj finite
    refine mul_nonneg ?_ (spacing_positive value).le
    have quotient : ((0 : ℤ) : ℚ) ≤ value / spacing value := by
      exact_mod_cast div_nonneg nonneg (spacing_positive value).le
    exact_mod_cast le_roundHalfEven quotient

end F64

end Spicebench.Library
