import Spicebench.Proof.DurationBytes

namespace Spicebench.DurationParse
open Library

def digitsValue (digits : List Char) : Nat := Nat.ofDigitChars 10 digits 0

/-- The digits of a number in front of its point. -/
def wholeText (text : List Char) : List Char := text.takeWhile Char.isDigit

/-- The digits of a number behind its point. -/
def fractionText (text : List Char) : List Char := (readFraction (text.dropWhile Char.isDigit)).1

/-- The number of digits behind the point is kept in 32 bits. -/
def places (text : List Char) : Nat := toU32 (fractionText text).length

/-- The number that is written without the point. -/
def mantissa (text : List Char) : Nat :=
  digitsValue (wholeText text) * 10 ^ places text + digitsValue (fractionText text)

/-- The text behind the mark of an exponent. -/
def exponentText (text : List Char) : Option (List Char) :=
  match (readFraction (text.dropWhile Char.isDigit)).2 with
  | 'e' :: rest => some rest
  | 'E' :: rest => some rest
  | _ => none

def exponentDigits (text : List Char) : List Char := (stripSign text).2.takeWhile Char.isDigit

def exponentValue (text : List Char) : Int :=
  if (stripSign text).1 then -digitsValue (exponentDigits text) else digitsValue (exponentDigits text)

/-- A number whose point moves stays in 128 bits without a fraction, and in 64 bits for each part with one. -/
def Shiftable (mantissa places : Nat) (exponent : Int) : Prop :=
  if places ≤ exponent then mantissa ≤ u128Max
  else mantissa / 10 ^ (places - exponent).toNat ≤ u64Max ∧ mantissa % 10 ^ (places - exponent).toNat ≤ u64Max

/-- An exponent has digits, moves the point by little and leaves parts that fit. -/
def ReadableExponent (mantissa places : Nat) (mark : List Char) : Prop :=
  exponentDigits mark ≠ [] ∧ digitsValue (exponentDigits mark) ≤ maxExponentMagnitude ∧
    Shiftable mantissa places (exponentValue mark)

/-- A text starts with a number if it has a digit, each part fits and so does what an exponent makes of them. -/
structure Readable (text : List Char) : Prop where
  digits : wholeText text ≠ [] ∨ fractionText text ≠ []
  whole : digitsValue (wholeText text) ≤ u64Max
  fraction : digitsValue (fractionText text) ≤ u64Max
  exponent : ∀ mark, exponentText text = some mark → ReadableExponent (mantissa text) (places text) mark

/-- The text behind a number. -/
def behindNumber (text : List Char) : List Char :=
  match exponentText text with
  | some mark => (stripSign mark).2.dropWhile Char.isDigit
  | none => (readFraction (text.dropWhile Char.isDigit)).2

/-- The parser reads the segments of a text one after another, up to a position without whitespace in front. -/
inductive Reaches : List Char → List Char → Prop where
  | here (text : List Char) : Reaches text (trimStart text)
  | next {text position : List Char} (readable : Readable (trimStart text))
      (later : Reaches (parseTimeUnit (behindNumber (trimStart text))).2 position) : Reaches text position

/-- A text starts with a character of more than one byte. -/
def StartsWide (text : List Char) : Prop := ∃ letter rest, text = letter :: rest ∧ 1 < letter.utf8Size

/-- The text that is read for segments: the input without whitespace around it and without a plus. -/
def segmentText (input : List Char) : List Char :=
  match trim input with
  | '+' :: rest => rest
  | _ => trim input

section Shifting

variable {number : ParsedNumber} {exponent : Int}

/-- The digits of a number and of its fraction. -/
def allDigits (number : ParsedNumber) : List Char :=
  Nat.toDigits 10 number.integer ++ if 0 < number.fracDigits then padded number.fracDigits number.fracValue else []

theorem isDigit_of_mem_allDigits {digit : Char} (member : digit ∈ allDigits number) : digit.isDigit = true := by
  rcases List.mem_append.mp member with decimal | fraction
  · exact isDigit_of_mem_decimal decimal
  · split_ifs at fraction
    · exact isDigit_of_mem_padded fraction
    · cases fraction

theorem allDigits_ne_nil : allDigits number ≠ [] := by
  simp [allDigits, Nat.toDigits_ne_nil]

/-- The digits of a number are those of the number without the point. -/
theorem digitsValue_allDigits (proper : number.fracValue < 10 ^ number.fracDigits) :
    digitsValue (allDigits number) = number.integer * 10 ^ number.fracDigits + number.fracValue := by
  unfold digitsValue allDigits
  rw [ofDigitChars_split, Nat.ofDigitChars_ten_toDigits]
  split_ifs with positive
  · rw [length_padded positive proper, ofDigitChars_padded]
  · have none : number.fracDigits = 0 := by omega
    rw [none, Nat.pow_zero] at proper
    rw [none, Nat.lt_one_iff.mp proper]
    simp

theorem shift_eq (number : ParsedNumber) (exponent : Int) :
    shift number exponent =
      if number.fracDigits - exponent ≤ 0 then shiftLeft (allDigits number) (number.fracDigits - exponent).natAbs
      else shiftRight (allDigits number) (number.fracDigits - exponent).toNat := rfl

/-- The number after its point has moved. -/
def shifted (mantissa places : Nat) (exponent : Int) : ParsedNumber :=
  if places ≤ exponent then ⟨min (mantissa * 10 ^ (exponent - places).toNat) u64Max, 0, 0⟩
  else
    let count := (places - exponent).toNat
    ⟨mantissa / 10 ^ count, asU32 count, mantissa % 10 ^ count⟩

section Digits

variable {digits : List Char} (nonempty : digits ≠ []) (all : ∀ digit ∈ digits, digit.isDigit = true)

include nonempty all

theorem shiftLeft_digits {zeros : Nat} (few : 10 ^ zeros ≤ u128Max) :
    shiftLeft digits zeros =
      if digitsValue digits ≤ u128Max then .ok ⟨min (digitsValue digits * 10 ^ zeros) u64Max, 0, 0⟩
      else invalidInput "Number too large" := by
  have narrow : u64Max ≤ u128Max := by decide
  unfold shiftLeft
  rw [parseUnsigned_digits nonempty all, ← digitsValue]
  simp only [Nat.lt_succ_iff]
  split_ifs with fits
  · dsimp only
    by_cases small : digitsValue digits * 10 ^ zeros ≤ u64Max
    · rw [if_pos ⟨few, small.trans narrow, small⟩, min_eq_left small]
    · rw [if_neg fun both => small both.2.2, min_eq_right (by omega)]
  · rfl

/-- Digits that are all behind the point are padded with zeros. -/
theorem shiftRight_short {count : Nat} (short : digits.length ≤ count) :
    shiftRight digits count =
      if digitsValue digits ≤ u64Max then .ok ⟨0, asU32 count, digitsValue digits⟩
      else invalidInput "Fractional part too large" := by
  have value : Nat.ofDigitChars 10 (List.replicate (count - digits.length) '0' ++ digits) 0 = digitsValue digits := by
    rw [Nat.ofDigitChars_append, Nat.ofDigitChars_replicate_zero]
    rfl
  have allPadded : ∀ digit ∈ List.replicate (count - digits.length) '0' ++ digits, digit.isDigit = true := by
    intro digit member
    rcases List.mem_append.mp member with zero | digit
    · rw [List.eq_of_mem_replicate zero]
      rfl
    · exact all _ digit
  have length : (List.replicate (count - digits.length) '0' ++ digits).length = count := by
    rw [List.length_append, List.length_replicate]
    omega
  unfold shiftRight
  rw [if_pos short]
  dsimp only
  rw [parseUnsigned_digits (by simp [nonempty]) allPadded, value, length]
  simp only [Nat.lt_succ_iff]
  split_ifs with fits
  · rfl
  · rfl

omit nonempty in
/-- The last digits are the remainder, and those in front the quotient. -/
theorem digitsValue_take_drop {count : Nat} (long : count ≤ digits.length) :
    digitsValue (digits.take (digits.length - count)) = digitsValue digits / 10 ^ count ∧
      digitsValue (digits.drop (digits.length - count)) = digitsValue digits % 10 ^ count := by
  have length : (digits.drop (digits.length - count)).length = count := by
    rw [List.length_drop]
    omega
  have small : digitsValue (digits.drop (digits.length - count)) < 10 ^ count := by
    have bound := ofDigitChars_lt fun digit member =>
      all digit (List.mem_of_mem_drop (i := digits.length - count) member)
    rwa [length] at bound
  have split := ofDigitChars_split (digits.take (digits.length - count)) (digits.drop (digits.length - count))
  rw [List.take_append_drop, length] at split
  change digitsValue digits = digitsValue _ * 10 ^ count + digitsValue _ at split
  rw [split]
  constructor
  · rw [Nat.add_comm, Nat.add_mul_div_right _ _ (by positivity), Nat.div_eq_of_lt small, Nat.zero_add]
  · rw [Nat.mul_add_mod', Nat.mod_eq_of_lt small]

omit nonempty in
/-- Digits on both sides of the point are split there. -/
theorem shiftRight_long {count : Nat} (long : count < digits.length) :
    shiftRight digits count =
      if digitsValue digits / 10 ^ count ≤ u64Max then
        if digitsValue digits % 10 ^ count ≤ u64Max then
          .ok ⟨digitsValue digits / 10 ^ count, asU32 count, digitsValue digits % 10 ^ count⟩
        else invalidInput "Fractional part too large"
      else invalidInput "Number too large" := by
  obtain ⟨quotient, remainder⟩ := digitsValue_take_drop all long.le
  have front : digits.take (digits.length - count) ≠ [] := by
    rw [← List.length_pos_iff, List.length_take]
    omega
  have length : (digits.drop (digits.length - count)).length = count := by
    rw [List.length_drop]
    omega
  unfold shiftRight
  rw [if_neg (by omega)]
  dsimp only
  rw [parseUnsigned_digits front fun digit member => all digit (List.mem_of_mem_take member), ← digitsValue, quotient,
    length]
  simp only [Nat.lt_succ_iff]
  by_cases whole : digitsValue digits / 10 ^ count ≤ u64Max
  · rw [if_pos whole, if_pos whole]
    dsimp only
    by_cases missing : digits.drop (digits.length - count) = []
    · have zero : digitsValue digits % 10 ^ count = 0 := by
        rw [← remainder, missing]
        rfl
      rw [if_pos missing, zero, if_pos (Nat.zero_le _)]
    · rw [if_neg missing, parseUnsigned_digits missing fun digit member => all digit (List.mem_of_mem_drop member),
        ← digitsValue, remainder]
      simp only [Nat.lt_succ_iff]
      split_ifs with fraction
      · rfl
      · rfl
  · rw [if_neg whole, if_neg whole]

theorem shiftRight_digits (count : Nat) :
    (digitsValue digits / 10 ^ count ≤ u64Max → digitsValue digits % 10 ^ count ≤ u64Max →
      shiftRight digits count =
        .ok ⟨digitsValue digits / 10 ^ count, asU32 count, digitsValue digits % 10 ^ count⟩) ∧
    (¬(digitsValue digits / 10 ^ count ≤ u64Max ∧ digitsValue digits % 10 ^ count ≤ u64Max) →
      ∃ error, shiftRight digits count = .error (.error error)) := by
  rcases Nat.lt_or_ge count digits.length with long | short
  · rw [shiftRight_long all long]
    constructor
    · intro whole fraction
      rw [if_pos whole, if_pos fraction]
    · intro large
      split_ifs with whole fraction
      · exact absurd ⟨whole, fraction⟩ large
      · exact ⟨_, rfl⟩
      · exact ⟨_, rfl⟩
  · have small : digitsValue digits < 10 ^ count :=
      (ofDigitChars_lt all).trans_le (Nat.pow_le_pow_right (by decide) short)
    rw [shiftRight_short nonempty all short, Nat.div_eq_of_lt small, Nat.mod_eq_of_lt small]
    constructor
    · intro _ fraction
      rw [if_pos fraction]
    · intro large
      rw [if_neg fun fraction => large ⟨Nat.zero_le _, fraction⟩]
      exact ⟨_, rfl⟩

end Digits

variable (proper : number.fracValue < 10 ^ number.fracDigits)

include proper

/-- The point of a number is moved exactly if the parts that it makes fit, and it is an error otherwise. -/
theorem shift_parts (small : exponent.natAbs ≤ maxExponentMagnitude) :
    (Shiftable (number.integer * 10 ^ number.fracDigits + number.fracValue) number.fracDigits exponent →
      shift number exponent =
        .ok (shifted (number.integer * 10 ^ number.fracDigits + number.fracValue) number.fracDigits exponent)) ∧
    (¬Shiftable (number.integer * 10 ^ number.fracDigits + number.fracValue) number.fracDigits exponent →
      ∃ error, shift number exponent = .error (.error error)) := by
  have value := digitsValue_allDigits proper
  have all : ∀ digit ∈ allDigits number, digit.isDigit = true := fun _ => isDigit_of_mem_allDigits
  rw [← value]
  unfold Shiftable
  rw [shift_eq, shifted]
  by_cases left : number.fracDigits ≤ exponent
  · have zeros : ((number.fracDigits : Int) - exponent).natAbs = (exponent - number.fracDigits).toNat := by omega
    have few : 10 ^ (exponent - number.fracDigits).toNat ≤ u128Max := by
      have bound : (exponent - number.fracDigits).toNat ≤ 20 := by
        unfold maxExponentMagnitude at small
        omega
      exact (Nat.pow_le_pow_right (by decide) bound).trans (by decide)
    rw [if_pos left, if_pos left, if_pos (by omega), zeros, shiftLeft_digits allDigits_ne_nil all few]
    constructor
    · intro fits
      rw [if_pos fits]
    · intro large
      rw [if_neg large]
      exact ⟨_, rfl⟩
  · rw [if_neg left, if_neg left, if_neg (by omega)]
    obtain ⟨ok, error⟩ := shiftRight_digits allDigits_ne_nil all (number.fracDigits - exponent).toNat
    exact ⟨fun fits => ok fits.1 fits.2, error⟩

end Shifting

section Numbers

/-- A number fits in the widths of its parts. -/
def ParsedNumber.Fits (number : ParsedNumber) : Prop := number.integer ≤ u64Max ∧ number.fracValue ≤ u64Max

theorem shifted_fits {mantissa places : Nat} {exponent : Int} (shiftable : Shiftable mantissa places exponent) :
    (shifted mantissa places exponent).Fits := by
  unfold Shiftable at shiftable
  unfold shifted ParsedNumber.Fits
  split_ifs at shiftable ⊢
  · exact ⟨Nat.min_le_right _ _, Nat.zero_le _⟩
  · exact shiftable

theorem readU64_digits {digits : List Char} (all : ∀ digit ∈ digits, digit.isDigit = true) (failure : Failure) :
    readU64 digits failure = if digitsValue digits ≤ u64Max then .ok (digitsValue digits) else .error failure := by
  unfold readU64
  by_cases missing : digits = []
  · subst missing
    rfl
  · rw [if_neg missing, parseUnsigned_digits missing all, ← digitsValue]
    simp only [Nat.lt_succ_iff]
    split_ifs with fits
    · rfl
    · rfl

theorem isDigit_of_mem_takeWhile {text : List Char} : ∀ digit ∈ text.takeWhile Char.isDigit, digit.isDigit = true :=
  fun _ member => List.mem_takeWhile_imp member

theorem isDigit_of_mem_wholeText {text : List Char} : ∀ digit ∈ wholeText text, digit.isDigit = true :=
  isDigit_of_mem_takeWhile

theorem isDigit_of_mem_fractionText {text : List Char} : ∀ digit ∈ fractionText text, digit.isDigit = true := by
  unfold fractionText readFraction
  split
  · exact isDigit_of_mem_takeWhile
  · simp

/-- The fraction of a text is below one. -/
theorem fraction_proper {text : List Char} (fits : digitsValue (fractionText text) ≤ u64Max) :
    digitsValue (fractionText text) < 10 ^ places text := by
  have small : digitsValue (fractionText text) < 10 ^ (fractionText text).length :=
    ofDigitChars_lt isDigit_of_mem_fractionText
  unfold places toU32
  split_ifs
  · exact small
  · have many : 20 ≤ u32Max := by decide
    have wide : u64Max < 10 ^ 20 := by decide
    exact (fits.trans_lt wide).trans_le (Nat.pow_le_pow_right (by decide) many)

theorem natAbs_exponentValue {mark : List Char} (little : digitsValue (exponentDigits mark) ≤ maxExponentMagnitude) :
    (exponentValue mark).natAbs ≤ maxExponentMagnitude := by
  unfold exponentValue
  split_ifs
  · omega
  · omega

section Exponent

variable {number : ParsedNumber} (proper : number.fracValue < 10 ^ number.fracDigits) (mark : List Char)

include proper

/-- An exponent is applied exactly if it can be read, and it is an error otherwise. -/
theorem applyExponent_parts :
    (ReadableExponent (number.integer * 10 ^ number.fracDigits + number.fracValue) number.fracDigits mark →
      applyExponent number mark =
        .ok (shifted (number.integer * 10 ^ number.fracDigits + number.fracValue) number.fracDigits (exponentValue mark),
          (stripSign mark).2.dropWhile Char.isDigit)) ∧
    (¬ReadableExponent (number.integer * 10 ^ number.fracDigits + number.fracValue) number.fracDigits mark →
      ∃ error, applyExponent number mark = .error (.error error)) := by
  have digits : (stripSign mark).2.takeWhile Char.isDigit = exponentDigits mark := rfl
  unfold applyExponent
  dsimp only
  rw [digits]
  by_cases missing : exponentDigits mark = []
  · rw [if_pos missing]
    exact ⟨fun readable => absurd missing readable.1, fun _ => ⟨_, rfl⟩⟩
  rw [if_neg missing, parseUnsigned_digits missing isDigit_of_mem_takeWhile, ← digitsValue]
  by_cases little : digitsValue (exponentDigits mark) ≤ maxExponentMagnitude
  · have narrow : maxExponentMagnitude < i32Max + 1 := by decide
    obtain ⟨ok, failed⟩ := shift_parts proper (natAbs_exponentValue little)
    rw [if_pos (by omega)]
    dsimp only
    rw [if_neg (by omega), ← exponentValue]
    constructor
    · rintro ⟨_, _, shiftable⟩
      rw [ok shiftable]
      rfl
    · intro unreadable
      obtain ⟨error, shifting⟩ := failed fun shiftable => unreadable ⟨missing, little, shiftable⟩
      rw [shifting]
      exact ⟨error, rfl⟩
  · refine ⟨fun readable => absurd readable.2.1 little, fun _ => ?_⟩
    by_cases fits : digitsValue (exponentDigits mark) < i32Max + 1
    · rw [if_pos fits]
      dsimp only
      rw [if_pos (by omega)]
      exact ⟨_, rfl⟩
    · rw [if_neg fits]
      exact ⟨_, rfl⟩

end Exponent

/-- The number at the start of a text. -/
def numberOf (text : List Char) : ParsedNumber :=
  match exponentText text with
  | some mark => shifted (mantissa text) (places text) (exponentValue mark)
  | none => ⟨digitsValue (wholeText text), places text, digitsValue (fractionText text)⟩

theorem exponentText_some {text rest : List Char}
    (marked : (readFraction (text.dropWhile Char.isDigit)).2 = 'e' :: rest ∨
      (readFraction (text.dropWhile Char.isDigit)).2 = 'E' :: rest) : exponentText text = some rest := by
  unfold exponentText
  rcases marked with small | large
  · rewrite [small]
    rfl
  · rewrite [large]
    rfl

theorem exponentText_none {text : List Char}
    (small : ∀ rest, (readFraction (text.dropWhile Char.isDigit)).2 ≠ 'e' :: rest)
    (large : ∀ rest, (readFraction (text.dropWhile Char.isDigit)).2 ≠ 'E' :: rest) : exponentText text = none := by
  unfold exponentText
  split
  · rename_i rest same
    exact absurd same (small rest)
  · rename_i rest same
    exact absurd same (large rest)
  · rfl

theorem readExponent_plain {number : ParsedNumber} {behind : List Char} (small : ∀ rest, behind ≠ 'e' :: rest)
    (large : ∀ rest, behind ≠ 'E' :: rest) : readExponent number behind = .ok (number, behind) := by
  unfold readExponent
  split
  · exact absurd rfl (small _)
  · exact absurd rfl (large _)
  · rfl

/-- An exponent is applied exactly if the text behind the fraction starts with its mark. -/
theorem readExponent_eq (number : ParsedNumber) (text : List Char) :
    readExponent number (readFraction (text.dropWhile Char.isDigit)).2 =
      match exponentText text with
      | some mark => applyExponent number mark
      | none => .ok (number, (readFraction (text.dropWhile Char.isDigit)).2) := by
  by_cases small : ∃ rest, (readFraction (text.dropWhile Char.isDigit)).2 = 'e' :: rest
  · obtain ⟨rest, same⟩ := small
    rewrite [exponentText_some (.inl same), same]
    rfl
  by_cases large : ∃ rest, (readFraction (text.dropWhile Char.isDigit)).2 = 'E' :: rest
  · obtain ⟨rest, same⟩ := large
    rewrite [exponentText_some (.inr same), same]
    rfl
  · rewrite [exponentText_none (not_exists.mp small) (not_exists.mp large),
      readExponent_plain (not_exists.mp small) (not_exists.mp large)]
    rfl

theorem ok_bind {Value Result : Type} (value : Value) (next : Value → Except Failure Result) :
    ((.ok value : Except Failure Value) >>= next) = next value := rfl

theorem parseNumber_eq {text : List Char} (nonempty : text ≠ []) :
    parseNumber text =
      (readU64 (fractionText text) (.error (.syntaxAt ((wholeText text).length + 1) "Invalid fractional part")) >>=
        fun fracValue =>
          if wholeText text = [] ∧ places text = 0 then
            firstByte text >>= fun found => .error (.error (.syntaxAt 0 s!"Expected a number, found '{found}'"))
          else
            readU64 (wholeText text) (.error (.invalidInput "Number too large")) >>= fun integer =>
              match exponentText text with
              | some mark => applyExponent ⟨integer, places text, fracValue⟩ mark
              | none => .ok (⟨integer, places text, fracValue⟩, (readFraction (text.dropWhile Char.isDigit)).2)) := by
  simp only [← readExponent_eq]
  unfold parseNumber
  dsimp only
  rw [if_neg nonempty]
  rfl

/-- A text has digits if one of the two runs of them is not empty. -/
theorem no_digits {text : List Char} :
    (wholeText text = [] ∧ places text = 0) ↔ ¬(wholeText text ≠ [] ∨ fractionText text ≠ []) := by
  have count : places text = 0 ↔ fractionText text = [] := by
    have positive := @toU32_pos (fractionText text).length
    rw [List.length_pos_iff] at positive
    unfold places
    rw [← not_iff_not, ← ne_eq (fractionText text), ← positive, Nat.pos_iff_ne_zero]
  rw [count]
  tauto

/-- A text that starts with a number is read as that number. -/
theorem parseNumber_ok {text : List Char} (readable : Readable text) :
    parseNumber text = .ok (numberOf text, behindNumber text) := by
  have nonempty : text ≠ [] := by
    rintro rfl
    rcases readable.digits with whole | fraction
    · exact whole rfl
    · exact fraction rfl
  have digits : ¬(wholeText text = [] ∧ places text = 0) := fun missing => no_digits.mp missing readable.digits
  rw [parseNumber_eq nonempty, readU64_digits isDigit_of_mem_fractionText, if_pos readable.fraction,
    ok_bind, if_neg digits, readU64_digits isDigit_of_mem_wholeText, if_pos readable.whole, ok_bind]
  unfold numberOf behindNumber
  cases marked : exponentText text with
  | none => rfl
  | some mark =>
      exact (applyExponent_parts (fraction_proper readable.fraction) mark).1 (readable.exponent mark marked)

theorem no_digits_of_first {letter : Char} (rest : List Char) (noDigit : letter.isDigit = false)
    (noPoint : letter ≠ '.') :
    wholeText (letter :: rest) = [] ∧ fractionText (letter :: rest) = [] := by
  constructor
  · simp [wholeText, noDigit]
  · rw [fractionText, List.dropWhile_cons_of_neg (by simp [noDigit])]
    unfold readFraction
    split
    · rename_i same
      exact absurd (List.cons.inj same).1 noPoint
    · rfl

/-- A text that starts with a wide character starts with no digits. -/
theorem StartsWide.no_digits {text : List Char} (wide : StartsWide text) :
    wholeText text = [] ∧ fractionText text = [] := by
  obtain ⟨letter, rest, rfl, size⟩ := wide
  have large : 128 ≤ letter.toNat := by
    rcases utf8EncodeChar_cases letter with ⟨_, single, _⟩ | ⟨large, _⟩
    · omega
    · exact large
  apply no_digits_of_first
  · rw [Bool.eq_false_iff, ne_eq, isDigit_iff_range]
    omega
  · rintro rfl
    exact absurd large (by decide)

/-- A text that does not start with a number is an error, and panics exactly if its first character is wide. -/
theorem parseNumber_error {text : List Char} (unreadable : ¬Readable text) :
    (StartsWide text ∧ parseNumber text = .error .panicked) ∨
      (¬StartsWide text ∧ ∃ error, parseNumber text = .error (.error error)) := by
  by_cases nonempty : text = []
  · subst nonempty
    exact .inr ⟨by simp [StartsWide], _, rfl⟩
  rw [parseNumber_eq nonempty, readU64_digits isDigit_of_mem_fractionText]
  by_cases fraction : digitsValue (fractionText text) ≤ u64Max
  · rw [if_pos fraction, ok_bind]
    by_cases missing : wholeText text = [] ∧ places text = 0
    · rw [if_pos missing]
      obtain ⟨letter, rest, rfl⟩ := List.exists_cons_of_ne_nil nonempty
      have positive := letter.utf8Size_pos
      unfold firstByte
      dsimp only
      by_cases single : letter.utf8Size = 1
      · rw [if_pos single]
        refine .inr ⟨?_, _, rfl⟩
        rintro ⟨first, others, same, wide⟩
        obtain ⟨rfl, _⟩ := List.cons.inj same
        omega
      · rw [if_neg single]
        exact .inl ⟨⟨letter, rest, rfl, by omega⟩, rfl⟩
    · have narrow : ¬StartsWide text := fun wide =>
        missing (no_digits.mpr fun digits => digits.elim (fun whole => whole wide.no_digits.1) fun fraction =>
          fraction wide.no_digits.2)
      refine .inr ⟨narrow, ?_⟩
      rw [if_neg missing, readU64_digits isDigit_of_mem_wholeText]
      by_cases whole : digitsValue (wholeText text) ≤ u64Max
      · rw [if_pos whole, ok_bind]
        have digits : wholeText text ≠ [] ∨ fractionText text ≠ [] := by
          by_contra none
          exact missing (no_digits.mpr none)
        cases marked : exponentText text with
        | none => exact absurd ⟨digits, whole, fraction, fun mark same => by simp [marked] at same⟩ unreadable
        | some mark =>
            refine (applyExponent_parts (fraction_proper fraction) mark).2 fun exponent => unreadable ?_
            refine ⟨digits, whole, fraction, fun other same => ?_⟩
            rw [marked] at same
            cases same
            exact exponent
      · rw [if_neg whole]
        exact ⟨_, rfl⟩
  · rw [if_neg fraction]
    refine .inr ⟨fun wide => fraction ?_, _, rfl⟩
    rw [wide.no_digits.2]
    exact Nat.zero_le _

theorem parseNumber_fails {text : List Char} (unreadable : ¬Readable text) :
    ∃ failure, parseNumber text = .error failure := by
  rcases parseNumber_error unreadable with ⟨_, failed⟩ | ⟨_, _, failed⟩
  · exact ⟨_, failed⟩
  · exact ⟨_, failed⟩

end Numbers

section Segments

theorem stripUnit_le (input : List Char) {others : List (List Char × Nat)}
    (small : ∀ unit ∈ others, unit.2 ≤ nanosPerWeek) : (stripUnit input others).1 ≤ nanosPerWeek := by
  induction others with
  | nil => exact (by decide : nanosPerSecond ≤ nanosPerWeek)
  | cons unit others bounded =>
      unfold stripUnit
      split
      · exact small unit List.mem_cons_self
      · exact bounded fun other member => small other (List.mem_cons_of_mem _ member)

theorem parseTimeUnit_le (input : List Char) : (parseTimeUnit input).1 ≤ nanosPerWeek :=
  stripUnit_le input (by decide)

theorem numberOf_fits {text : List Char} (readable : Readable text) : (numberOf text).Fits := by
  unfold numberOf
  cases marked : exponentText text with
  | none => exact ⟨readable.whole, readable.fraction⟩
  | some mark => exact shifted_fits (readable.exponent mark marked).2.2

/-- The product of a number and a unit does not overflow. -/
theorem multiplyToNanos_bytes {number : ParsedNumber} (fits : number.Fits) {unitNanos : Nat}
    (small : unitNanos ≤ nanosPerWeek) :
    Bytes.multiplyToNanos number unitNanos = .ok (multiplyToNanos number unitNanos) := by
  have whole : number.integer * unitNanos ≤ u64Max * nanosPerWeek := Nat.mul_le_mul fits.1 small
  have fraction : number.fracValue * unitNanos ≤ u64Max * nanosPerWeek := Nat.mul_le_mul fits.2 small
  have wide : u64Max * nanosPerWeek + u64Max * nanosPerWeek ≤ u128Max := by decide
  have checked (value : Nat) (fits : value ≤ u128Max) : Bytes.checked value = .ok value := if_pos fits
  unfold Bytes.multiplyToNanos multiplyToNanos
  rw [checked _ (by omega), ok_bind]
  dsimp only
  by_cases fine : 0 < number.fracDigits ∧ 0 < number.fracValue
  · rw [if_pos fine, if_pos fine]
    by_cases denominator : 10 ^ number.fracDigits ≤ u128Max
    · have part : number.fracValue * unitNanos / 10 ^ number.fracDigits ≤ number.fracValue * unitNanos :=
        Nat.div_le_self _ _
      rw [if_pos denominator, if_pos denominator, if_pos (by omega), checked _ (by omega)]
    · rw [if_neg denominator, if_neg denominator]
      rfl
  · rw [if_neg fine, if_neg fine, Nat.add_zero, checked _ (by omega)]

section Steps

variable {remaining : List Char} (input : List Char) (total : Duration) (parsedAny : Bool)

theorem parseSegments_blank (blank : trimStart remaining = []) :
    parseSegments input total parsedAny remaining =
      if parsedAny then .ok total else invalidInput s!"Invalid duration: '{String.ofList input}'" := by
  rw [parseSegments]
  split
  · rfl
  · rename_i trimmed
    rw [blank] at trimmed
    cases trimmed

theorem parseSegments_next (readable : Readable (trimStart remaining)) :
    parseSegments input total parsedAny remaining =
      parseSegments input
        (total.saturatingAdd (nanosToDuration (multiplyToNanos (numberOf (trimStart remaining))
          (parseTimeUnit (behindNumber (trimStart remaining))).1)))
        true (parseTimeUnit (behindNumber (trimStart remaining))).2 := by
  have read := parseNumber_ok readable
  rw [parseSegments]
  split
  · rename_i blank
    rw [blank] at read
    cases read
  · rename_i trimmed
    rw [trimmed] at read ⊢
    split
    · rename_i failed
      rw [read] at failed
      cases failed
    · rename_i number rest other
      rw [read] at other
      obtain ⟨rfl, rfl⟩ := Prod.mk.inj (Except.ok.inj other)
      rfl

theorem parseSegments_stop (more : trimStart remaining ≠ []) {failure : Failure}
    (failed : parseNumber (trimStart remaining) = .error failure) :
    parseSegments input total parsedAny remaining = .error failure := by
  rw [parseSegments]
  split
  · rename_i blank
    exact absurd blank more
  · rename_i trimmed
    rw [trimmed] at failed
    split
    · rename_i other
      rw [failed] at other
      cases other
      rfl
    · rename_i other
      rw [failed] at other
      cases other

/-- What is behind a segment is shorter. -/
theorem behind_shorter (readable : Readable (trimStart remaining)) :
    (parseTimeUnit (behindNumber (trimStart remaining))).2.length < remaining.length := by
  have skipped : (trimStart remaining).length ≤ remaining.length := (List.dropWhile_suffix _).length_le
  have shorter := parseNumber_shorter (parseNumber_ok readable)
  have unit : (parseTimeUnit (behindNumber (trimStart remaining))).2.length ≤
      (behindNumber (trimStart remaining)).length := (stripUnit_suffix _ units).length_le
  omega

end Steps

/-- The segments are read alike at both levels, since a turn is left for each character. -/
theorem parseSegments_bytes (input : List Char) {turns : Nat} (total : Duration) (parsedAny : Bool)
    {remaining : List Char} (enough : remaining.length < turns) :
    Bytes.parseSegments input turns total parsedAny remaining = parseSegments input total parsedAny remaining := by
  induction turns generalizing total parsedAny remaining with
  | zero => omega
  | succ turns same =>
      rw [Bytes.parseSegments]
      by_cases blank : trimStart remaining = []
      · rw [parseSegments_blank _ _ _ blank, blank]
        rfl
      rw [if_neg (by simpa using blank), parseNumber_bytes]
      by_cases readable : Readable (trimStart remaining)
      · have shorter := behind_shorter readable
        rw [parseNumber_ok readable, ok_bind]
        dsimp only
        rw [multiplyToNanos_bytes (numberOf_fits readable) (parseTimeUnit_le _), ok_bind,
          parseSegments_next input total parsedAny readable]
        exact same _ _ (by omega)
      · obtain ⟨failure, failed⟩ := parseNumber_fails readable
        rw [parseSegments_stop input total parsedAny blank failed, failed]
        rfl

/-- The parser of durations is the same at both levels. -/
theorem parseDuration_bytes (input : List Char) : Bytes.parseDuration input = parseDuration input := by
  have compound (text : List Char) : Bytes.parseCompoundDuration text = parseCompoundDuration text :=
    parseSegments_bytes text _ _ (Nat.lt_succ_self _)
  unfold Bytes.parseDuration parseDuration
  rewrite [funext compound]
  rfl

/-- Some position that the segments reach starts with a wide character. -/
def ReachesWide (text : List Char) : Prop := ∃ position, Reaches text position ∧ StartsWide position

/-- The first position is reached, and behind a segment those that the rest reaches. -/
theorem reachesWide_iff (text : List Char) :
    ReachesWide text ↔ StartsWide (trimStart text) ∨
      (Readable (trimStart text) ∧ ReachesWide (parseTimeUnit (behindNumber (trimStart text))).2) := by
  constructor
  · rintro ⟨position, reached, wide⟩
    cases reached with
    | here => exact .inl wide
    | next readable later => exact .inr ⟨readable, position, later, wide⟩
  · rintro (wide | ⟨readable, position, later, wide⟩)
    · exact ⟨_, .here text, wide⟩
    · exact ⟨position, .next readable later, wide⟩

theorem Readable.not_startsWide {text : List Char} (readable : Readable text) : ¬StartsWide text := by
  intro wide
  rcases readable.digits with whole | fraction
  · exact whole wide.no_digits.1
  · exact fraction wide.no_digits.2

/-- Reading the segments panics exactly if they reach a wide character. -/
theorem parseSegments_panics_iff (input : List Char) (total : Duration) (parsedAny : Bool) (remaining : List Char) :
    parseSegments input total parsedAny remaining = .error .panicked ↔ ReachesWide remaining := by
  induction size : remaining.length using Nat.strong_induction_on generalizing total parsedAny remaining with
  | _ size panics =>
      rw [reachesWide_iff]
      by_cases readable : Readable (trimStart remaining)
      · have shorter := behind_shorter readable
        rw [parseSegments_next input total parsedAny readable, panics _ (by omega) _ _ _ rfl]
        simp [readable, readable.not_startsWide]
      by_cases blank : trimStart remaining = []
      · have narrow : ¬StartsWide (trimStart remaining) := by simp [blank, StartsWide]
        rw [parseSegments_blank _ _ _ blank]
        simp only [narrow, readable, false_and, or_self, iff_false]
        split_ifs
        · simp
        · simp [invalidInput]
      rcases parseNumber_error readable with ⟨wide, failed⟩ | ⟨narrow, error, failed⟩
      · rw [parseSegments_stop input total parsedAny blank failed]
        simp [wide]
      · rw [parseSegments_stop input total parsedAny blank failed]
        simp [narrow, readable]

theorem eq_of_toLower_i {letter : Char} (lower : letter.toLower = 'i') : letter = 'i' ∨ letter = 'I' := by
  unfold Char.toLower at lower
  split at lower
  · rename_i upper
    have value := congrArg Char.toNat lower
    have code : letter.toNat = letter.val.toNat := rfl
    have shifted : ∀ (point : UInt32) (valid : point.isValidChar), (⟨point, valid⟩ : Char).toNat = point.toNat :=
      fun _ _ => rfl
    simp only [UInt32.le_iff_toNat_le] at upper
    rw [shifted, UInt32.toNat_add] at value
    refine .inr (Char.toNat_inj.mp ?_)
    simp at value upper ⊢
    omega
  · exact .inl lower

/-- A text that is the name of infinity starts with a letter of one byte, so that nothing is read of it. -/
theorem infinity_narrow {text : List Char} {name : String} {others : List Char} (named : name.toList = 'i' :: others)
    (infinite : eqIgnoreAsciiCase text name = true) : ¬ReachesWide text := by
  simp only [eqIgnoreAsciiCase, named, beq_iff_eq, List.map_eq_cons_iff] at infinite
  obtain ⟨letter, rest, rfl, lower, _⟩ := infinite
  have letters := eq_of_toLower_i lower
  have plain : isWhitespace letter = false ∧ letter.isDigit = false ∧ letter ≠ '.' ∧ letter.utf8Size = 1 := by
    rcases letters with rfl | rfl
    · decide
    · decide
  obtain ⟨visible, noDigit, noPoint, single⟩ := plain
  have trimmed : trimStart (letter :: rest) = letter :: rest := by
    rw [trimStart, List.dropWhile_cons_of_neg (by simp [visible])]
  rw [reachesWide_iff, trimmed]
  rintro (⟨first, tail, same, wide⟩ | ⟨readable, _⟩)
  · obtain ⟨rfl, _⟩ := List.cons.inj same
    omega
  · obtain ⟨whole, fraction⟩ := no_digits_of_first rest noDigit noPoint
    exact readable.digits.elim (fun digits => digits whole) fun digits => digits fraction

/-- The text starts with a minus, or the segments of it reach no wide character. -/
def ReadsNarrow (input : List Char) : Prop :=
  (trim input).head? = some '-' ∨ ∀ position, Reaches (segmentText input) position → ¬StartsWide position

theorem returns_iff {Value : Type} {outcome : Except Failure Value} :
    ((∃ value, outcome = .ok value) ∨ ∃ error, outcome = .error (.error error)) ↔ outcome ≠ .error .panicked := by
  rcases outcome with (_ | _) | _
  · simp
  · simp
  · simp

theorem readsNarrow_iff {input : List Char} (positive : (trim input).head? ≠ some '-') :
    ReadsNarrow input ↔ ¬ReachesWide (segmentText input) := by
  simp [ReadsNarrow, ReachesWide, positive]

/-- A text that is not negative is infinite, or it is read for segments. -/
theorem parseDuration_eq {input : List Char} (positive : (trim input).head? ≠ some '-') :
    (segmentText input = [] ∧ ∃ error, parseDuration input = .error (.error error)) ∨
      parseDuration input =
        if eqIgnoreAsciiCase (segmentText input) "inf" || eqIgnoreAsciiCase (segmentText input) "infinity" then .ok .max
        else parseCompoundDuration (segmentText input) := by
  unfold parseDuration segmentText
  generalize trim input = trimmed at positive ⊢
  generalize segments : (match trimmed with | '+' :: rest => rest | _ => trimmed) = text
  split
  · exact .inl ⟨segments.symm, _, rfl⟩
  · exact absurd rfl positive
  · subst segments
    by_cases missing : (match trimmed with | '+' :: rest => rest | _ => trimmed) = []
    · exact .inl ⟨missing, _, if_pos missing⟩
    · exact .inr (if_neg missing)

/-- Parsing a duration returns a duration or an error exactly if the parser reaches no wide character. -/
theorem parsing_returns_when (input : List Char) :
    ((∃ duration, Bytes.parseDuration input = .ok duration) ∨
      ∃ error, Bytes.parseDuration input = .error (.error error)) ↔ ReadsNarrow input := by
  rw [returns_iff, parseDuration_bytes]
  by_cases negative : (trim input).head? = some '-'
  · obtain ⟨rest, trimmed⟩ := List.head?_eq_some_iff.mp negative
    refine iff_of_true ?_ (.inl negative)
    simp [parseDuration, trimmed, invalidInput]
  rw [readsNarrow_iff negative, not_iff_not]
  rcases parseDuration_eq negative with ⟨missing, error, failed⟩ | read
  · have narrow : ¬ReachesWide (segmentText input) := by
      rw [← parseSegments_panics_iff [] .zero true, missing, parseSegments_blank _ _ _ rfl]
      simp
    exact iff_of_false (by simp [failed]) narrow
  · rw [read]
    split_ifs with infinite
    · refine iff_of_false (by simp) ?_
      rcases Bool.or_eq_true_iff.mp infinite with short | long
      · exact infinity_narrow rfl short
      · exact infinity_narrow rfl long
    · exact parseSegments_panics_iff _ _ _ _

/-- A unit with the micro sign panics: the text behind the number is sliced inside of it. -/
theorem micro_sign_panics : ¬∀ input : List Char,
    (∃ duration, Bytes.parseDuration input = .ok duration) ∨
      ∃ error, Bytes.parseDuration input = .error (.error error) := by
  intro returns
  have panics : Bytes.parseDuration ['1', 'µ', 's'] = .error .panicked := by rfl
  exact returns_iff.mp (returns _) panics

end Segments

end Spicebench.DurationParse
