/-
This file gives the tokens of the grammar their meaning, as a library: the natural
number a run of digits stands for, the coefficient and the exponent of a number, and
the code points of a string, where two escapes that are the halves of a surrogate
pair stand for one. It also writes a natural number as the digits that stand for it.
-/

import BitcoinCoreRpc.Grammar

namespace JsonText

/-! ### Numbers -/

/-- The number a run of digits stands for. -/
def digitsValue (codes : List Nat) : Nat :=
  codes.foldl (fun value code => value * 10 + (code - 0x30)) 0

theorem foldl_digits (codes : List Nat) (start : Nat) :
    codes.foldl (fun value code => value * 10 + (code - 0x30)) start =
      start * 10 ^ codes.length + digitsValue codes := by
  induction codes generalizing start with
  | nil => simp [digitsValue]
  | cons code rest inductionHypothesis =>
    simp only [digitsValue, List.foldl_cons, List.length_cons] at inductionHypothesis ⊢
    rw [inductionHypothesis, inductionHypothesis (0 * 10 + (code - 0x30))]
    ring

theorem digitsValue_append (first second : List Nat) :
    digitsValue (first ++ second) = digitsValue first * 10 ^ second.length + digitsValue second := by
  rw [digitsValue, List.foldl_append, foldl_digits]
  rfl

/-- A number without a fraction and an exponent. -/
def Number.isInt (number : Number) : Bool :=
  number.frac.isNone && number.exp.isNone

def fracCodes : Option Digits → List Nat
  | none => []
  | some digits => digits.codes

/-- The value of the exponent part, `0` where there is none. -/
def expValue : Option Exponent → Int
  | none => 0
  | some exponent =>
    if exponent.sign = some 0x2D then -(digitsValue exponent.digits.codes : Int)
    else digitsValue exponent.digits.codes

/-- The digits of a number before its exponent, read as one natural number. -/
def Number.coefficient (number : Number) : Nat :=
  digitsValue (number.int.codes ++ fracCodes number.frac)

/-- The power of ten the coefficient is scaled by. -/
def Number.exponent (number : Number) : Int :=
  expValue number.exp - (fracCodes number.frac).length

/-- The integer a number without a fraction and an exponent stands for. -/
def Number.intValue (number : Number) : Int :=
  if number.minus then -(digitsValue number.int.codes : Int) else digitsValue number.int.codes

/-! ### The digits of a number -/

/-- The decimal digits of a natural number, the first of them not `0` but for `0` itself. -/
def decimalText (number : Nat) : List Nat :=
  (Nat.toDigits 10 number).map Char.toNat

theorem digitChar_toNat {digit : Nat} (small : digit < 10) :
    (Nat.digitChar digit).toNat = 0x30 + digit := by
  interval_cases digit <;> rfl

theorem decimalText_small {number : Nat} (small : number < 10) :
    decimalText number = [0x30 + number] := by
  rw [decimalText, Nat.toDigits_of_lt_base small, List.map_singleton, digitChar_toNat small]

theorem decimalText_large {number : Nat} (large : 10 ≤ number) :
    decimalText number = decimalText (number / 10) ++ [0x30 + number % 10] := by
  rw [decimalText, Nat.toDigits_of_base_le (by decide) large, List.map_append, List.map_singleton,
    digitChar_toNat (Nat.mod_lt _ (by decide))]
  rfl

theorem decimalText_ne_nil (number : Nat) : decimalText number ≠ [] := by
  simp [decimalText]

theorem decimalText_digits (number : Nat) : ∀ code ∈ decimalText number, isDigit code = true := by
  induction number using Nat.strong_induction_on with
  | _ number inductionHypothesis =>
    by_cases small : number < 10
    · simp only [decimalText_small small, List.mem_singleton, forall_eq, isDigit, Bool.and_eq_true,
        decide_eq_true_eq]
      omega
    · intro code member
      rw [decimalText_large (by omega), List.mem_append, List.mem_singleton] at member
      rcases member with earlier | rfl
      · exact inductionHypothesis _ (by omega) code earlier
      · simp only [isDigit, Bool.and_eq_true, decide_eq_true_eq]
        omega

theorem decimalText_head {number : Nat} (positive : 0 < number) :
    ∃ code, (decimalText number).head? = some code ∧ code ≠ 0x30 := by
  induction number using Nat.strong_induction_on with
  | _ number inductionHypothesis =>
    by_cases small : number < 10
    · exact ⟨0x30 + number, by rw [decimalText_small small]; rfl, by omega⟩
    · obtain ⟨code, first, nonzero⟩ := inductionHypothesis (number / 10) (by omega) (by omega)
      exact ⟨code, by rw [decimalText_large (by omega), List.head?_append, first]; rfl, nonzero⟩

theorem digitsValue_decimalText (number : Nat) : digitsValue (decimalText number) = number := by
  induction number using Nat.strong_induction_on with
  | _ number inductionHypothesis =>
    by_cases small : number < 10
    · rw [decimalText_small small]
      simp [digitsValue]
    · rw [decimalText_large (by omega), digitsValue_append, inductionHypothesis _ (by omega)]
      simp only [digitsValue, List.foldl_cons, List.foldl_nil, List.length_singleton, pow_one]
      omega

/-- Each power of ten writes one more zero. -/
theorem decimalText_mul_pow {number : Nat} (positive : 0 < number) (power : Nat) :
    decimalText (number * 10 ^ power) = decimalText number ++ List.replicate power 0x30 := by
  induction power with
  | zero => simp
  | succ power inductionHypothesis =>
    have large : 10 ≤ number * 10 ^ (power + 1) := by
      have := Nat.mul_le_mul positive (Nat.one_le_pow power 10 (by decide))
      rw [pow_succ, ← Nat.mul_assoc]
      omega
    have quotient : number * 10 ^ (power + 1) / 10 = number * 10 ^ power := by
      rw [pow_succ, ← Nat.mul_assoc, Nat.mul_div_cancel _ (by decide)]
    have remainder : number * 10 ^ (power + 1) % 10 = 0 := by
      rw [pow_succ, ← Nat.mul_assoc, Nat.mul_mod_left]
    rw [decimalText_large large, quotient, remainder, inductionHypothesis, List.append_assoc,
      List.replicate_succ']

theorem digitsValue_replicate (count : Nat) : digitsValue (List.replicate count 0x30) = 0 := by
  induction count with
  | zero => rfl
  | succ count inductionHypothesis =>
    rw [List.replicate_succ', digitsValue_append, inductionHypothesis]
    simp [digitsValue]

/-- A natural number as the integer part of a number token. -/
def integerOf (number : Nat) : Integer where
  codes := decimalText number
  nonempty := decimalText_ne_nil number
  digits := decimalText_digits number
  canonical := by
    rcases Nat.eq_zero_or_pos number with rfl | positive
    · exact .inl rfl
    · obtain ⟨code, first, nonzero⟩ := decimalText_head positive
      rw [first]
      exact .inr fun same => nonzero (Option.some.inj same)

/-! ### Strings -/

def hexValue (code : Nat) : Nat :=
  if code ≤ 0x39 then code - 0x30 else if code ≤ 0x46 then code - 0x37 else code - 0x57

/-- What a backslash before a code stands for. -/
def escapeValue : Nat → Nat
  | 0x62 => 0x08
  | 0x66 => 0x0C
  | 0x6E => 0x0A
  | 0x72 => 0x0D
  | 0x74 => 0x09
  | code => code

def isHigh (code : Nat) : Bool :=
  0xD800 ≤ code && code ≤ 0xDBFF

def isLow (code : Nat) : Bool :=
  0xDC00 ≤ code && code ≤ 0xDFFF

/-- The code point two surrogates stand for. -/
def joined (high low : Nat) : Nat :=
  0x10000 + (high - 0xD800) * 0x400 + (low - 0xDC00)

/-- The code an escape of four hexadecimal digits stands for. -/
def hexCode (first second third fourth : Nat) : Nat :=
  ((hexValue first * 16 + hexValue second) * 16 + hexValue third) * 16 + hexValue fourth

/-- The code of one piece, and whether four hexadecimal digits wrote it. -/
def Piece.code : Piece → Nat × Bool
  | .plain code _ => (code, false)
  | .escape code _ => (escapeValue code, false)
  | .hex first second third fourth _ => (hexCode first second third fourth, true)

/-- A high half and a low half side by side, each written in hexadecimal, joined into one. -/
def joinHalves : List (Nat × Bool) → List Nat
  | [] => []
  | [(code, _)] => [code]
  | (code, coded) :: (next, nextCoded) :: rest =>
    if coded && isHigh code && nextCoded && isLow next then joined code next :: joinHalves rest
    else code :: joinHalves ((next, nextCoded) :: rest)

/-- The code points a string stands for. -/
def stringValue (pieces : List Piece) : List Nat :=
  joinHalves (pieces.map Piece.code)

/-- No more than two codes are joined into one. -/
theorem length_le_joinHalves (codes : List (Nat × Bool)) :
    codes.length ≤ 2 * (joinHalves codes).length := by
  induction codes using joinHalves.induct with
  | case1 => exact Nat.zero_le _
  | case2 code coded => simp [joinHalves]
  | case3 code coded next nextCoded rest joins inductionHypothesis =>
    rw [joinHalves, if_pos joins]
    simp only [List.length_cons]
    omega
  | case4 code coded next nextCoded rest joins inductionHypothesis =>
    rw [joinHalves, if_neg joins]
    simp only [List.length_cons] at inductionHypothesis ⊢
    omega

end JsonText
