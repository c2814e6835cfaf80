/-
This file compares how an integer is written as an `int` and as a `Decimal` equal to it.

Both are held to `sys.get_int_max_str_digits`, an int by how many digits it has and a
decimal by its adjusted exponent, which is the exponent of its leading digit and so one
less. Where both are written the digits are the same. The main result says over every
integer, every decimal equal to it of a non-negative exponent and every limit that the
one integer length the two differ at is one more than the limit.
-/

import BitcoinCoreRpc.RoundTrip

namespace BitcoinCoreRpc

open JsonText

/-- As many digits are written as there are. -/
theorem natText_length (number : Nat) : (natText number).length = digitCount number := by
  induction number using Nat.strong_induction_on with
  | _ number inductionHypothesis =>
    unfold natText digitCount at *
    by_cases small : number < 10
    · rw [decimalText_small small, Nat.log_of_lt small, List.length_singleton]
    · have large : 10 ≤ number := not_lt.mp small
      rw [decimalText_large large, List.length_append, List.length_singleton,
        inductionHypothesis _ (Nat.div_lt_self (by omega) (by decide)), Nat.log_div_base,
        Nat.sub_add_cancel (Nat.log_pos (by decide) large)]

/-- Each power of ten is one more digit. -/
theorem digitCount_mul_pow {number : Nat} (positive : 0 < number) (power : Nat) :
    digitCount (number * 10 ^ power) = digitCount number + power := by
  rw [← natText_length, ← natText_length, natText, natText, decimalText_mul_pow positive,
    List.length_append, List.length_replicate]

section Whole

variable {py : Interpreter} {number : Int} {negative : Bool} {coefficient : Nat} {exponent : Int}

/-- A decimal of a non-negative exponent equal to an integer is the integer's sign and a split of its
size. -/
theorem split_of_equal (whole : 0 ≤ exponent)
    (equal : (Decimal.finite negative coefficient exponent).toRat = some (number : ℚ)) :
    number = (if negative then -1 else 1) * ((coefficient * 10 ^ exponent.toNat : Nat) : Int) := by
  have power : (10 : ℚ) ^ exponent = 10 ^ exponent.toNat := by
    rw [← zpow_natCast, Int.toNat_of_nonneg whole]
  have value := Option.some.inj equal
  rw [power] at value
  have integers : ((number : ℚ)) =
      (((if negative then -1 else 1) * ((coefficient * 10 ^ exponent.toNat : Nat) : Int) : Int) : ℚ) := by
    rw [← value]
    cases negative <;> push_cast <;> ring
  exact_mod_cast integers

/-- Its digits are the integer's, and its adjusted exponent is one less than their count. -/
theorem digits_of_equal (nonzero : number ≠ 0) (whole : 0 ≤ exponent)
    (equal : (Decimal.finite negative coefficient exponent).toRat = some (number : ℚ)) :
    formatF negative coefficient exponent = intText number ∧
      (Decimal.finite negative coefficient exponent).adjusted = digitCount number.natAbs - 1 := by
  have split := split_of_equal whole equal
  have positive : 0 < coefficient := by
    refine Nat.pos_of_ne_zero fun zero => nonzero ?_
    rw [split, zero, Nat.zero_mul, Nat.cast_zero, mul_zero]
  have size : number.natAbs = coefficient * 10 ^ exponent.toNat := by
    rw [split]
    cases negative <;> simp [Int.natAbs_mul]
  have above : 0 < coefficient * 10 ^ exponent.toNat :=
    Nat.mul_pos positive (Nat.pow_pos (by decide))
  have sign : number < 0 ↔ negative = true := by
    rw [split]
    cases negative <;> simp only [Bool.false_eq_true, if_false, if_true, iff_false, iff_true] <;> omega
  constructor
  · unfold formatF intText natText
    rw [if_pos whole, if_neg positive.ne', size, decimalText_mul_pow positive]
    cases negative
    · rw [if_neg (fun below => nomatch sign.mp below)]
      rfl
    · rw [if_pos (sign.mpr rfl)]
      rfl
  · rw [size, digitCount_mul_pow positive]
    show exponent + (digitCount coefficient : Int) - 1 = _
    have back : ((exponent.toNat : Nat) : Int) = exponent := Int.toNat_of_nonneg whole
    push_cast
    rw [back]
    ring

theorem dumpsInt_eq (py : Interpreter) (number : Int) :
    dumpsInt py number =
      if py.maxStrDigits ≠ 0 ∧ py.maxStrDigits < digitCount number.natAbs then
        .error (intLimitError py)
      else .ok (intText number) := by
  unfold dumpsInt
  rw [natText_length]

theorem decimalJson_eq (py : Interpreter) (nonzero : number ≠ 0) (whole : 0 ≤ exponent)
    (equal : (Decimal.finite negative coefficient exponent).toRat = some (number : ℚ)) :
    decimalJson py (.finite negative coefficient exponent) =
      if py.maxStrDigits ≠ 0 ∧ py.maxStrDigits + 1 < digitCount number.natAbs then
        .error (exponentLimitError py)
      else .ok (intText number) := by
  obtain ⟨digits, adjusted⟩ := digits_of_equal nonzero whole equal
  have one : 1 ≤ digitCount number.natAbs := Nat.succ_pos _
  simp only [decimalJson, digits, adjusted]
  rw [abs_of_nonneg (by omega)]
  refine if_congr (and_congr_right fun _ => ?_) rfl rfl
  omega

/-- An integer other than zero is written or refused alike as an int and as a decimal equal to it of
a non-negative exponent, with the same digits, exactly where there is no limit or the integer does not
have one digit more than it: an int of that many is refused and a decimal is written. -/
theorem requestJson_whole_iff (py : Interpreter) (heap : Heap) (frames : Nat) (nonzero : number ≠ 0)
    (whole : 0 ≤ exponent)
    (equal : (Decimal.finite negative coefficient exponent).toRat = some (number : ℚ)) :
    (((∃ text, requestJson py heap (frames + 1) (.decimal (.finite negative coefficient exponent)) =
          .ok text) ↔ ∃ text, requestJson py heap (frames + 1) (.int number) = .ok text) ∧
        ∀ text text',
          requestJson py heap (frames + 1) (.decimal (.finite negative coefficient exponent)) =
            .ok text →
          requestJson py heap (frames + 1) (.int number) = .ok text' → text = text') ↔
      py.maxStrDigits = 0 ∨ digitCount number.natAbs ≠ py.maxStrDigits + 1 := by
  have int : requestJson py heap (frames + 1) (.int number) = dumpsInt py number := rfl
  have decimal : requestJson py heap (frames + 1) (.decimal (.finite negative coefficient exponent)) =
      decimalJson py (.finite negative coefficient exponent) := rfl
  rw [int, decimal, dumpsInt_eq, decimalJson_eq py nonzero whole equal]
  by_cases long : py.maxStrDigits ≠ 0 ∧ py.maxStrDigits < digitCount number.natAbs
  · rw [if_pos long]
    by_cases longer : py.maxStrDigits ≠ 0 ∧ py.maxStrDigits + 1 < digitCount number.natAbs
    · rw [if_pos longer]
      exact iff_of_true ⟨iff_of_false nofun nofun, nofun⟩ (.inr longer.2.ne')
    · rw [if_neg longer]
      refine iff_of_false (fun same => ?_) ?_
      · obtain ⟨_, written⟩ := same.1.mp ⟨_, rfl⟩
        cases written
      · rintro (unlimited | other)
        · exact long.1 unlimited
        · exact longer ⟨long.1, lt_of_le_of_ne long.2 other.symm⟩
  · have short : ¬ (py.maxStrDigits ≠ 0 ∧ py.maxStrDigits + 1 < digitCount number.natAbs) :=
      fun ⟨limited, longer⟩ => long ⟨limited, (Nat.lt_succ_self _).trans longer⟩
    rw [if_neg long, if_neg short]
    refine iff_of_true ⟨Iff.rfl, ?_⟩ ?_
    · rintro _ _ ⟨⟩ ⟨⟩
      rfl
    · by_contra both
      rw [not_or, not_not] at both
      exact long ⟨both.1, both.2 ▸ Nat.lt_succ_self _⟩

end Whole

/-- Ten, as an int and as `1E+1`. -/
theorem requestJson_whole_iff_ten :
    (∃ text, requestJson cpython [] 1 (.decimal (.finite false 1 1)) = .ok text) ↔
      ∃ text, requestJson cpython [] 1 (.int 10) = .ok text :=
  ((@requestJson_whole_iff 10 false 1 1 cpython [] 0 (by decide) (by decide)
    (by simp [Decimal.toRat])).mpr (.inr (by decide +kernel))).1

/-- Under a limit, the least integer of one digit more than it is refused as an int and written as a
decimal. -/
theorem requestJson_at_limit (py : Interpreter) (limited : py.maxStrDigits ≠ 0) :
    (Decimal.finite false 1 py.maxStrDigits).toRat = some (((10 : Int) ^ py.maxStrDigits : Int) : ℚ) ∧
    requestJson py [] 1 (.int (10 ^ py.maxStrDigits)) = .error (intLimitError py) ∧
    ∃ text, requestJson py [] 1 (.decimal (.finite false 1 py.maxStrDigits)) = .ok text ∧
      text.length = py.maxStrDigits + 1 := by
  have equal : (Decimal.finite false 1 py.maxStrDigits).toRat =
      some (((10 : Int) ^ py.maxStrDigits : Int) : ℚ) := by
    simp [Decimal.toRat]
  have nonzero : (10 : Int) ^ py.maxStrDigits ≠ 0 := pow_ne_zero _ (by decide)
  have size : ((10 : Int) ^ py.maxStrDigits).natAbs = 10 ^ py.maxStrDigits := Int.natAbs_pow _ _
  have digits : digitCount (10 ^ py.maxStrDigits) = py.maxStrDigits + 1 := by
    rw [digitCount, Nat.log_pow (by decide)]
  refine ⟨equal, ?_, intText (10 ^ py.maxStrDigits), ?_, ?_⟩
  · show dumpsInt py _ = _
    rw [dumpsInt_eq, size, digits, if_pos ⟨limited, Nat.lt_succ_self _⟩]
  · show decimalJson py (.finite false 1 py.maxStrDigits) = _
    rw [decimalJson_eq py nonzero (Int.natCast_nonneg _) equal, size, digits,
      if_neg fun longer => lt_irrefl _ longer.2]
  · unfold intText
    rw [if_neg (not_lt.mpr (pow_nonneg (by decide) _)), size, natText_length, digits]

/-- Under the default limit of 4300 digits, `1E+4300` is written in 4301 and the int it equals is
refused. -/
theorem requestJson_past_limit :
    cpython.maxStrDigits = 4300 ∧
    (Decimal.finite false 1 cpython.maxStrDigits).toRat =
      some (((10 : Int) ^ cpython.maxStrDigits : Int) : ℚ) ∧
    requestJson cpython [] 1 (.int (10 ^ cpython.maxStrDigits)) = .error (intLimitError cpython) ∧
    ∃ text, requestJson cpython [] 1 (.decimal (.finite false 1 cpython.maxStrDigits)) = .ok text ∧
      text.length = cpython.maxStrDigits + 1 :=
  ⟨rfl, requestJson_at_limit cpython (by decide)⟩

end BitcoinCoreRpc
