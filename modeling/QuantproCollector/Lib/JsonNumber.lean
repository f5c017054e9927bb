import QuantproCollector.Lib.JsonUnique
import QuantproCollector.Lib.JsonUpdate

/-!
# Natural numbers in JSON texts

A natural number below `10 ^ 21` is written as its decimal digits, so two of them have one text only
where they are one number.
-/

namespace Decimal

theorem mantissa_ofInt_nonneg (n : ℕ) : 0 ≤ (ofInt n).mantissa := by
  simpa [isNeg] using isNeg_ofInt_natCast n

theorem exponent_ofInt_nonneg (n : ℤ) : 0 ≤ (ofInt n).exponent := by
  simpa [isInteger] using isInteger_ofInt n

/-- The digits of the mantissa, with as many zeros as the exponent says, are those of the number. -/
theorem ofInt_natCast_eq (n : ℕ) :
    (ofInt n).mantissa.natAbs * 10 ^ (ofInt n).exponent.toNat = n := by
  have hvalue : (ofInt n).value = n := by simp [ofInt, value_ofParts]
  have hmantissa : ((ofInt n).mantissa.natAbs : ℤ) = (ofInt n).mantissa :=
    Int.natAbs_of_nonneg (mantissa_ofInt_nonneg n)
  have hexponent : ((ofInt n).exponent.toNat : ℤ) = (ofInt n).exponent :=
    Int.toNat_of_nonneg (exponent_ofInt_nonneg n)
  have hq : (((ofInt n).mantissa.natAbs * 10 ^ (ofInt n).exponent.toNat : ℕ) : ℚ) = (n : ℚ) := by
    rw [← hvalue, value]
    push_cast
    rw [← hexponent, zpow_natCast, Int.toNat_natCast]
    have hcast : (((ofInt n).mantissa.natAbs : ℤ) : ℚ) = ((ofInt n).mantissa : ℚ) := by
      rw [hmantissa]
    simpa using congrArg (· * (10 : ℚ) ^ (ofInt n).exponent.toNat) hcast
  exact_mod_cast hq

/-- The text of a number below `10 ^ 21` reads back as the number. -/
theorem ofDigitChars_text_ofInt {n : ℕ} (hn : n < 10 ^ 21) :
    Nat.ofDigitChars 10 (ofInt n).text 0 = n := by
  have heq := ofInt_natCast_eq n
  have hnonneg := mantissa_ofInt_nonneg n
  have hexponent := exponent_ofInt_nonneg n
  unfold text
  split_ifs with hzero hneg
  · rw [hzero] at heq
    simp only [Int.natAbs_zero, zero_mul] at heq
    rw [← heq]
    rfl
  · omega
  · have hpos : 0 < (ofInt n).mantissa.natAbs := Int.natAbs_pos.2 hzero
    have hsmall : (ofInt n).exponent.toNat < 21 := by
      by_contra hlarge
      have hpow : 10 ^ 21 ≤ 10 ^ (ofInt n).exponent.toNat :=
        Nat.pow_le_pow_right (by decide) (not_lt.1 hlarge)
      have := Nat.le_mul_of_pos_left (10 ^ (ofInt n).exponent.toNat) hpos
      omega
    have hlength : (digits (ofInt n).mantissa.natAbs).length ≤ 21 - (ofInt n).exponent.toNat := by
      refine (Nat.length_toDigits_le_iff (by decide) (by omega)).2 ?_
      refine Nat.lt_of_mul_lt_mul_right (a := 10 ^ (ofInt n).exponent.toNat) ?_
      rw [heq, ← pow_add, Nat.sub_add_cancel hsmall.le]
      exact hn
    have hzeros : ((digits (ofInt n).mantissa.natAbs).length + (ofInt n).exponent -
        (digits (ofInt n).mantissa.natAbs).length).toNat = (ofInt n).exponent.toNat := by omega
    have hlayout : layout (digits (ofInt n).mantissa.natAbs)
        ((digits (ofInt n).mantissa.natAbs).length + (ofInt n).exponent) =
        digits (ofInt n).mantissa.natAbs ++ List.replicate (ofInt n).exponent.toNat '0' := by
      simp only [layout]
      rw [if_pos (by omega), hzeros]
    rw [List.nil_append, hlayout, Nat.ofDigitChars_append, digits, Nat.ofDigitChars_ten_toDigits,
      Nat.ofDigitChars_replicate_zero, Nat.mul_comm]
    exact heq

theorem text_ofInt_inj {m n : ℕ} (hm : m < 10 ^ 21) (hn : n < 10 ^ 21)
    (h : (ofInt m).text = (ofInt n).text) : m = n := by
  rw [← ofDigitChars_text_ofInt hm, h, ofDigitChars_text_ofInt hn]

end Decimal

namespace Json

@[simp] theorem rebuiltText_num {x y : Decimal} :
    (num x).rebuiltText = (num y).rebuiltText ↔ x.text = y.text := by
  rw [rebuiltText_inj]
  simp [canonicalize, chars]

@[simp] theorem rebuiltText_bool {a b : Bool} :
    (bool a).rebuiltText = (bool b).rebuiltText ↔ a = b := by
  rw [rebuiltText_inj]
  cases a <;> cases b <;> simp [canonicalize, chars]

end Json
