import CEmbeddedUtils.SizeTProofs

/-! # Powers of two and masks

    `numeric_ops_is_power_2_sz` tests for a power of two by clearing the lowest
    set bit.  A size it accepts, less one, is a mask, and masking is then taking
    the remainder. -/

namespace CembNumericOps

variable {w : Nat}

def numericOpsIsPower2Sz (i : SizeT w) : Bool :=
  decide (i &&& (i - 1) = 0) && decide (i ≠ 0)

/-- The predecessor of a nonzero word does not wrap. -/
theorem toNat_pred {i : SizeT w} (h : 0 < i.toNat) : (i - 1).toNat = i.toNat - 1 := by
  have hone : (1 : SizeT w).toNat = 1 :=
    SizeT.toNat_one (SizeT.width_pos (a := (0 : SizeT w)) (b := i) (by simpa using h))
  rw [SizeT.toNat_sub_of_le (by rw [hone]; exact h), hone]

/-- **MASKING IS THE REMAINDER** when the size is a power of two. -/
theorem toNat_and_pred {size : SizeT w} {k : Nat} (hpow : size.toNat = 2 ^ k)
    (i : SizeT w) : (i &&& (size - 1)).toNat = i.toNat % size.toNat := by
  have hpos : 0 < size.toNat := by
    rw [hpow]
    exact Nat.two_pow_pos k
  rw [BitVec.toNat_and, toNat_pred hpos, hpow, Nat.and_two_pow_sub_one_eq_mod]

/-- Every power of two passes the test. -/
theorem isPower2Sz_of_pow {size : SizeT w} {k : Nat} (hpow : size.toNat = 2 ^ k) :
    numericOpsIsPower2Sz size = true := by
  have hand : size &&& (size - 1) = 0 := by
    rw [← SizeT.toNat_eq_zero, toNat_and_pred hpow, Nat.mod_self]
  have hne : size ≠ 0 := by
    rw [ne_eq, ← SizeT.toNat_eq_zero, hpow]
    exact Nat.ne_of_gt (Nat.two_pow_pos k)
  rw [numericOpsIsPower2Sz, decide_eq_true hand, decide_eq_true hne]
  rfl

/-- **THE TEST IS FOR POWERS OF TWO**, at any width: a word passes exactly when it is
    one.  At zero `i - 1` wraps, and the second comparison decides. -/
theorem isPower2Sz_iff {i : SizeT w} :
    numericOpsIsPower2Sz i = true ↔ ∃ k, i.toNat = 2 ^ k := by
  constructor
  · intro htest
    obtain ⟨hand, hne⟩ := Bool.and_eq_true_iff.mp htest
    have hnonzero : i.toNat ≠ 0 := mt SizeT.toNat_eq_zero.mp (of_decide_eq_true hne)
    have hcleared : i.toNat &&& (i.toNat - 1) = 0 := by
      rw [← toNat_pred (Nat.pos_of_ne_zero hnonzero), ← BitVec.toNat_and,
        of_decide_eq_true hand]
      rfl
    exact (Nat.and_sub_one_eq_zero_iff_isPowerOfTwo hnonzero).mp hcleared
  · rintro ⟨k, hpow⟩
    exact isPower2Sz_of_pow hpow

/-- A power of two that fits a word divides the number of words, so that
    remainders survive the wrap of a counter. -/
theorem dvd_two_pow {size : SizeT w} {k : Nat} (hpow : size.toNat = 2 ^ k) :
    size.toNat ∣ 2 ^ w := by
  have hlt : 2 ^ k < 2 ^ w := hpow ▸ size.isLt
  rw [hpow]
  exact Nat.pow_dvd_pow 2 (Nat.le_of_lt ((Nat.pow_lt_pow_iff_right (by omega)).mp hlt))

end CembNumericOps
