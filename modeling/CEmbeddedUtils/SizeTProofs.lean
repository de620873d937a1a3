import Mathlib.Data.Nat.Basic
import Mathlib.Tactic.Ring

/-! # `size_t` — unsigned words of any width

    `size_t` is a word of `w` bits whose sums, differences and products wrap
    modulo `2 ^ w`.  The lemmas say when the wrapped result is the exact one. -/

/-- `size_t` on a machine where it has `w` bits. -/
abbrev SizeT (w : Nat) := BitVec w

namespace SizeT

variable {w : Nat}

/-- A sum that stays below `2 ^ w` is exact. -/
theorem toNat_add_of_lt {a b : SizeT w} (h : a.toNat + b.toNat < 2 ^ w) :
    (a + b).toNat = a.toNat + b.toNat := by
  rw [BitVec.toNat_add, Nat.mod_eq_of_lt h]

/-- A difference is exact when it does not go below zero. -/
theorem toNat_sub_of_le {a b : SizeT w} (h : b.toNat ≤ a.toNat) :
    (a - b).toNat = a.toNat - b.toNat :=
  BitVec.toNat_sub_of_le (BitVec.le_def.mpr h)

/-- A product that stays below `2 ^ w` is exact. -/
theorem toNat_mul_of_lt {a b : SizeT w} (h : a.toNat * b.toNat < 2 ^ w) :
    (a * b).toNat = a.toNat * b.toNat := by
  rw [BitVec.toNat_mul, Nat.mod_eq_of_lt h]

/-- A word of a number below `2 ^ w` is that number. -/
theorem toNat_ofNat_of_lt {n : Nat} (h : n < 2 ^ w) : (BitVec.ofNat w n : SizeT w).toNat = n := by
  rw [BitVec.toNat_ofNat, Nat.mod_eq_of_lt h]

/-- Twice a word and a bit more is exact below `2 ^ w`. -/
theorem toNat_two_mul_add_of_lt {n k : Nat} (h : 2 * n + k < 2 ^ w) :
    (2 * BitVec.ofNat w n + BitVec.ofNat w k : SizeT w).toNat = 2 * n + k := by
  have hword : (2 * BitVec.ofNat w n + BitVec.ofNat w k : SizeT w)
      = BitVec.ofNat w (2 * n + k) := by
    rw [BitVec.ofNat_add, BitVec.ofNat_mul]
    rfl
  rw [hword, toNat_ofNat_of_lt h]

/-- The word one, on a machine with at least one bit. -/
theorem toNat_one (h : 0 < w) : (1 : SizeT w).toNat = 1 := by
  show (BitVec.ofNat w 1).toNat = 1
  rw [BitVec.toNat_ofNat, Nat.mod_eq_of_lt (Nat.one_lt_two_pow (by omega))]

/-- A word above another needs at least one bit. -/
theorem width_pos {a b : SizeT w} (h : a.toNat < b.toNat) : 0 < w := by
  rcases Nat.eq_zero_or_pos w with rfl | hw
  · have hb := b.isLt
    omega
  · exact hw

theorem toNat_eq_zero {a : SizeT w} : a.toNat = 0 ↔ a = 0 := by
  constructor
  · intro h
    apply BitVec.eq_of_toNat_eq
    simpa using h
  · rintro rfl
    simp

end SizeT
