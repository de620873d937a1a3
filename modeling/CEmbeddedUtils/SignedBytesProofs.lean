import CEmbeddedUtils.LittleEndianProofs
import CEmbeddedUtils.SignedIntProofs
import Mathlib.Tactic.Ring

/-! # Shifted bytes in signed words — when their sum is defined

    A number read as `((T)b₀ << 0) + ((T)b₁ << 8) + …` for a signed type `T` is
    computed in the type that `T` is promoted to, and no shift and no sum on
    the way may leave the range of that.  None does exactly when the number
    itself is in the range. -/

namespace LittleEndian

open SignedInt

variable {n : Nat}

/-- A byte fits a promoted word. -/
theorem fits_byte (n : Nat) (byte : Byte) : Fits (promotedBits n) byte.toNat := by
  have hbits : 8 ≤ promotedBits n - 1 :=
    Nat.le_sub_one_of_lt (Nat.lt_of_lt_of_le (by decide) (Nat.le_max_right n 32))
  exact fits_natCast.mpr (Nat.lt_of_lt_of_le byte.isLt (Nat.pow_le_pow_right (by decide) hbits))

/-- `(T)byte` for a signed type `T` of `n` bits, more than a byte has, promoted. -/
def promotedByte (n : Nat) (byte : Byte) : SInt (promotedBits n) := ⟨byte.toNat, fits_byte n byte⟩

/-- `sum + ((T)byte << shift) + …`, each operation if it has a result. -/
def checkedAddBytes (n : Nat) (sum : SInt (promotedBits n)) :
    List (Byte × Nat) → Option (SInt (promotedBits n))
  | [] => some sum
  | (byte, shift) :: rest => do
      let term ← (promotedByte n byte).shl shift
      let sum' ← sum.add term
      checkedAddBytes n sum' rest

/-- `((T)byte << shift) + …`, each operation if it has a result. -/
def checkedGather (n : Nat) : List (Byte × Nat) → Option (SInt (promotedBits n))
  | [] => checked _ 0
  | (byte, shift) :: rest => do
      let term ← (promotedByte n byte).shl shift
      checkedAddBytes n term rest

/-- A byte shifted inside the word is its multiple, if this fits. -/
theorem shl_promotedByte (byte : Byte) {shift : Nat} (hshift : shift < promotedBits n) :
    (promotedByte n byte).shl shift
      = checked (promotedBits n) ((byte.toNat * 2 ^ shift : Nat) : Int) := by
  rw [shl_eq_checked (Int.natCast_nonneg _) hshift]
  push_cast
  rfl

/-- The value of bytes from a shift on. -/
theorem value_cons_mul (byte : Byte) (bytes : List Byte) (shift : Nat) :
    value (byte :: bytes) * 2 ^ shift
      = byte.toNat * 2 ^ shift + value bytes * 2 ^ (shift + 8) := by
  rw [value_cons, pow_add]
  ring

/-- **THE CHECKED SUM** of a partial sum and bytes is the exact one, if this fits:
    what is added does not bring a sum back into the range. -/
theorem checkedAddBytes_eq (bytes : List Byte) {shift : Nat} {sum : SInt (promotedBits n)} {v : Nat}
    (hsum : sum.val = v) (hshift : shift + 8 * bytes.length ≤ promotedBits n) :
    checkedAddBytes n sum (bytes.zip (byteShifts bytes.length shift))
      = checked (promotedBits n) ((v + value bytes * 2 ^ shift : Nat) : Int) := by
  induction bytes generalizing shift sum v with
  | nil =>
      rw [value_nil, Nat.zero_mul, Nat.add_zero, ← hsum, checked_of_fits sum.fits]
      rfl
  | cons byte bytes ih =>
      rw [List.length_cons] at hshift
      rw [value_cons_mul, ← Nat.add_assoc, List.length_cons, byteShifts, List.zip_cons_cons,
        checkedAddBytes, shl_promotedByte byte (by omega)]
      by_cases hterm : Fits (promotedBits n) ((byte.toNat * 2 ^ shift : Nat) : Int)
      · rw [checked_of_fits hterm]
        show (sum.add _).bind _ = _
        rw [SInt.add, hsum, ← Nat.cast_add]
        by_cases hnext : Fits (promotedBits n) ((v + byte.toNat * 2 ^ shift : Nat) : Int)
        · rw [checked_of_fits hnext]
          exact ih rfl (by omega)
        · rw [checked_of_not_fits hnext, checked_of_not_fits]
          · rfl
          · intro htotal
            exact hnext
              (htotal.of_le (Int.natCast_nonneg _) (by exact_mod_cast Nat.le_add_right _ _))
      · rw [checked_of_not_fits hterm, checked_of_not_fits]
        · rfl
        · intro htotal
          refine hterm (htotal.of_le (Int.natCast_nonneg _) ?_)
          exact_mod_cast (Nat.le_add_left _ v).trans (Nat.le_add_right _ _)

/-- **THE CHECKED NUMBER** of bytes is their value, if this fits. -/
theorem checkedGather_eq (bytes : List Byte) (hlength : 8 * bytes.length ≤ promotedBits n) :
    checkedGather n (bytes.zip (byteShifts bytes.length 0))
      = checked (promotedBits n) (value bytes) := by
  cases bytes with
  | nil => rfl
  | cons byte bytes =>
      have hfirst := fits_byte n byte
      have hpos : 0 < promotedBits n := Nat.lt_of_lt_of_le (by decide) (Nat.le_max_right n 32)
      rw [List.length_cons] at hlength
      rw [List.length_cons, byteShifts, List.zip_cons_cons, checkedGather,
        shl_promotedByte byte hpos, pow_zero, Nat.mul_one, checked_of_fits hfirst]
      show checkedAddBytes n _ _ = _
      rw [checkedAddBytes_eq bytes rfl (by omega), value_cons, Nat.zero_add, Nat.mul_comm 256]
      rfl

/-- As many bytes as the word has are in its range if the top bit is clear. -/
theorem fits_value_iff {bits : Nat} (bytes : List Byte) (top : Byte)
    (hbits : bits = 8 * (bytes.length + 1)) :
    Fits bits (value (bytes ++ [top]) : Int) ↔ top.toNat < 128 := by
  have hlow := value_lt bytes
  have hhalf : 2 ^ (bits - 1) = 128 * 256 ^ bytes.length := by
    rw [hbits, show 8 * (bytes.length + 1) - 1 = 7 + 8 * bytes.length by omega, pow_add,
      pow_mul 2 8]
    rfl
  rw [fits_natCast, value_append_singleton, hhalf]
  constructor
  · intro h
    by_contra htop
    have hle := Nat.mul_le_mul_right (256 ^ bytes.length) (Nat.le_of_not_lt htop)
    omega
  · intro htop
    have hle := Nat.mul_le_mul_right (256 ^ bytes.length) (Nat.succ_le_of_lt htop)
    rw [Nat.succ_mul] at hle
    omega

end LittleEndian
