import Mathlib.Algebra.Ring.Int.Defs
import Mathlib.Data.Int.Order.Basic
import Mathlib.Tactic.Positivity
import Mathlib.Tactic.NormNum

/-! # Signed words — arithmetic that may not overflow

    A signed word of `w` bits is an integer together with the fact that it is
    one of the `2 ^ w` values the type has.  C leaves an operation whose exact
    result is none of them undefined; here it has no result. -/

namespace SignedInt

variable {w : Nat}

/-- `z` is a value of the signed type of `w` bits. -/
def Fits (w : Nat) (z : Int) : Prop := -(2 ^ (w - 1)) ≤ z ∧ z < 2 ^ (w - 1)

instance (w : Nat) (z : Int) : Decidable (Fits w z) :=
  inferInstanceAs (Decidable (_ ∧ _))

/-- A signed word of `w` bits. -/
structure SInt (w : Nat) where
  val : Int
  fits : Fits w val

/-- The largest signed word of `w` bits. -/
def maxVal (w : Nat) : Int := 2 ^ (w - 1) - 1

theorem SInt.ext {a b : SInt w} (h : a.val = b.val) : a = b := by
  cases a
  cases b
  cases h
  rfl

instance : DecidableEq (SInt w) := fun a b =>
  decidable_of_iff (a.val = b.val) ⟨SInt.ext, congrArg SInt.val⟩

/-- The word of an exact result, if it has one. -/
def checked (w : Nat) (z : Int) : Option (SInt w) :=
  if h : Fits w z then some ⟨z, h⟩ else none

namespace SInt

def add (a b : SInt w) : Option (SInt w) := checked w (a.val + b.val)

def sub (a b : SInt w) : Option (SInt w) := checked w (a.val - b.val)

def mul (a b : SInt w) : Option (SInt w) := checked w (a.val * b.val)

/-- C's division truncates towards zero. -/
def div (a b : SInt w) : Option (SInt w) :=
  if b.val = 0 then none else checked w (a.val.tdiv b.val)

/-- A left shift of a negative word, or by its width or more, is undefined too. -/
def shl (a : SInt w) (shift : Nat) : Option (SInt w) :=
  if a.val < 0 ∨ w ≤ shift then none else checked w (a.val * 2 ^ shift)

end SInt

/-! ## When an operation has a result -/

section Results

variable {a b : SInt w} {z : Int}

theorem checked_of_fits (h : Fits w z) : checked w z = some ⟨z, h⟩ := dif_pos h

theorem checked_of_not_fits (h : ¬ Fits w z) : checked w z = none := dif_neg h

/-- A number that is not negative fits when a larger one does. -/
theorem Fits.of_le {y : Int} (h : Fits w z) (hy : 0 ≤ y) (hle : y ≤ z) : Fits w y := by
  have hpos : (0 : Int) ≤ 2 ^ (w - 1) := by positivity
  exact ⟨(neg_nonpos.mpr hpos).trans hy, hle.trans_lt h.2⟩

/-- A natural number fits when it is below half of the range. -/
theorem fits_natCast {v : Nat} : Fits w v ↔ v < 2 ^ (w - 1) := by
  have hpos : (0 : Int) ≤ 2 ^ (w - 1) := by positivity
  constructor
  · intro h
    exact_mod_cast h.2
  · intro h
    exact ⟨(neg_nonpos.mpr hpos).trans (Int.natCast_nonneg v), by exact_mod_cast h⟩

theorem add_eq_some (h : Fits w z) (hz : a.val + b.val = z) : a.add b = some ⟨z, h⟩ := by
  rw [SInt.add, hz, checked_of_fits h]

theorem sub_eq_some (h : Fits w z) (hz : a.val - b.val = z) : a.sub b = some ⟨z, h⟩ := by
  rw [SInt.sub, hz, checked_of_fits h]

theorem mul_eq_some (h : Fits w z) (hz : a.val * b.val = z) : a.mul b = some ⟨z, h⟩ := by
  rw [SInt.mul, hz, checked_of_fits h]

theorem div_eq_some (hb : b.val ≠ 0) (h : Fits w z) (hz : a.val.tdiv b.val = z) :
    a.div b = some ⟨z, h⟩ := by
  rw [SInt.div, if_neg hb, hz, checked_of_fits h]

theorem shl_eq_checked {shift : Nat} (ha : 0 ≤ a.val) (hshift : shift < w) :
    a.shl shift = checked w (a.val * 2 ^ shift) := by
  rw [SInt.shl, if_neg]
  rintro (hneg | hwide)
  · exact absurd ha (not_le.mpr hneg)
  · exact absurd hshift (Nat.not_lt.mpr hwide)

end Results

theorem fits_32 {z : Int} : Fits 32 z ↔ -2147483648 ≤ z ∧ z < 2147483648 := Iff.rfl

theorem maxVal_32 : maxVal 32 = 2147483647 := rfl

end SignedInt
