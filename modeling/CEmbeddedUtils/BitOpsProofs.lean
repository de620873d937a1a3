import CEmbeddedUtils.LanesProofs
import CEmbeddedUtils.SizeTProofs

/-! # The Hamming weight of a word

    `bit_ops_hamming_weight_u32` folds the 32 bits of its argument into lanes of two,
    four and eight bits, each fold written in the shortest way that its lanes allow,
    and adds the four bytes by a multiplication that brings all of them into the top
    byte.  Each line of the source is one fold; the sum of the lanes is the number of
    one bits all the way. -/

namespace CembBitOps

open Lanes

def bitOpsHammingWeightU32 (i : BitVec 32) : BitVec 32 :=
  let i := i - ((i >>> 1) &&& 0x55555555#32)
  let i := (i &&& 0x33333333#32) + ((i >>> 2) &&& 0x33333333#32)
  let i := (i + (i >>> 4)) &&& 0x0F0F0F0F#32
  (i * 0x01010101#32) >>> 24

/-- The positions at which a word has a one bit. -/
def oneBits {w : Nat} (i : BitVec w) : Finset (Fin w) :=
  Finset.univ.filter fun k => i.getLsbD k = true

/-! ## One line at a time -/

/-- Pairs: every lane of two bits has the number of its bits. -/
theorem toNat_pairs (i : BitVec 32) :
    (i - ((i >>> 1) &&& 0x55555555#32)).toNat = foldPairs 1 16 i.toNat := by
  obtain ⟨hle, hfold⟩ := sub_eq_foldPairs (m := 16) i.isLt
  have hmasked : ((i >>> 1) &&& 0x55555555#32).toNat = i.toNat / 2 &&& lowMask 1 16 := by
    rw [BitVec.toNat_and, BitVec.toNat_ushiftRight, Nat.shiftRight_eq_div_pow, pow_one]
    rfl
  rw [SizeT.toNat_sub_of_le (by rw [hmasked]; exact hle), hmasked, hfold]

/-- Quads: the two halves of a lane of four bits are masked and added. -/
theorem toNat_quads (i : BitVec 32) :
    ((i &&& 0x33333333#32) + ((i >>> 2) &&& 0x33333333#32)).toNat = foldPairs 2 8 i.toNat := by
  have hlow : (i &&& 0x33333333#32).toNat = i.toNat &&& lowMask 2 8 := BitVec.toNat_and _ _
  have hhigh : ((i >>> 2) &&& 0x33333333#32).toNat = i.toNat / 2 ^ 2 &&& lowMask 2 8 := by
    rw [BitVec.toNat_and, BitVec.toNat_ushiftRight, Nat.shiftRight_eq_div_pow]
    rfl
  have hmask : lowMask 2 8 = 0x33333333 := rfl
  have hlow_le : (i.toNat &&& lowMask 2 8) ≤ lowMask 2 8 := Nat.and_le_right
  have hhigh_le : (i.toNat / 2 ^ 2 &&& lowMask 2 8) ≤ lowMask 2 8 := Nat.and_le_right
  rw [SizeT.toNat_add_of_lt (by rw [hlow, hhigh]; omega), hlow, hhigh, foldPairs]

/-- Groups of eight: the lanes of four bits have room, so the mask comes last. -/
theorem toNat_bytes {i : BitVec 32} (h : LanesLe 4 6 i.toNat) :
    ((i + (i >>> 4)) &&& 0x0F0F0F0F#32).toNat = foldPairs 4 4 i.toNat := by
  have hmask : (0x0F0F0F0F#32).toNat = lowMask 4 4 := rfl
  have hwrap : (i.toNat + i.toNat / 2 ^ 4) % 2 ^ 32 &&& lowMask 4 4
      = (i.toNat + i.toNat / 2 ^ 4) &&& lowMask 4 4 := by
    have hle : ((i.toNat + i.toNat / 2 ^ 4) &&& lowMask 4 4) ≤ lowMask 4 4 := Nat.and_le_right
    have hlt : lowMask 4 4 < 2 ^ 32 := by rw [← hmask]; exact BitVec.isLt _
    calc (i.toNat + i.toNat / 2 ^ 4) % 2 ^ 32 &&& lowMask 4 4
        = (i.toNat + i.toNat / 2 ^ 4) % 2 ^ 32 &&& lowMask 4 4 % 2 ^ 32 := by
          rw [Nat.mod_eq_of_lt hlt]
      _ = ((i.toNat + i.toNat / 2 ^ 4) &&& lowMask 4 4) % 2 ^ 32 :=
          (Nat.and_mod_two_pow).symm
      _ = (i.toNat + i.toNat / 2 ^ 4) &&& lowMask 4 4 :=
          Nat.mod_eq_of_lt (Nat.lt_of_le_of_lt hle hlt)
  rw [BitVec.toNat_and, hmask, BitVec.toNat_add, BitVec.toNat_ushiftRight,
    Nat.shiftRight_eq_div_pow, hwrap, add_and_lowMask (by decide) 4 h]

/-- The horizontal sum: the product has the sum of the four bytes in its top byte. -/
theorem toNat_horizontal {i : BitVec 32} (h : laneSum 8 4 i.toNat < 2 ^ 8) :
    ((i * 0x01010101#32) >>> 24).toNat = laneSum 8 4 i.toNat := by
  have hi := i.isLt
  obtain ⟨a, ha⟩ : ∃ a, a = i.toNat % 2 ^ 8 := ⟨_, rfl⟩
  obtain ⟨b, hb⟩ : ∃ b, b = i.toNat / 2 ^ 8 % 2 ^ 8 := ⟨_, rfl⟩
  obtain ⟨c, hc⟩ : ∃ c, c = i.toNat / 2 ^ 8 / 2 ^ 8 % 2 ^ 8 := ⟨_, rfl⟩
  obtain ⟨d, hd⟩ : ∃ d, d = i.toNat / 2 ^ 8 / 2 ^ 8 / 2 ^ 8 % 2 ^ 8 := ⟨_, rfl⟩
  have hbytes : i.toNat = a + 2 ^ 8 * b + 2 ^ 16 * c + 2 ^ 24 * d := by omega
  have hsum : laneSum 8 4 i.toNat = a + b + c + d := by
    rw [laneSum, laneSum, laneSum, laneSum, laneSum, ← ha, ← hb, ← hc, ← hd]
    omega
  rw [hsum] at h ⊢
  -- below the top byte stand the sums of one, two and three bytes, above it what wraps
  have hproduct : i.toNat * 0x01010101
      = (a + 2 ^ 8 * (a + b) + 2 ^ 16 * (a + b + c)) + 2 ^ 24 * (a + b + c + d)
        + 2 ^ 32 * ((b + c + d) + 2 ^ 8 * (c + d) + 2 ^ 16 * d) := by
    rw [hbytes]
    ring
  have hlow : a + 2 ^ 8 * (a + b) + 2 ^ 16 * (a + b + c) < 2 ^ 24 := by omega
  have hword : a + 2 ^ 8 * (a + b) + 2 ^ 16 * (a + b + c) + 2 ^ 24 * (a + b + c + d)
      < 2 ^ 32 := by omega
  have hfactor : (0x01010101#32).toNat = 0x01010101 := rfl
  rw [BitVec.toNat_ushiftRight, BitVec.toNat_mul, hfactor, hproduct, Nat.shiftRight_eq_div_pow,
    (split_lane hword _).1, (split_lane hlow _).2]

/-! ## The whole function -/

/-- **THE HAMMING WEIGHT** is the number of one bits, for every word. -/
theorem bit_ops_hamming_weight_u32_eq_card (i : BitVec 32) :
    (bitOpsHammingWeightU32 i).toNat = (oneBits i).card := by
  let pairs := i - ((i >>> 1) &&& 0x55555555#32)
  let quads := (pairs &&& 0x33333333#32) + ((pairs >>> 2) &&& 0x33333333#32)
  let bytes := (quads + (quads >>> 4)) &&& 0x0F0F0F0F#32
  have hpairs : pairs.toNat = foldPairs 1 16 i.toNat := toNat_pairs i
  have hquads : quads.toNat = foldPairs 2 8 pairs.toNat := toNat_quads pairs
  have hroom : LanesLe 4 6 quads.toNat := by
    rw [hquads]
    exact lanesLe_foldPairs (by decide) 8 pairs.toNat
  have hbytes : bytes.toNat = foldPairs 4 4 quads.toNat := toNat_bytes hroom
  have hcount : laneSum 8 4 bytes.toNat = laneSum 1 32 i.toNat := by
    calc laneSum 8 4 bytes.toNat
        = laneSum 4 8 quads.toNat := by rw [hbytes]; exact laneSum_foldPairs (by decide) 4 _
      _ = laneSum 2 16 pairs.toNat := by rw [hquads]; exact laneSum_foldPairs (by decide) 8 _
      _ = laneSum 1 32 i.toNat := by rw [hpairs]; exact laneSum_foldPairs (by decide) 16 _
  have hfits : laneSum 8 4 bytes.toNat < 2 ^ 8 := by
    rw [hcount]
    exact Nat.lt_of_le_of_lt (laneSum_le 1 32 i.toNat) (by decide)
  show ((bytes * 0x01010101#32) >>> 24).toNat = (oneBits i).card
  rw [toNat_horizontal hfits, hcount, laneSum_one]
  rfl

end CembBitOps
