import CEmbeddedUtils.LePackProofs
import CEmbeddedUtils.SignedBytesProofs

/-! # Signed decoding — where it overflows

    `le_unpack_s16`, `le_unpack_s32` and `le_unpack_s64` are the same source
    pattern, but its operands have different types: the bytes of an `int16_t`
    are promoted to `int`, which has room for all of their sums, and those of
    an `int32_t` or an `int64_t` are shifted in the type itself, which has
    none for a byte shifted into the sign.  The unsigned siblings have none of
    this, and neither do the signed pack functions. -/

namespace CembLePack

open LittleEndian Memory SignedInt

variable {w n : Nat}

/-! ## The source, with every operation checked -/

/-- The unpack functions of the signed types of more than one byte, undefined
    where a shift or a sum is. -/
def unpackSigned (packSize : SizeT w) (shifts : List Nat) (element : BitVec n)
    (offset : SizeT w) (data : Block Byte) (dataLen : SizeT w) : Option (SizeT w × BitVec n) :=
  if packIsWithinBuffer offset packSize dataLen then do
    let bytes ← loadBytes data offset 0 shifts.length
    let sum ← checkedGather n (bytes.zip shifts)
    some (packSize, BitVec.ofInt n sum.val)
  else some (0, element)

def leUnpackS16Checked (element : BitVec 16) :
    SizeT w → Block Byte → SizeT w → Option (SizeT w × BitVec 16) :=
  unpackSigned 2 [0, 8] element

def leUnpackS32Checked (element : BitVec 32) :
    SizeT w → Block Byte → SizeT w → Option (SizeT w × BitVec 32) :=
  unpackSigned 4 [0, 8, 16, 24] element

def leUnpackS64Checked (element : BitVec 64) :
    SizeT w → Block Byte → SizeT w → Option (SizeT w × BitVec 64) :=
  unpackSigned 8 [0, 8, 16, 24, 32, 40, 48, 56] element

section Buffer

variable {data : Block Byte} {offset dataLen : SizeT w}

/-- **A CHECKED DECODE** is the wrapping one where the value of the bytes is in the
    range of the promoted type, and undefined elsewhere. -/
theorem unpackSigned_eq (count : Nat) (element : BitVec n) (hn : 8 * count ≤ promotedBits n)
    (hblock : offset.toNat + count ≤ data.size) (hfit : offset.toNat + count ≤ dataLen.toNat) :
    unpackSigned (BitVec.ofNat w count) (byteShifts count 0) element offset data dataLen
      = if Fits (promotedBits n) (value (data.slice offset.toNat count)) then
          unpackInteger .signed (BitVec.ofNat w count) (byteShifts count 0) element offset data
            dataLen
        else none := by
  have hlen := dataLen.isLt
  have hgather := checkedGather_eq (n := n) (data.slice offset.toNat count)
    (by rw [Block.length_slice]; exact hn)
  rw [Block.length_slice] at hgather
  rw [unpackSigned, if_pos (within_of_fit hfit).2, length_byteShifts,
    loadBytes_eq (by omega) (by omega), Nat.add_zero]
  show (checkedGather n _).bind _ = _
  rw [hgather]
  by_cases hfits : Fits (promotedBits n) (value (data.slice offset.toNat count))
  · rw [if_pos hfits, checked_of_fits hfits, unpackInteger_eq .signed count element hblock hfit]
    show some (_, BitVec.ofInt n _) = _
    rw [BitVec.ofInt_natCast]
  · rw [if_neg hfits, checked_of_not_fits hfits]
    rfl

/-- A decode whose type has as many bits as bytes are read is defined if the last
    byte has no sign bit. -/
theorem unpackSigned_defined_iff (count : Nat) (element : BitVec n)
    (hn : promotedBits n = 8 * (count + 1)) (hblock : offset.toNat + (count + 1) ≤ data.size)
    (hfit : offset.toNat + (count + 1) ≤ dataLen.toNat) :
    (∃ result, unpackSigned (BitVec.ofNat w (count + 1)) (byteShifts (count + 1) 0) element offset
        data dataLen = some result) ↔ (data.cell (offset.toNat + count)).toNat < 128 := by
  have hlast : data.slice offset.toNat (count + 1)
      = data.slice offset.toNat count ++ [data.cell (offset.toNat + count)] := by
    rw [Block.slice_add, Block.slice, Block.slice, List.range_one]
    rfl
  have htop : Fits (promotedBits n) (value (data.slice offset.toNat (count + 1)))
      ↔ (data.cell (offset.toNat + count)).toNat < 128 := by
    rw [hlast]
    exact fits_value_iff _ _ (by rw [Block.length_slice]; exact hn)
  rw [unpackSigned_eq _ element (Nat.le_of_eq hn.symm) hblock hfit, ← htop]
  by_cases hfits : Fits (promotedBits n) (value (data.slice offset.toNat (count + 1)))
  · rw [if_pos hfits, unpackInteger_eq .signed (count + 1) element hblock hfit]
    exact iff_of_true ⟨_, rfl⟩ hfits
  · rw [if_neg hfits]
    refine iff_of_false ?_ hfits
    rintro ⟨_, h⟩
    cases h

end Buffer

/-- **WHERE DECODING IS DEFINED**: `le_unpack_s16` everywhere, and `le_unpack_s32` and
    `le_unpack_s64` exactly where the last byte, which holds the sign, is below 128. -/
theorem le_unpack_signed_defined_iff (offset dataLen : SizeT w) (data : Block Byte) :
    (∀ element, offset.toNat + 2 ≤ data.size → offset.toNat + 2 ≤ dataLen.toNat →
      ∃ result, leUnpackS16Checked element offset data dataLen = some result) ∧
    (∀ element, offset.toNat + 4 ≤ data.size → offset.toNat + 4 ≤ dataLen.toNat →
      ((∃ result, leUnpackS32Checked element offset data dataLen = some result) ↔
        (data.cell (offset.toNat + 3)).toNat < 128)) ∧
    (∀ element, offset.toNat + 8 ≤ data.size → offset.toNat + 8 ≤ dataLen.toNat →
      ((∃ result, leUnpackS64Checked element offset data dataLen = some result) ↔
        (data.cell (offset.toNat + 7)).toNat < 128)) := by
  refine ⟨?_, ?_, ?_⟩
  · intro element hblock hfit
    have hvalue := value_lt (data.slice offset.toNat 2)
    have hfits : Fits (promotedBits 16) (value (data.slice offset.toNat 2)) := by
      -- two bytes in an `int`
      refine fits_natCast.mpr (hvalue.trans ?_)
      rw [Block.length_slice]
      decide
    have hchecked := unpackSigned_eq 2 element (by decide) hblock hfit
    rw [if_pos hfits, unpackInteger_eq .signed 2 element hblock hfit] at hchecked
    exact ⟨_, hchecked⟩
  · intro element hblock hfit
    exact unpackSigned_defined_iff 3 element rfl hblock hfit
  · intro element hblock hfit
    exact unpackSigned_defined_iff 7 element rfl hblock hfit

/-- A positive number is decoded. -/
theorem le_unpack_signed_defined_iff_positive :
    ∃ result, leUnpackS32Checked 0 0#16 (Block.ofList 0 [1, 2, 3, 4]) 4 = some result :=
  ((le_unpack_signed_defined_iff 0#16 4 (Block.ofList 0 [1, 2, 3, 4])).2.1 0 (by decide)
    (by decide)).mpr (by decide)

/-- **THE LOWEST NUMBER**: its last byte is shifted to `2 ^ 31`, which no `int32_t`
    is. -/
theorem le_unpack_s32_overflows :
    leUnpackS32Checked 0 0#16 (Block.ofList 0 [0, 0, 0, 0x80]) 4 = none ∧
      leUnpackS32 0 0#16 (Block.ofList 0 [0, 0, 0, 0x80]) 4 = some (4, 0x80000000) := by
  decide

end CembLePack
