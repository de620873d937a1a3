import CEmbeddedUtils.LePackProofs

/-! # What the codec touches — all of a field or nothing

    The guard of `pack.c` is computed in words that wrap.  It is nevertheless
    exact: a call of any of the twenty functions whose field ends inside the
    buffer returns the field's size and touches the field's positions; every
    other call returns 0 and touches nothing. -/

namespace CembLePack

open LittleEndian Memory

variable {w n : Nat}

/-- The pack call returns the size, and writes the bytes at the positions
    `[offset, offset + size)` and no others, in every block that has these. -/
def PacksAt (offset size : Nat) (bytes : List Byte)
    (call : Block Byte → Option (SizeT w × Block Byte)) : Prop :=
  ∀ data, offset + size ≤ data.size →
    ∃ ret data', call data = some (ret, data') ∧ ret.toNat = size ∧ data'.size = data.size ∧
      data'.slice offset size = bytes ∧
      ∀ i, i < offset ∨ offset + size ≤ i → data'.cell i = data.cell i

/-- The unpack call returns the size, and reads the positions `[offset, offset + size)`
    and no others: blocks that have these, and agree there, give the same field. -/
def UnpacksAt (offset size : Nat) (call : Block Byte → Option (SizeT w × Field)) : Prop :=
  ∀ data₁ data₂, offset + size ≤ data₁.size → offset + size ≤ data₂.size →
    (∀ i, offset ≤ i → i < offset + size → data₁.cell i = data₂.cell i) →
    ∃ ret field, call data₁ = some (ret, field) ∧ call data₂ = some (ret, field) ∧
      ret.toNat = size

section Calls

variable {data : Block Byte} {offset dataLen : SizeT w}

/-! ## Calls that fit -/

/-- A field that fits is packed at its positions. -/
theorem packsAt_of_fit (field : Field) (hfit : offset.toNat + field.size ≤ dataLen.toNat) :
    PacksAt offset.toNat field.size field.bytes
      fun data => packField offset data dataLen field := by
  intro data hblock
  refine ⟨_, _, packField_eq field hblock hfit, (within_of_fit hfit).1, rfl, ?_, ?_⟩
  · rw [← length_bytes field]
    exact Block.slice_overwrite_same data _ _
  · intro i hi
    exact Block.cell_overwrite_outside data _ (by rw [length_bytes]; exact hi)

/-- A field that fits is unpacked from its positions. -/
theorem unpacksAt_of_fit (destination : Field)
    (hfit : offset.toNat + destination.size ≤ dataLen.toNat) :
    UnpacksAt offset.toNat destination.size
      fun data => unpackField offset data dataLen destination := by
  intro data₁ data₂ hblock₁ hblock₂ hagree
  have hslice : data₁.slice offset.toNat destination.size
      = data₂.slice offset.toNat destination.size := by
    apply Block.slice_congr
    intro i hi
    exact hagree _ (Nat.le_add_right _ i) (Nat.add_lt_add_left hi _)
  refine ⟨_, _, unpackField_eq destination hblock₁ hfit, ?_, (within_of_fit hfit).1⟩
  show unpackField offset data₂ dataLen destination = _
  rw [unpackField_eq destination hblock₂ hfit, hslice]

/-! ## Calls that do not -/

/-- A size that is a word and does not fit does not pass the check. -/
theorem not_within_of_not_fit {count : Nat} (hcount : count < 2 ^ w)
    (hfit : ¬ offset.toNat + count ≤ dataLen.toNat) :
    ¬ packIsWithinBuffer offset (BitVec.ofNat w count) dataLen = true := by
  intro hwithin
  apply hfit
  have h := packIsWithinBuffer_iff.mp hwithin
  rwa [BitVec.toNat_ofNat, Nat.mod_eq_of_lt hcount] at h

/-- A raw size of 0 is rejected wherever it is. -/
theorem not_within_raw {rawDataSize : Nat} (hsize : rawDataSize < 2 ^ w)
    (hfit : ¬ (0 < rawDataSize ∧ offset.toNat + rawDataSize ≤ dataLen.toNat)) :
    ¬ (packIsWithinBuffer offset (BitVec.ofNat w rawDataSize) dataLen = true ∧
      BitVec.ofNat w rawDataSize > 0) := by
  rintro ⟨hwithin, hpos⟩
  apply hfit
  rw [gt_iff_lt, BitVec.lt_def, BitVec.toNat_ofNat, Nat.mod_eq_of_lt hsize] at hpos
  constructor
  · simpa using hpos
  · by_contra hnot
    exact not_within_of_not_fit hsize hnot hwithin

/-- A pack of an integer that does not pass the check leaves the buffer. -/
theorem packInteger_rejected {sign : Signedness} {packSize : SizeT w} {shifts : List Nat}
    {element : BitVec n} (h : ¬ packIsWithinBuffer offset packSize dataLen = true) :
    packInteger sign packSize shifts element offset data dataLen = some (0, data) := if_neg h

/-- An unpack of an integer that does not pass the check leaves the element. -/
theorem map_unpackInteger_rejected {sign : Signedness} {packSize : SizeT w} {shifts : List Nat}
    {element : BitVec n} (wrap : BitVec n → Field)
    (h : ¬ packIsWithinBuffer offset packSize dataLen = true) :
    (unpackInteger sign packSize shifts element offset data dataLen).map (Prod.map id wrap)
      = some (0, wrap element) := by
  rw [unpackInteger, if_neg h]
  rfl

/-- **A PACK IS REJECTED** without a write. -/
theorem packField_rejected {field : Field} (hsize : field.size < 2 ^ w)
    (hfit : ¬ (0 < field.size ∧ offset.toNat + field.size ≤ dataLen.toNat)) :
    packField offset data dataLen field = some (0, data) := by
  -- the integer types have a size, so it is the end that does not fit
  have hend : 0 < field.size →
      ¬ packIsWithinBuffer offset (BitVec.ofNat w field.size) dataLen = true := by
    intro hpos
    exact not_within_of_not_fit hsize fun h => hfit ⟨hpos, h⟩
  cases field with
  | raw rawData => exact if_neg (not_within_raw hsize hfit)
  | bool element => exact packInteger_rejected (hend Nat.one_pos)
  | u8 element => exact packInteger_rejected (hend Nat.one_pos)
  | u16 element => exact packInteger_rejected (hend Nat.two_pos)
  | u32 element => exact packInteger_rejected (hend (Nat.zero_lt_succ 3))
  | u64 element => exact packInteger_rejected (hend (Nat.zero_lt_succ 7))
  | s8 element => exact packInteger_rejected (hend Nat.one_pos)
  | s16 element => exact packInteger_rejected (hend Nat.two_pos)
  | s32 element => exact packInteger_rejected (hend (Nat.zero_lt_succ 3))
  | s64 element => exact packInteger_rejected (hend (Nat.zero_lt_succ 7))

/-- **AN UNPACK IS REJECTED** without a read, and the destination stays. -/
theorem unpackField_rejected {destination : Field} (hsize : destination.size < 2 ^ w)
    (hfit : ¬ (0 < destination.size ∧ offset.toNat + destination.size ≤ dataLen.toNat)) :
    unpackField offset data dataLen destination = some (0, destination) := by
  have hend : 0 < destination.size →
      ¬ packIsWithinBuffer offset (BitVec.ofNat w destination.size) dataLen = true := by
    intro hpos
    exact not_within_of_not_fit hsize fun h => hfit ⟨hpos, h⟩
  cases destination with
  | raw old =>
      have hcall : leUnpackRaw (Block.ofList 0 old) (BitVec.ofNat w old.length) offset data dataLen
          = some (0, Block.ofList 0 old) := if_neg (not_within_raw hsize hfit)
      rw [unpackField, hcall]
      show some (_, Field.raw _) = _
      rw [Block.slice_ofList]
      rfl
  | bool old =>
      have hcall : leUnpackBool old offset data dataLen = some (0, old) :=
        if_neg (hend Nat.one_pos)
      rw [unpackField, hcall]
      rfl
  | u8 old => exact map_unpackInteger_rejected .u8 (hend Nat.one_pos)
  | u16 old => exact map_unpackInteger_rejected .u16 (hend Nat.two_pos)
  | u32 old => exact map_unpackInteger_rejected .u32 (hend (Nat.zero_lt_succ 3))
  | u64 old => exact map_unpackInteger_rejected .u64 (hend (Nat.zero_lt_succ 7))
  | s8 old => exact map_unpackInteger_rejected .s8 (hend Nat.one_pos)
  | s16 old => exact map_unpackInteger_rejected .s16 (hend Nat.two_pos)
  | s32 old => exact map_unpackInteger_rejected .s32 (hend (Nat.zero_lt_succ 3))
  | s64 old => exact map_unpackInteger_rejected .s64 (hend (Nat.zero_lt_succ 7))

end Calls

/-- **ALL OR NOTHING**: a field of a size above 0 that ends inside the buffer is
    packed, all of its bytes, and unpacked at its positions; for any other field the calls return 0,
    and the buffer and the destination are what they were. -/
theorem le_pack_bounds (field : Field) (offset dataLen : SizeT w) (hsize : field.size < 2 ^ w) :
    (0 < field.size ∧ offset.toNat + field.size ≤ dataLen.toNat →
      PacksAt offset.toNat field.size field.bytes
        (fun data => packField offset data dataLen field) ∧
      UnpacksAt offset.toNat field.size (fun data => unpackField offset data dataLen field)) ∧
    (¬ (0 < field.size ∧ offset.toNat + field.size ≤ dataLen.toNat) →
      ∀ data, packField offset data dataLen field = some (0, data) ∧
        unpackField offset data dataLen field = some (0, field)) := by
  constructor
  · rintro ⟨-, hfit⟩
    exact ⟨packsAt_of_fit field hfit, unpacksAt_of_fit field hfit⟩
  · intro hfit data
    exact ⟨packField_rejected hsize hfit, unpackField_rejected hsize hfit⟩

/-- Four bytes on a machine with eight-bit sizes: at offset 196 they end with the buffer
    and are packed; at offset 253 the end wraps to 1, and both calls are rejected. -/
theorem le_pack_bounds_wrapped_end :
    PacksAt 196 4 [7, 0, 0, 0] (fun data => packField 196#8 data 200 (.u32 7)) ∧
      packField 253#8 ⟨200, fun _ => 0xAA⟩ 200 (.u32 7) = some (0, ⟨200, fun _ => 0xAA⟩) ∧
      unpackField 253#8 ⟨200, fun _ => 0xAA⟩ 200 (.u32 7) = some (0, .u32 7) :=
  ⟨((le_pack_bounds (.u32 7) 196#8 200 (by decide)).1 (by decide)).1,
    (le_pack_bounds (.u32 7) 253#8 200 (by decide)).2 (by decide) _⟩

end CembLePack
