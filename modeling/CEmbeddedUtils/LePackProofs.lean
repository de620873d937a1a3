import CEmbeddedUtils.LittleEndianProofs
import CEmbeddedUtils.MemoryProofs
import CEmbeddedUtils.SizeTProofs
import Mathlib.Algebra.Order.BigOperators.Group.List

/-! # The little-endian codec — records round-trip

    `le_pack.c` has a pair of functions for each of ten field types.  Packing
    writes the bytes of the field at an offset, and returns how many; the
    caller adds them up to the offset of the next field.  Unpacking reads
    them back.

    On the wire a record is the concatenation of its fields' bytes: packing
    writes it as one, and unpacking reads the same fields from it.

    A `uint8_t`..`uint64_t` or `int8_t`..`int64_t` is its word of bits, a
    signed one in two's complement; shifts, sums and conversions of signed
    operands are those of the words, modulo their range. -/

namespace CembLePack

open LittleEndian Memory

variable {w n : Nat}

/-! ## The source -/

def packIsWithinBuffer (offset reqSize dataLen : SizeT w) : Bool :=
  let requiredIndex := offset + reqSize
  if requiredIndex < offset then false else requiredIndex ≤ dataLen

/-- `data[offset + i] = byte` for each byte in turn, from `i` on. -/
def storeBytes (data : Block Byte) (offset : SizeT w) : Nat → List Byte → Option (Block Byte)
  | _, [] => some data
  | i, byte :: bytes => do
      let data' ← data.store (offset + BitVec.ofNat w i).toNat byte
      storeBytes data' offset (i + 1) bytes

/-- The bytes `data[offset + i]`, from `i` on. -/
def loadBytes (data : Block Byte) (offset : SizeT w) : Nat → Nat → Option (List Byte)
  | _, 0 => some []
  | i, count + 1 => do
      let byte ← data.load (offset + BitVec.ofNat w i).toNat
      let bytes ← loadBytes data offset (i + 1) count
      some (byte :: bytes)

/-- The pack functions of the integer types: one byte for each shift. -/
def packInteger (sign : Signedness) (packSize : SizeT w) (shifts : List Nat)
    (element : BitVec n) (offset : SizeT w) (data : Block Byte) (dataLen : SizeT w) :
    Option (SizeT w × Block Byte) :=
  if packIsWithinBuffer offset packSize dataLen then do
    let data' ← storeBytes data offset 0 (shifts.map (byteAt sign element))
    some (packSize, data')
  else some (0, data)

/-- The unpack functions of the integer types.  The second component is
    `*element` after the call. -/
def unpackInteger (sign : Signedness) (packSize : SizeT w) (shifts : List Nat)
    (element : BitVec n) (offset : SizeT w) (data : Block Byte) (dataLen : SizeT w) :
    Option (SizeT w × BitVec n) :=
  if packIsWithinBuffer offset packSize dataLen then do
    let bytes ← loadBytes data offset 0 shifts.length
    some (packSize, gather sign n shifts bytes)
  else some (0, element)

def lePackRaw (rawData : Block Byte) (rawDataSize offset : SizeT w) (data : Block Byte)
    (dataLen : SizeT w) : Option (SizeT w × Block Byte) :=
  if packIsWithinBuffer offset rawDataSize dataLen = true ∧ rawDataSize > 0 then do
    let bytes ← rawData.copyOut 0 rawDataSize.toNat
    let data' ← data.copyIn offset.toNat bytes
    some (rawDataSize, data')
  else some (0, data)

/-- The second component is the block at `raw_data` after the call. -/
def leUnpackRaw (rawData : Block Byte) (rawDataSize offset : SizeT w) (data : Block Byte)
    (dataLen : SizeT w) : Option (SizeT w × Block Byte) :=
  if packIsWithinBuffer offset rawDataSize dataLen = true ∧ rawDataSize > 0 then do
    let bytes ← data.copyOut offset.toNat rawDataSize.toNat
    let rawData' ← rawData.copyIn 0 bytes
    some (rawDataSize, rawData')
  else some (0, rawData)

/-- Booleans are normalised to 0 or 1. -/
def lePackBool (element : Bool) : SizeT w → Block Byte → SizeT w → Option (SizeT w × Block Byte) :=
  packInteger .unsigned 1 [0] (if element then 1#8 else 0#8)

/-- Only a byte of value 1 is `true`. -/
def leUnpackBool (element : Bool) (offset : SizeT w) (data : Block Byte) (dataLen : SizeT w) :
    Option (SizeT w × Bool) :=
  if packIsWithinBuffer offset 1 dataLen then do
    let byte ← data.load (offset + 0#w).toNat
    some (1, (promote .unsigned byte <<< 0).setWidth 8 == 1#8)
  else some (0, element)

def lePackU8 (element : BitVec 8) :
    SizeT w → Block Byte → SizeT w → Option (SizeT w × Block Byte) :=
  packInteger .unsigned 1 [0] element

def leUnpackU8 (element : BitVec 8) :
    SizeT w → Block Byte → SizeT w → Option (SizeT w × BitVec 8) :=
  unpackInteger .unsigned 1 [0] element

def lePackU16 (element : BitVec 16) :
    SizeT w → Block Byte → SizeT w → Option (SizeT w × Block Byte) :=
  packInteger .unsigned 2 [0, 8] element

def leUnpackU16 (element : BitVec 16) :
    SizeT w → Block Byte → SizeT w → Option (SizeT w × BitVec 16) :=
  unpackInteger .unsigned 2 [0, 8] element

def lePackU32 (element : BitVec 32) :
    SizeT w → Block Byte → SizeT w → Option (SizeT w × Block Byte) :=
  packInteger .unsigned 4 [0, 8, 16, 24] element

def leUnpackU32 (element : BitVec 32) :
    SizeT w → Block Byte → SizeT w → Option (SizeT w × BitVec 32) :=
  unpackInteger .unsigned 4 [0, 8, 16, 24] element

def lePackU64 (element : BitVec 64) :
    SizeT w → Block Byte → SizeT w → Option (SizeT w × Block Byte) :=
  packInteger .unsigned 8 [0, 8, 16, 24, 32, 40, 48, 56] element

def leUnpackU64 (element : BitVec 64) :
    SizeT w → Block Byte → SizeT w → Option (SizeT w × BitVec 64) :=
  unpackInteger .unsigned 8 [0, 8, 16, 24, 32, 40, 48, 56] element

def lePackS8 (element : BitVec 8) :
    SizeT w → Block Byte → SizeT w → Option (SizeT w × Block Byte) :=
  packInteger .signed 1 [0] element

def leUnpackS8 (element : BitVec 8) :
    SizeT w → Block Byte → SizeT w → Option (SizeT w × BitVec 8) :=
  unpackInteger .signed 1 [0] element

def lePackS16 (element : BitVec 16) :
    SizeT w → Block Byte → SizeT w → Option (SizeT w × Block Byte) :=
  packInteger .signed 2 [0, 8] element

def leUnpackS16 (element : BitVec 16) :
    SizeT w → Block Byte → SizeT w → Option (SizeT w × BitVec 16) :=
  unpackInteger .signed 2 [0, 8] element

def lePackS32 (element : BitVec 32) :
    SizeT w → Block Byte → SizeT w → Option (SizeT w × Block Byte) :=
  packInteger .signed 4 [0, 8, 16, 24] element

def leUnpackS32 (element : BitVec 32) :
    SizeT w → Block Byte → SizeT w → Option (SizeT w × BitVec 32) :=
  unpackInteger .signed 4 [0, 8, 16, 24] element

def lePackS64 (element : BitVec 64) :
    SizeT w → Block Byte → SizeT w → Option (SizeT w × Block Byte) :=
  packInteger .signed 8 [0, 8, 16, 24, 32, 40, 48, 56] element

def leUnpackS64 (element : BitVec 64) :
    SizeT w → Block Byte → SizeT w → Option (SizeT w × BitVec 64) :=
  unpackInteger .signed 8 [0, 8, 16, 24, 32, 40, 48, 56] element

/-! ## Records -/

/-- A field with its value. -/
inductive Field where
  | bool (element : Bool)
  | u8 (element : BitVec 8)
  | u16 (element : BitVec 16)
  | u32 (element : BitVec 32)
  | u64 (element : BitVec 64)
  | s8 (element : BitVec 8)
  | s16 (element : BitVec 16)
  | s32 (element : BitVec 32)
  | s64 (element : BitVec 64)
  | raw (rawData : List Byte)

/-- The type of a field; a raw one has a size. -/
inductive FieldType where
  | bool | u8 | u16 | u32 | u64 | s8 | s16 | s32 | s64
  | raw (rawDataSize : Nat)

def Field.type : Field → FieldType
  | .bool _ => .bool
  | .u8 _ => .u8
  | .u16 _ => .u16
  | .u32 _ => .u32
  | .u64 _ => .u64
  | .s8 _ => .s8
  | .s16 _ => .s16
  | .s32 _ => .s32
  | .s64 _ => .s64
  | .raw rawData => .raw rawData.length

/-- The number of bytes of a field of the type. -/
def FieldType.size : FieldType → Nat
  | .bool => 1
  | .u8 => 1
  | .u16 => 2
  | .u32 => 4
  | .u64 => 8
  | .s8 => 1
  | .s16 => 2
  | .s32 => 4
  | .s64 => 8
  | .raw rawDataSize => rawDataSize

/-- Pack one field with the function of its type. -/
def packField (offset : SizeT w) (data : Block Byte) (dataLen : SizeT w) :
    Field → Option (SizeT w × Block Byte)
  | .bool element => lePackBool element offset data dataLen
  | .u8 element => lePackU8 element offset data dataLen
  | .u16 element => lePackU16 element offset data dataLen
  | .u32 element => lePackU32 element offset data dataLen
  | .u64 element => lePackU64 element offset data dataLen
  | .s8 element => lePackS8 element offset data dataLen
  | .s16 element => lePackS16 element offset data dataLen
  | .s32 element => lePackS32 element offset data dataLen
  | .s64 element => lePackS64 element offset data dataLen
  | .raw rawData =>
      lePackRaw (Block.ofList 0 rawData) (BitVec.ofNat w rawData.length) offset data dataLen

/-- Unpack one field into a destination of its type; the second component is
    the destination after the call. -/
def unpackField (offset : SizeT w) (data : Block Byte) (dataLen : SizeT w) :
    Field → Option (SizeT w × Field)
  | .bool element => (leUnpackBool element offset data dataLen).map (Prod.map id .bool)
  | .u8 element => (leUnpackU8 element offset data dataLen).map (Prod.map id .u8)
  | .u16 element => (leUnpackU16 element offset data dataLen).map (Prod.map id .u16)
  | .u32 element => (leUnpackU32 element offset data dataLen).map (Prod.map id .u32)
  | .u64 element => (leUnpackU64 element offset data dataLen).map (Prod.map id .u64)
  | .s8 element => (leUnpackS8 element offset data dataLen).map (Prod.map id .s8)
  | .s16 element => (leUnpackS16 element offset data dataLen).map (Prod.map id .s16)
  | .s32 element => (leUnpackS32 element offset data dataLen).map (Prod.map id .s32)
  | .s64 element => (leUnpackS64 element offset data dataLen).map (Prod.map id .s64)
  | .raw rawData =>
      (leUnpackRaw (Block.ofList 0 rawData) (BitVec.ofNat w rawData.length) offset data
        dataLen).map (Prod.map id fun block => .raw (block.slice 0 rawData.length))

/-- Pack the fields in order; each call's result advances the offset. -/
def packRecord (offset : SizeT w) (data : Block Byte) (dataLen : SizeT w) :
    List Field → Option (List (SizeT w) × Block Byte)
  | [] => some ([], data)
  | field :: fields => do
      let (size, data') ← packField offset data dataLen field
      let (sizes, data'') ← packRecord (offset + size) data' dataLen fields
      some (size :: sizes, data'')

/-- Unpack into the destinations in order. -/
def unpackRecord (offset : SizeT w) (data : Block Byte) (dataLen : SizeT w) :
    List Field → Option (List (SizeT w) × List Field)
  | [] => some ([], [])
  | destination :: destinations => do
      let (size, field) ← unpackField offset data dataLen destination
      let (sizes, fields) ← unpackRecord (offset + size) data dataLen destinations
      some (size :: sizes, field :: fields)

/-! ## The wire format -/

/-- The bytes of a field. -/
def Field.bytes : Field → List Byte
  | .bool element => [if element then 1 else 0]
  | .u8 element => bytesOf 1 element.toNat
  | .u16 element => bytesOf 2 element.toNat
  | .u32 element => bytesOf 4 element.toNat
  | .u64 element => bytesOf 8 element.toNat
  | .s8 element => bytesOf 1 element.toNat
  | .s16 element => bytesOf 2 element.toNat
  | .s32 element => bytesOf 4 element.toNat
  | .s64 element => bytesOf 8 element.toNat
  | .raw rawData => rawData

/-- The number of bytes of a field. -/
def Field.size (field : Field) : Nat := field.type.size

/-- The number of bytes of a record. -/
def recordSize (fields : List Field) : Nat := (fields.map Field.size).sum

/-- A record is its fields one behind the other. -/
def recordBytes (fields : List Field) : List Byte := fields.flatMap Field.bytes

@[simp] theorem length_bytes (field : Field) : field.bytes.length = field.size := by
  cases field <;> simp [Field.bytes, Field.size, Field.type, FieldType.size]

@[simp] theorem length_recordBytes (fields : List Field) :
    (recordBytes fields).length = recordSize fields := by
  rw [recordBytes, List.length_flatMap, recordSize]
  congr 1
  exact List.map_congr_left fun field _ => length_bytes field

/-! ## Access to the buffer -/

/-- The check is exact: also a sum that wraps does not fit. -/
theorem packIsWithinBuffer_iff {offset reqSize dataLen : SizeT w} :
    packIsWithinBuffer offset reqSize dataLen = true
      ↔ offset.toNat + reqSize.toNat ≤ dataLen.toNat := by
  have hlen := dataLen.isLt
  have hsize := reqSize.isLt
  rw [packIsWithinBuffer]
  by_cases hwrap : offset.toNat + reqSize.toNat < 2 ^ w
  · have hsum := SizeT.toNat_add_of_lt hwrap
    have hnot : ¬ offset + reqSize < offset := by
      rw [BitVec.lt_def, hsum]
      omega
    rw [if_neg hnot, decide_eq_true_iff, BitVec.le_def, hsum]
  · -- a sum that wraps comes out below the offset
    have hlt : offset + reqSize < offset := by
      rw [BitVec.lt_def, BitVec.toNat_add, Nat.mod_eq_sub_mod (by omega),
        Nat.mod_eq_of_lt (by omega)]
      omega
    rw [if_pos hlt]
    constructor
    · intro h
      exact nomatch h
    · intro h
      omega

section Buffer

variable {data : Block Byte} {offset dataLen : SizeT w}

/-- The position of byte `i` from an offset, inside a block of words. -/
theorem toNat_offset_add {i : Nat} (h : offset.toNat + i < 2 ^ w) :
    (offset + BitVec.ofNat w i).toNat = offset.toNat + i := by
  rw [BitVec.toNat_add, BitVec.toNat_ofNat, Nat.add_mod_mod, Nat.mod_eq_of_lt h]

/-- Storing bytes one by one inside the block overwrites them. -/
theorem storeBytes_eq {i : Nat} {bytes : List Byte}
    (hfit : offset.toNat + i + bytes.length ≤ data.size)
    (hword : offset.toNat + i + bytes.length ≤ 2 ^ w) :
    storeBytes data offset i bytes = some (data.overwrite (offset.toNat + i) bytes) := by
  induction bytes generalizing data i with
  | nil => rw [storeBytes, Block.overwrite_nil]
  | cons byte bytes ih =>
      rw [List.length_cons] at hfit hword
      -- the end of the bytes is a word, so `offset + i` does not wrap before it
      rw [storeBytes, toNat_offset_add (by omega), Block.store_of_lt (by omega),
        ← Block.overwrite_cons, Nat.add_assoc]
      refine ih ?_ (by omega)
      show offset.toNat + (i + 1) + bytes.length ≤ data.size
      omega

/-- Loading bytes one by one inside the block reads the slice. -/
theorem loadBytes_eq {i count : Nat} (hfit : offset.toNat + i + count ≤ data.size)
    (hword : offset.toNat + i + count ≤ 2 ^ w) :
    loadBytes data offset i count = some (data.slice (offset.toNat + i) count) := by
  induction count generalizing i with
  | zero => rfl
  | succ count ih =>
      rw [loadBytes, toNat_offset_add (by omega), Block.load_of_lt (by omega),
        ih (by omega) (by omega), Nat.add_comm count 1, Block.slice_add]
      rfl

/-- A size that fits is a word, and passes the check. -/
theorem within_of_fit {count : Nat} (hfit : offset.toNat + count ≤ dataLen.toNat) :
    (BitVec.ofNat w count).toNat = count ∧
      packIsWithinBuffer offset (BitVec.ofNat w count) dataLen = true := by
  have hlen := dataLen.isLt
  have hsize : (BitVec.ofNat w count).toNat = count := by
    rw [BitVec.toNat_ofNat, Nat.mod_eq_of_lt (by omega)]
  exact ⟨hsize, packIsWithinBuffer_iff.mpr (by rw [hsize]; exact hfit)⟩

/-- An integer that fits is packed as its bytes. -/
theorem packInteger_eq (sign : Signedness) (count : Nat) (hn : n = 8 * count)
    (element : BitVec n) (hblock : offset.toNat + count ≤ data.size)
    (hfit : offset.toNat + count ≤ dataLen.toNat) :
    packInteger sign (BitVec.ofNat w count) (byteShifts count 0) element offset data dataLen
      = some (BitVec.ofNat w count,
          data.overwrite offset.toNat (bytesOf count element.toNat)) := by
  have hlen := dataLen.isLt
  rw [packInteger, if_pos (within_of_fit hfit).2, map_byteAt sign element count 0 (by omega),
    pow_zero, Nat.div_one, storeBytes_eq (by rw [length_bytesOf]; omega)
      (by rw [length_bytesOf]; omega)]
  rfl

/-- An integer that fits is unpacked as the value of its bytes. -/
theorem unpackInteger_eq (sign : Signedness) (count : Nat) (destination : BitVec n)
    (hblock : offset.toNat + count ≤ data.size) (hfit : offset.toNat + count ≤ dataLen.toNat) :
    unpackInteger sign (BitVec.ofNat w count) (byteShifts count 0) destination offset data
        dataLen
      = some (BitVec.ofNat w count,
          BitVec.ofNat n (value (data.slice offset.toNat count))) := by
  have hlen := dataLen.isLt
  have hgather := gather_eq sign n (data.slice offset.toNat count)
  rw [Block.length_slice] at hgather
  rw [unpackInteger, if_pos (within_of_fit hfit).2, length_byteShifts,
    loadBytes_eq (by omega) (by omega), Nat.add_zero]
  show some (_, gather sign n _ _) = _
  rw [hgather]

/-- A raw field of any length, also of none, is packed as its bytes. -/
theorem lePackRaw_eq (rawData : List Byte) (hblock : offset.toNat + rawData.length ≤ data.size)
    (hfit : offset.toNat + rawData.length ≤ dataLen.toNat) :
    lePackRaw (Block.ofList 0 rawData) (BitVec.ofNat w rawData.length) offset data dataLen
      = some (BitVec.ofNat w rawData.length, data.overwrite offset.toNat rawData) := by
  obtain ⟨hsize, hwithin⟩ := within_of_fit hfit
  cases rawData with
  | nil =>
      -- the source packs nothing and returns 0, which is the size
      have hzero : ¬ (BitVec.ofNat w 0 > 0) := BitVec.not_lt_zero
      rw [lePackRaw, List.length_nil, if_neg (fun h => hzero h.2), Block.overwrite_nil]
      rfl
  | cons byte bytes =>
      have hpos : BitVec.ofNat w (byte :: bytes).length > 0 := by
        rw [gt_iff_lt, BitVec.lt_def, hsize]
        simp
      rw [lePackRaw, if_pos ⟨hwithin, hpos⟩, hsize,
        Block.copyOut_of_le (by rw [Nat.zero_add, Block.size_ofList]), Block.slice_ofList]
      show (data.copyIn _ _).bind _ = _
      rw [Block.copyIn_of_le hblock]
      rfl

/-- Raw bytes in the buffer are unpacked over the destination. -/
theorem leUnpackRaw_eq (destination : List Byte)
    (hblock : offset.toNat + destination.length ≤ data.size)
    (hfit : offset.toNat + destination.length ≤ dataLen.toNat) :
    ∃ block, leUnpackRaw (Block.ofList 0 destination) (BitVec.ofNat w destination.length) offset
        data dataLen = some (BitVec.ofNat w destination.length, block) ∧
      block.slice 0 destination.length = data.slice offset.toNat destination.length := by
  obtain ⟨hsize, hwithin⟩ := within_of_fit hfit
  cases destination with
  | nil =>
      have hzero : ¬ (BitVec.ofNat w 0 > 0) := BitVec.not_lt_zero
      refine ⟨Block.ofList 0 [], ?_, rfl⟩
      rw [leUnpackRaw, List.length_nil, if_neg (fun h => hzero h.2)]
      rfl
  | cons byte bytes =>
      have hpos : BitVec.ofNat w (byte :: bytes).length > 0 := by
        rw [gt_iff_lt, BitVec.lt_def, hsize]
        simp
      have hlength := data.length_slice offset.toNat (byte :: bytes).length
      have hread := (Block.ofList 0 (byte :: bytes)).slice_overwrite_same 0
        (data.slice offset.toNat (byte :: bytes).length)
      rw [hlength] at hread
      refine ⟨_, ?_, hread⟩
      rw [leUnpackRaw, if_pos ⟨hwithin, hpos⟩, hsize, Block.copyOut_of_le hblock]
      show ((Block.ofList 0 (byte :: bytes)).copyIn 0 _).bind _ = _
      rw [Block.copyIn_of_le (by rw [hlength, Nat.zero_add, Block.size_ofList])]
      rfl

/-- A byte of 1 is unpacked as true, and any other as false. -/
theorem leUnpackBool_eq (destination : Bool) (hblock : offset.toNat + 1 ≤ data.size)
    (hfit : offset.toNat + 1 ≤ dataLen.toNat) :
    leUnpackBool destination offset data dataLen
      = some (BitVec.ofNat w 1, data.cell offset.toNat == 1) := by
  have hwithin : packIsWithinBuffer offset 1 dataLen = true := (within_of_fit hfit).2
  rw [leUnpackBool, if_pos hwithin, BitVec.add_zero, Block.load_of_lt (by omega)]
  show some (_, (promote .unsigned (data.cell offset.toNat) <<< 0).setWidth 8 == 1#8) = _
  rw [BitVec.shiftLeft_zero, setWidth_promote]
  rfl

/-! ## One field -/

/-- **ONE FIELD IS PACKED** as its bytes, and nothing else is touched. -/
theorem packField_eq (field : Field) (hblock : offset.toNat + field.size ≤ data.size)
    (hfit : offset.toNat + field.size ≤ dataLen.toNat) :
    packField offset data dataLen field
      = some (BitVec.ofNat w field.size, data.overwrite offset.toNat field.bytes) := by
  cases field with
  | bool element =>
      have hbytes :
          bytesOf 1 (if element then 1#8 else 0#8).toNat = (Field.bool element).bytes := by
        cases element <;> rfl
      rw [← hbytes]
      exact packInteger_eq .unsigned 1 rfl _ hblock hfit
  | u8 element => exact packInteger_eq .unsigned 1 rfl element hblock hfit
  | u16 element => exact packInteger_eq .unsigned 2 rfl element hblock hfit
  | u32 element => exact packInteger_eq .unsigned 4 rfl element hblock hfit
  | u64 element => exact packInteger_eq .unsigned 8 rfl element hblock hfit
  | s8 element => exact packInteger_eq .signed 1 rfl element hblock hfit
  | s16 element => exact packInteger_eq .signed 2 rfl element hblock hfit
  | s32 element => exact packInteger_eq .signed 4 rfl element hblock hfit
  | s64 element => exact packInteger_eq .signed 8 rfl element hblock hfit
  | raw rawData => exact lePackRaw_eq rawData hblock hfit

/-- The field of a type that is read from bytes. -/
def FieldType.decode : FieldType → List Byte → Field
  | .bool, bytes => .bool (bytes.head? == some 1)
  | .u8, bytes => .u8 (BitVec.ofNat 8 (value bytes))
  | .u16, bytes => .u16 (BitVec.ofNat 16 (value bytes))
  | .u32, bytes => .u32 (BitVec.ofNat 32 (value bytes))
  | .u64, bytes => .u64 (BitVec.ofNat 64 (value bytes))
  | .s8, bytes => .s8 (BitVec.ofNat 8 (value bytes))
  | .s16, bytes => .s16 (BitVec.ofNat 16 (value bytes))
  | .s32, bytes => .s32 (BitVec.ofNat 32 (value bytes))
  | .s64, bytes => .s64 (BitVec.ofNat 64 (value bytes))
  | .raw _, bytes => .raw bytes

/-- The integer types unpack into a field as into an element. -/
theorem map_unpackInteger_eq (sign : Signedness) (wrap : BitVec n → Field) (count : Nat)
    (destination : BitVec n) (hblock : offset.toNat + count ≤ data.size)
    (hfit : offset.toNat + count ≤ dataLen.toNat) :
    (unpackInteger sign (BitVec.ofNat w count) (byteShifts count 0) destination offset data
        dataLen).map (Prod.map id wrap)
      = some (BitVec.ofNat w count,
          wrap (BitVec.ofNat n (value (data.slice offset.toNat count)))) := by
  rw [unpackInteger_eq sign count destination hblock hfit]
  rfl

/-- **ONE FIELD IS UNPACKED** from the bytes of its type, whatever the destination held. -/
theorem unpackField_eq (destination : Field)
    (hblock : offset.toNat + destination.size ≤ data.size)
    (hfit : offset.toNat + destination.size ≤ dataLen.toNat) :
    unpackField offset data dataLen destination
      = some (BitVec.ofNat w destination.size,
          destination.type.decode (data.slice offset.toNat destination.size)) := by
  cases destination with
  | bool old =>
      rw [unpackField, leUnpackBool_eq old hblock hfit]
      rfl
  | u8 old => exact map_unpackInteger_eq .unsigned .u8 1 old hblock hfit
  | u16 old => exact map_unpackInteger_eq .unsigned .u16 2 old hblock hfit
  | u32 old => exact map_unpackInteger_eq .unsigned .u32 4 old hblock hfit
  | u64 old => exact map_unpackInteger_eq .unsigned .u64 8 old hblock hfit
  | s8 old => exact map_unpackInteger_eq .signed .s8 1 old hblock hfit
  | s16 old => exact map_unpackInteger_eq .signed .s16 2 old hblock hfit
  | s32 old => exact map_unpackInteger_eq .signed .s32 4 old hblock hfit
  | s64 old => exact map_unpackInteger_eq .signed .s64 8 old hblock hfit
  | raw old =>
      obtain ⟨block, hunpack, hslice⟩ := leUnpackRaw_eq old hblock hfit
      rw [unpackField, hunpack]
      show some (_, Field.raw _) = _
      rw [hslice]
      rfl

/-- A field is what is read from its bytes. -/
@[simp] theorem decode_bytes (field : Field) : field.type.decode field.bytes = field := by
  cases field with
  | bool element => cases element <;> rfl
  | u8 element => exact congrArg Field.u8 (ofNat_value_bytesOf 1 rfl element)
  | u16 element => exact congrArg Field.u16 (ofNat_value_bytesOf 2 rfl element)
  | u32 element => exact congrArg Field.u32 (ofNat_value_bytesOf 4 rfl element)
  | u64 element => exact congrArg Field.u64 (ofNat_value_bytesOf 8 rfl element)
  | s8 element => exact congrArg Field.s8 (ofNat_value_bytesOf 1 rfl element)
  | s16 element => exact congrArg Field.s16 (ofNat_value_bytesOf 2 rfl element)
  | s32 element => exact congrArg Field.s32 (ofNat_value_bytesOf 4 rfl element)
  | s64 element => exact congrArg Field.s64 (ofNat_value_bytesOf 8 rfl element)
  | raw rawData => rfl

/-! ## Runs over a record -/

/-- The offset after a field that fits. -/
theorem toNat_next_offset {size : Nat} (hfit : offset.toNat + size ≤ dataLen.toNat) :
    (offset + BitVec.ofNat w size).toNat = offset.toNat + size :=
  toNat_offset_add (Nat.lt_of_le_of_lt hfit dataLen.isLt)

/-- **A RECORD IS PACKED** as the concatenation of its fields. -/
theorem packRecord_eq (fields : List Field)
    (hblock : offset.toNat + recordSize fields ≤ data.size)
    (hfit : offset.toNat + recordSize fields ≤ dataLen.toNat) :
    packRecord offset data dataLen fields
      = some (fields.map fun field => BitVec.ofNat w field.size,
          data.overwrite offset.toNat (recordBytes fields)) := by
  induction fields generalizing offset data with
  | nil => rw [packRecord, recordBytes, List.flatMap_nil, Block.overwrite_nil, List.map_nil]
  | cons field fields ih =>
      rw [recordSize, List.map_cons, List.sum_cons, ← recordSize] at hblock hfit
      have hfield : offset.toNat + field.size ≤ dataLen.toNat := by omega
      have hnext : (offset + BitVec.ofNat w field.size).toNat
          = offset.toNat + field.bytes.length := by
        rw [toNat_next_offset hfield, length_bytes]
      have hrest : packRecord (offset + BitVec.ofNat w field.size)
          (data.overwrite offset.toNat field.bytes) dataLen fields
          = some (fields.map fun field => BitVec.ofNat w field.size,
              data.overwrite offset.toNat (recordBytes (field :: fields))) := by
        -- the rest is written over the block that holds the first field
        have hwritten : (data.overwrite offset.toNat field.bytes).size = data.size := rfl
        rw [ih (by rw [hwritten, hnext, length_bytes]; omega) (by rw [hnext, length_bytes]; omega),
          hnext, Block.overwrite_append]
        rfl
      rw [packRecord, packField_eq field (by omega) hfield]
      show (packRecord _ _ _ _).bind _ = _
      rw [hrest]
      rfl

/-- **A RECORD IS UNPACKED** from the concatenation of its fields. -/
theorem unpackRecord_eq {fields destinations : List Field}
    (htypes : destinations.map Field.type = fields.map Field.type)
    (hblock : offset.toNat + recordSize fields ≤ data.size)
    (hfit : offset.toNat + recordSize fields ≤ dataLen.toNat)
    (hbytes : data.slice offset.toNat (recordSize fields) = recordBytes fields) :
    unpackRecord offset data dataLen destinations
      = some (fields.map fun field => BitVec.ofNat w field.size, fields) := by
  induction fields generalizing offset destinations with
  | nil =>
      rw [List.map_nil, List.map_eq_nil_iff] at htypes
      rw [htypes]
      rfl
  | cons field fields ih =>
      cases destinations with
      | nil => exact nomatch htypes
      | cons destination destinations =>
          obtain ⟨htype, htypes'⟩ := List.cons.inj htypes
          rw [recordSize, List.map_cons, List.sum_cons, ← recordSize] at hblock hfit hbytes
          have hfield : offset.toNat + field.size ≤ dataLen.toNat := by omega
          have hnext : (offset + BitVec.ofNat w field.size).toNat = offset.toNat + field.size :=
            toNat_next_offset hfield
          have hsize : destination.size = field.size := by rw [Field.size, htype, Field.size]
          -- the bytes split into those of the first field and those of the rest
          rw [Block.slice_add, recordBytes, List.flatMap_cons] at hbytes
          obtain ⟨hfirst, hrest⟩ :=
            List.append_inj hbytes (by rw [Block.length_slice, length_bytes])
          have hunpack : unpackField offset data dataLen destination
              = some (BitVec.ofNat w field.size, field) := by
            rw [unpackField_eq destination (by omega) (by omega), hsize, hfirst, htype,
              decode_bytes]
          rw [unpackRecord, hunpack]
          show (unpackRecord _ _ _ _).bind _ = _
          rw [ih htypes' (by rw [hnext]; omega) (by rw [hnext]; omega) (by rw [hnext]; exact hrest)]
          rfl

/-- The sizes that the calls return are the fields' sizes. -/
theorem map_toNat_sizes {fields : List Field} (hfit : recordSize fields ≤ dataLen.toNat) :
    (fields.map fun field => BitVec.ofNat w field.size).map BitVec.toNat
      = fields.map Field.size := by
  have hlen := dataLen.isLt
  rw [List.map_map]
  apply List.map_congr_left
  intro field hfield
  have hle : field.size ≤ recordSize fields := List.le_sum_of_mem (List.mem_map_of_mem hfield)
  rw [Function.comp_apply, BitVec.toNat_ofNat, Nat.mod_eq_of_lt (by omega)]

end Buffer

/-- **RECORD ROUND TRIP**: fields packed in order and unpacked in the same order
    from the same offset come back as they were, with the same sizes, and no
    byte outside the record changes. -/
theorem record_round_trip (fields destinations : List Field)
    (htypes : destinations.map Field.type = fields.map Field.type) (data : Block Byte)
    (start dataLen : SizeT w) (hblock : data.size = dataLen.toNat)
    (hfit : start.toNat + recordSize fields ≤ dataLen.toNat) :
    ∃ sizes data', packRecord start data dataLen fields = some (sizes, data') ∧
      sizes.map BitVec.toNat = fields.map Field.size ∧
      unpackRecord start data' dataLen destinations = some (sizes, fields) ∧
      data'.size = data.size ∧
      ∀ i, i < start.toNat ∨ start.toNat + recordSize fields ≤ i →
        data'.cell i = data.cell i := by
  have hrecord : recordSize fields ≤ dataLen.toNat := by omega
  have hinside : start.toNat + recordSize fields ≤ data.size := by rw [hblock]; exact hfit
  have hbytes := Block.slice_overwrite_same data start.toNat (recordBytes fields)
  rw [length_recordBytes] at hbytes
  refine ⟨_, _, packRecord_eq fields hinside hfit, map_toNat_sizes hrecord, ?_, rfl, ?_⟩
  · exact unpackRecord_eq htypes hinside hfit hbytes
  · intro i hi
    exact Block.cell_overwrite_outside data _ (by rw [length_recordBytes]; exact hi)

/-- The round trip of a flag, a negative number and two raw bytes, into a
    buffer with one byte to spare on each side. -/
theorem record_round_trip_three_fields :
    ∃ sizes data', packRecord 1#8 ⟨7, fun _ => 0xAA⟩ 7
        [.bool true, .s16 (-2), .raw [3, 4]] = some (sizes, data') ∧
      unpackRecord 1#8 data' 7 [.bool false, .s16 0, .raw [0, 0]]
        = some (sizes, [.bool true, .s16 (-2), .raw [3, 4]]) := by
  obtain ⟨sizes, data', hpack, -, hunpack, -⟩ := record_round_trip
    [.bool true, .s16 (-2), .raw [3, 4]] [.bool false, .s16 0, .raw [0, 0]] rfl
    ⟨7, fun _ => 0xAA⟩ 1#8 7 rfl (by decide)
  exact ⟨sizes, data', hpack, hunpack⟩

end CembLePack
