import CEmbeddedUtils.LePackProofs
import Mathlib.Algebra.BigOperators.Intervals
import Mathlib.Tactic.Ring

/-! # What decoding means — the positional value, and back

    The number decoded from a field's bytes is their little-endian positional
    value, read in two's complement if the type is signed.  It has those bytes
    as its encoding, so that packing it back changes no byte, and no other
    bytes decode to it.  A boolean forgets which of the bytes other than 1 it
    was decoded from. -/

namespace CembLePack

open LittleEndian Memory

variable {w n : Nat}

/-! ## Numbers -/

/-- The number that a word of `bits` bits stands for in two's complement. -/
def twosComplement (bits v : Nat) : Int := if 2 * v < 2 ^ bits then v else (v : Int) - 2 ^ bits

/-- The number in a field of an integer type. -/
def Field.number : Field → Option Int
  | .u8 element => some element.toNat
  | .u16 element => some element.toNat
  | .u32 element => some element.toNat
  | .u64 element => some element.toNat
  | .s8 element => some element.toInt
  | .s16 element => some element.toInt
  | .s32 element => some element.toInt
  | .s64 element => some element.toInt
  | .bool _ => none
  | .raw _ => none

/-- The number that an integer type makes of a positional value. -/
def FieldType.interpret : FieldType → Nat → Option Int
  | .u8, v => some v
  | .u16, v => some v
  | .u32, v => some v
  | .u64, v => some v
  | .s8, v => some (twosComplement 8 v)
  | .s16, v => some (twosComplement 16 v)
  | .s32, v => some (twosComplement 32 v)
  | .s64, v => some (twosComplement 64 v)
  | .bool, _ => none
  | .raw _, _ => none

/-- The positional value of the bytes of a slice. -/
theorem value_slice (data : Block Byte) (off len : Nat) :
    value (data.slice off len)
      = ∑ i ∈ Finset.range len, (data.cell (off + i)).toNat * 256 ^ i := by
  induction len with
  | zero => rfl
  | succ len ih =>
      have hlast : data.slice (off + len) 1 = [data.cell (off + len)] := rfl
      rw [Block.slice_add, hlast, value_append_singleton, ih, Block.length_slice,
        Finset.sum_range_succ]

/-- An unsigned word holds a value in its range. -/
theorem toNat_ofNat_of_lt {v : Nat} (h : v < 2 ^ n) : (BitVec.ofNat n v).toNat = v := by
  rw [BitVec.toNat_ofNat, Nat.mod_eq_of_lt h]

/-- A signed word is its value in two's complement. -/
theorem toInt_ofNat_of_lt {v : Nat} (h : v < 2 ^ n) :
    (BitVec.ofNat n v).toInt = twosComplement n v := by
  rw [BitVec.toInt_eq_toNat_cond, toNat_ofNat_of_lt h, twosComplement]
  simp

/-! ## Decoded fields -/

section Decoded

variable {type : FieldType} {bytes : List Byte}

/-- A value of bytes in the range of a word of as many. -/
theorem value_lt_of_length {count : Nat} (hn : n = 8 * count) (hlength : bytes.length = count) :
    value bytes < 2 ^ n := by
  have hvalue := value_lt bytes
  rw [hlength] at hvalue
  rw [hn, pow_mul]
  exact hvalue

/-- What is decoded as a type has the type. -/
theorem type_decode (hlength : bytes.length = type.size) : (type.decode bytes).type = type := by
  cases type with
  | raw rawDataSize => exact congrArg FieldType.raw hlength
  | _ => rfl

/-- **THE NUMBER** that is decoded is the one the type makes of the value. -/
theorem number_decode (hlength : bytes.length = type.size) :
    (type.decode bytes).number = type.interpret (value bytes) := by
  cases type with
  | bool => rfl
  | raw rawDataSize => rfl
  | u8 =>
      have hnat := toNat_ofNat_of_lt (value_lt_of_length (n := 8) rfl hlength)
      exact congrArg (fun v : Nat => some (v : Int)) hnat
  | u16 =>
      have hnat := toNat_ofNat_of_lt (value_lt_of_length (n := 16) rfl hlength)
      exact congrArg (fun v : Nat => some (v : Int)) hnat
  | u32 =>
      have hnat := toNat_ofNat_of_lt (value_lt_of_length (n := 32) rfl hlength)
      exact congrArg (fun v : Nat => some (v : Int)) hnat
  | u64 =>
      have hnat := toNat_ofNat_of_lt (value_lt_of_length (n := 64) rfl hlength)
      exact congrArg (fun v : Nat => some (v : Int)) hnat
  | s8 => exact congrArg some (toInt_ofNat_of_lt (value_lt_of_length (n := 8) rfl hlength))
  | s16 => exact congrArg some (toInt_ofNat_of_lt (value_lt_of_length (n := 16) rfl hlength))
  | s32 => exact congrArg some (toInt_ofNat_of_lt (value_lt_of_length (n := 32) rfl hlength))
  | s64 => exact congrArg some (toInt_ofNat_of_lt (value_lt_of_length (n := 64) rfl hlength))

/-- A word of bytes has these bytes. -/
theorem bytesOf_ofNat_value {count : Nat} (hn : n = 8 * count) (hlength : bytes.length = count) :
    bytesOf count (BitVec.ofNat n (value bytes)).toNat = bytes := by
  rw [toNat_ofNat_of_lt (value_lt_of_length hn hlength), ← hlength, bytesOf_value]

/-- **ENCODING UNDOES DECODING**, except that of booleans. -/
theorem bytes_decode (hbool : type ≠ .bool) (hlength : bytes.length = type.size) :
    (type.decode bytes).bytes = bytes := by
  cases type with
  | bool => exact absurd rfl hbool
  | u8 => exact bytesOf_ofNat_value rfl hlength
  | u16 => exact bytesOf_ofNat_value rfl hlength
  | u32 => exact bytesOf_ofNat_value rfl hlength
  | u64 => exact bytesOf_ofNat_value rfl hlength
  | s8 => exact bytesOf_ofNat_value rfl hlength
  | s16 => exact bytesOf_ofNat_value rfl hlength
  | s32 => exact bytesOf_ofNat_value rfl hlength
  | s64 => exact bytesOf_ofNat_value rfl hlength
  | raw rawDataSize => rfl

end Decoded

/-! ## In the buffer -/

section Buffer

variable {data : Block Byte} {offset dataLen : SizeT w}

/-- A field decoded from the buffer and packed back where it was. -/
theorem packField_decode {type : FieldType} (hblock : offset.toNat + type.size ≤ data.size)
    (hfit : offset.toNat + type.size ≤ dataLen.toNat) :
    packField offset data dataLen (type.decode (data.slice offset.toNat type.size))
      = some (BitVec.ofNat w type.size, data.overwrite offset.toNat
          (type.decode (data.slice offset.toNat type.size)).bytes) := by
  have hsize : (type.decode (data.slice offset.toNat type.size)).size = type.size := by
    rw [Field.size, type_decode (Block.length_slice _ _ _)]
  rw [packField_eq _ (by rw [hsize]; exact hblock) (by rw [hsize]; exact hfit), hsize]

/-- Writing one cell changes nothing exactly when it holds the element. -/
theorem overwrite_singleton_eq {off : Nat} {byte : Byte} :
    data.overwrite off [byte] = data ↔ data.cell off = byte := by
  constructor
  · intro h
    have hcell : (data.overwrite off [byte]).cell (off + 0) = byte :=
      data.cell_overwrite_inside [byte] Nat.one_pos
    rw [h] at hcell
    exact hcell
  · rintro rfl
    exact data.overwrite_slice off 1

/-- A boolean decoded from a byte is packed back as the byte exactly if this was
    0 or 1. -/
theorem bool_repacked (old : Bool) (hblock : offset.toNat + 1 ≤ data.size)
    (hfit : offset.toNat + 1 ≤ dataLen.toNat) :
    ∃ ret element data', leUnpackBool old offset data dataLen = some (ret, element) ∧
      lePackBool element offset data dataLen = some (ret, data') ∧
      (data' = data ↔ data.cell offset.toNat = 0 ∨ data.cell offset.toNat = 1) := by
  refine ⟨_, _, _, leUnpackBool_eq old hblock hfit,
    packField_eq (.bool (data.cell offset.toNat == 1)) hblock hfit, ?_⟩
  rw [Field.bytes, overwrite_singleton_eq]
  by_cases hone : data.cell offset.toNat = 1#8
  · simp [hone]
  · simp [hone]

end Buffer

/-- **POSITIONAL DECODING**: an integer type decodes the sum of its bytes, each
    times its power of 256, in two's complement if it is signed; packed back this
    leaves the whole buffer, and only those bytes decode to it.  A boolean packed
    back leaves the buffer exactly if its byte was 0 or 1. -/
theorem le_unpack_positional (offset dataLen : SizeT w) (data : Block Byte) :
    (∀ destination : Field, destination.number ≠ none →
      offset.toNat + destination.size ≤ data.size →
      offset.toNat + destination.size ≤ dataLen.toNat →
      ∃ ret decoded, unpackField offset data dataLen destination = some (ret, decoded) ∧
        decoded.type = destination.type ∧
        decoded.number = destination.type.interpret
          (∑ i ∈ Finset.range destination.size, (data.cell (offset.toNat + i)).toNat * 256 ^ i) ∧
        packField offset data dataLen decoded = some (ret, data) ∧
        ∀ (offset' dataLen' : SizeT w) (data' : Block Byte),
          offset'.toNat + destination.size ≤ data'.size →
          offset'.toNat + destination.size ≤ dataLen'.toNat →
          unpackField offset' data' dataLen' destination = some (ret, decoded) →
          data'.slice offset'.toNat destination.size
            = data.slice offset.toNat destination.size) ∧
    (∀ old : Bool, offset.toNat + 1 ≤ data.size → offset.toNat + 1 ≤ dataLen.toNat →
      ∃ ret element data', leUnpackBool old offset data dataLen = some (ret, element) ∧
        lePackBool element offset data dataLen = some (ret, data') ∧
        (data' = data ↔ data.cell offset.toNat = 0 ∨ data.cell offset.toNat = 1)) := by
  constructor
  · intro destination hinteger hblock hfit
    have hbool : destination.type ≠ .bool := by
      intro h
      cases destination with
      | bool old => exact hinteger rfl
      | _ => exact nomatch h
    have hbytes : ∀ (block : Block Byte) off,
        (destination.type.decode (block.slice off destination.size)).bytes
          = block.slice off destination.size := by
      intro block off
      exact bytes_decode hbool (Block.length_slice _ _ _)
    refine ⟨_, _, unpackField_eq destination hblock hfit, type_decode (Block.length_slice _ _ _),
      ?_, ?_, ?_⟩
    · have hnumber := number_decode (data.length_slice offset.toNat destination.type.size)
      rw [value_slice] at hnumber
      exact hnumber
    · have hpack := packField_decode hblock hfit
      rw [← Field.size, hbytes data, Block.overwrite_slice] at hpack
      exact hpack
    · intro offset' dataLen' data' hblock' hfit' hunpack
      rw [unpackField_eq destination hblock' hfit'] at hunpack
      obtain ⟨-, hdecoded⟩ := Prod.mk.inj (Option.some.inj hunpack)
      rw [← hbytes data', hdecoded, hbytes data]
  · intro old hblock hfit
    exact bool_repacked old hblock hfit

/-- The decoding of two bytes as a negative number. -/
theorem le_unpack_positional_minus_two :
    ∃ ret decoded, unpackField 0#16 (Block.ofList 0 [0xFE, 0xFF]) 2 (.s16 0) = some (ret, decoded) ∧
      decoded.number = some (-2) := by
  obtain ⟨ret, decoded, hunpack, -, hnumber, -⟩ :=
    (le_unpack_positional 0#16 2 (Block.ofList 0 [0xFE, 0xFF])).1 (.s16 0) (by decide) (by decide)
      (by decide)
  exact ⟨ret, decoded, hunpack, hnumber.trans (by decide)⟩

end CembLePack
