import CEmbeddedUtils.LePackBoundsProofs
import Mathlib.Data.List.ReduceOption

/-! # Records that do not fit — what is left out, and what comes back

    Each call of a record checks for itself whether its field ends inside the
    buffer, and a call that is refused returns 0.  The caller adds that to the
    offset, and so the next field is tried in the same place: a record that is
    too long is not cut off at its end, it is packed without the fields that do
    not fit where their turn comes, and a shorter field further on may still.

    `place` says which fields those are.  Unpacking meets the same checks at the
    same offsets, so it skips the same fields: what was packed comes back, and
    the destinations of the others keep what they held
    (`record_overflow_skips`). -/

namespace CembLePack

open LittleEndian Memory

variable {w : Nat}

/-- The fields that find a place when there is room for so many bytes, in the
    order of the record. -/
def place : Nat → List Field → List (Option Field)
  | _, [] => []
  | room, field :: fields =>
      if field.size ≤ room then some field :: place (room - field.size) fields
      else none :: place room fields

/-- The fields that found a place. -/
def placed (room : Nat) (fields : List Field) : List Field := (place room fields).reduceOption

/-- The sizes that the calls return. -/
def placedSizes (room : Nat) (fields : List Field) : List Nat :=
  (place room fields).map fun field => field.elim 0 Field.size

/-- The destinations after the calls. -/
def placedOr (room : Nat) (fields destinations : List Field) : List Field :=
  List.zipWith Option.getD (place room fields) destinations

section Place

variable {room : Nat} {field destination : Field} {fields destinations : List Field}

theorem placed_of_le (h : field.size ≤ room) :
    placed room (field :: fields) = field :: placed (room - field.size) fields := by
  rw [placed, place, if_pos h, List.reduceOption_cons_of_some, placed]

theorem placed_of_not_le (h : ¬ field.size ≤ room) :
    placed room (field :: fields) = placed room fields := by
  rw [placed, place, if_neg h, List.reduceOption_cons_of_none, placed]

theorem placedSizes_of_le (h : field.size ≤ room) :
    placedSizes room (field :: fields) = field.size :: placedSizes (room - field.size) fields := by
  rw [placedSizes, place, if_pos h, List.map_cons, placedSizes]
  rfl

theorem placedSizes_of_not_le (h : ¬ field.size ≤ room) :
    placedSizes room (field :: fields) = 0 :: placedSizes room fields := by
  rw [placedSizes, place, if_neg h, List.map_cons, placedSizes]
  rfl

theorem placedOr_of_le (h : field.size ≤ room) :
    placedOr room (field :: fields) (destination :: destinations)
      = field :: placedOr (room - field.size) fields destinations := by
  rw [placedOr, place, if_pos h]
  rfl

theorem placedOr_of_not_le (h : ¬ field.size ≤ room) :
    placedOr room (field :: fields) (destination :: destinations)
      = destination :: placedOr room fields destinations := by
  rw [placedOr, place, if_neg h]
  rfl

/-- What is placed fits into the room, each in the place of the others before. -/
theorem recordSize_placed_le (room : Nat) (fields : List Field) :
    recordSize (placed room fields) ≤ room := by
  induction fields generalizing room with
  | nil => exact Nat.zero_le room
  | cons field fields ih =>
      by_cases h : field.size ≤ room
      · have hrest := ih (room - field.size)
        rw [placed_of_le h, recordSize, List.map_cons, List.sum_cons, ← recordSize]
        omega
      · rw [placed_of_not_le h]
        exact ih room

end Place

section Buffer

variable {data : Block Byte} {offset dataLen : SizeT w}

/-- A field of no bytes is packed and unpacked without any, wherever the offset is. -/
theorem empty_field {field destination : Field} (hempty : field.size = 0)
    (htype : destination.type = field.type) : destination = field ∧ field.bytes = [] := by
  have hsize : destination.size = 0 := by
    rw [Field.size, htype, ← Field.size, hempty]
  have hbytes : ∀ other : Field, other.size = 0 → other.bytes = [] := by
    intro other h
    rw [← List.length_eq_zero_iff, length_bytes, h]
  refine ⟨?_, hbytes field hempty⟩
  rw [← decode_bytes destination, htype, hbytes destination hsize, ← hbytes field hempty,
    decode_bytes]

/-- **ONE FIELD** is packed over the bytes at the offset where there is room for
    it, and is skipped where there is none. -/
theorem packField_room (hblock : data.size = dataLen.toNat) {field : Field}
    (hsize : field.size < 2 ^ w) :
    packField offset data dataLen field
      = if field.size ≤ dataLen.toNat - offset.toNat
        then some (BitVec.ofNat w field.size, data.overwrite offset.toNat field.bytes)
        else some (0, data) := by
  by_cases hroom : field.size ≤ dataLen.toNat - offset.toNat
  · rw [if_pos hroom]
    rcases Nat.eq_zero_or_pos field.size with hempty | hpos
    · rw [packField_rejected hsize (by omega), (empty_field hempty rfl).2, Block.overwrite_nil,
        hempty]
      rfl
    · exact packField_eq field (by omega) (by omega)
  · rw [if_neg hroom]
    exact packField_rejected hsize (by omega)

/-- **ONE DESTINATION** gets the field whose bytes are at the offset where there
    was room for it, and stays as it is where there was none. -/
theorem unpackField_room (hblock : data.size = dataLen.toNat) {field destination : Field}
    (hsize : field.size < 2 ^ w) (htype : destination.type = field.type)
    (hbytes : field.size ≤ dataLen.toNat - offset.toNat →
      data.slice offset.toNat field.size = field.bytes) :
    unpackField offset data dataLen destination
      = if field.size ≤ dataLen.toNat - offset.toNat
        then some (BitVec.ofNat w field.size, field) else some (0, destination) := by
  have hsame : destination.size = field.size := by
    rw [Field.size, htype, ← Field.size]
  by_cases hroom : field.size ≤ dataLen.toNat - offset.toNat
  · rw [if_pos hroom]
    rcases Nat.eq_zero_or_pos field.size with hempty | hpos
    · rw [unpackField_rejected (by omega) (by omega), (empty_field hempty htype).1, hempty]
      rfl
    · rw [unpackField_eq destination (by omega) (by omega), hsame, hbytes hroom, htype,
        decode_bytes]
  · rw [if_neg hroom]
    exact unpackField_rejected (by omega) (by omega)

/-- The offset after a field that is placed. -/
theorem toNat_offset_placed {dataLen offset : SizeT w} {size : Nat}
    (hroom : size ≤ dataLen.toNat - offset.toNat) :
    (offset + BitVec.ofNat w size).toNat = offset.toNat + size := by
  have hoffset := offset.isLt
  have hlen := dataLen.isLt
  exact toNat_offset_add (by omega)

/-- **A RECORD IS PACKED** as the concatenation of the fields that are placed. -/
theorem packRecord_room {dataLen : SizeT w} (fields : List Field) :
    ∀ {offset : SizeT w} {data : Block Byte}, data.size = dataLen.toNat →
      (∀ field ∈ fields, field.size < 2 ^ w) →
      ∃ sizes, packRecord offset data dataLen fields
          = some (sizes, data.overwrite offset.toNat
              (recordBytes (placed (dataLen.toNat - offset.toNat) fields))) ∧
        sizes.map BitVec.toNat = placedSizes (dataLen.toNat - offset.toNat) fields := by
  induction fields with
  | nil =>
      intro offset data _ _
      refine ⟨[], ?_, rfl⟩
      show some ([], data) = some ([], data.overwrite offset.toNat [])
      rw [Block.overwrite_nil]
  | cons field fields ih =>
      intro offset data hblock hsizes
      obtain ⟨hsize, hsizes'⟩ := List.forall_mem_cons.mp hsizes
      rw [packRecord, packField_room hblock hsize]
      by_cases hroom : field.size ≤ dataLen.toNat - offset.toNat
      · have hnext := toNat_offset_placed hroom
        have hleft : dataLen.toNat - (offset.toNat + field.size)
            = dataLen.toNat - offset.toNat - field.size := Nat.sub_add_eq _ _ _
        -- the rest is written over the block that holds this field
        have hblock' : (data.overwrite offset.toNat field.bytes).size = dataLen.toNat := hblock
        obtain ⟨sizes, hrest, hmap⟩ := ih hblock' hsizes'
        rw [hnext, hleft] at hrest hmap
        rw [if_pos hroom, placed_of_le hroom, placedSizes_of_le hroom]
        refine ⟨BitVec.ofNat w field.size :: sizes, ?_, ?_⟩
        · show (packRecord (offset + BitVec.ofNat w field.size) _ dataLen fields).bind _ = _
          rw [hrest, ← length_bytes, Block.overwrite_append]
          rfl
        · rw [List.map_cons, hmap, BitVec.toNat_ofNat, Nat.mod_eq_of_lt hsize]
      · obtain ⟨sizes, hrest, hmap⟩ := ih hblock hsizes'
        have hstay : offset + 0 = offset := BitVec.add_zero offset
        rw [if_neg hroom, placed_of_not_le hroom, placedSizes_of_not_le hroom]
        refine ⟨0 :: sizes, ?_, ?_⟩
        · show (packRecord (offset + 0) data dataLen fields).bind _ = _
          rw [hstay, hrest]
          rfl
        · rw [List.map_cons, hmap, SizeT.toNat_eq_zero.mpr rfl]

/-- **A RECORD IS UNPACKED** where the bytes of the placed fields are: they come
    back, and the other destinations stay. -/
theorem unpackRecord_room {data : Block Byte} {dataLen : SizeT w} (fields : List Field) :
    ∀ {offset : SizeT w} {destinations : List Field}, data.size = dataLen.toNat →
      (∀ field ∈ fields, field.size < 2 ^ w) →
      destinations.map Field.type = fields.map Field.type →
      data.slice offset.toNat (recordSize (placed (dataLen.toNat - offset.toNat) fields))
        = recordBytes (placed (dataLen.toNat - offset.toNat) fields) →
      ∃ sizes, unpackRecord offset data dataLen destinations
          = some (sizes, placedOr (dataLen.toNat - offset.toNat) fields destinations) ∧
        sizes.map BitVec.toNat = placedSizes (dataLen.toNat - offset.toNat) fields := by
  induction fields with
  | nil =>
      intro offset destinations _ _ htypes _
      rw [List.map_nil, List.map_eq_nil_iff] at htypes
      rw [htypes]
      exact ⟨[], rfl, rfl⟩
  | cons field fields ih =>
      intro offset destinations hblock hsizes htypes hbytes
      cases destinations with
      | nil => cases htypes
      | cons destination destinations =>
          obtain ⟨htype, htypes'⟩ := List.cons.inj htypes
          obtain ⟨hsize, hsizes'⟩ := List.forall_mem_cons.mp hsizes
          by_cases hroom : field.size ≤ dataLen.toNat - offset.toNat
          · have hnext := toNat_offset_placed hroom
            have hleft : dataLen.toNat - (offset.toNat + field.size)
                = dataLen.toNat - offset.toNat - field.size := Nat.sub_add_eq _ _ _
            -- the bytes split into those of this field and those of the rest
            rw [placed_of_le hroom, recordSize, List.map_cons, List.sum_cons, ← recordSize,
              Block.slice_add, recordBytes, List.flatMap_cons] at hbytes
            obtain ⟨hfirst, hrest⟩ :=
              List.append_inj hbytes (by rw [Block.length_slice, length_bytes])
            rw [← hleft, ← hnext] at hrest
            obtain ⟨sizes, hunpack, hmap⟩ := ih hblock hsizes' htypes' hrest
            rw [hnext, hleft] at hunpack hmap
            rw [unpackRecord, unpackField_room hblock hsize htype (fun _ => hfirst),
              if_pos hroom, placedOr_of_le hroom, placedSizes_of_le hroom]
            refine ⟨BitVec.ofNat w field.size :: sizes, ?_, ?_⟩
            · show (unpackRecord (offset + BitVec.ofNat w field.size) data dataLen _).bind _ = _
              rw [hunpack]
              rfl
            · rw [List.map_cons, hmap, BitVec.toNat_ofNat, Nat.mod_eq_of_lt hsize]
          · have hstay : offset + 0 = offset := BitVec.add_zero offset
            rw [placed_of_not_le hroom] at hbytes
            obtain ⟨sizes, hunpack, hmap⟩ := ih hblock hsizes' htypes' hbytes
            rw [unpackRecord, unpackField_room hblock hsize htype (fun h => absurd h hroom),
              if_neg hroom, placedOr_of_not_le hroom, placedSizes_of_not_le hroom]
            refine ⟨0 :: sizes, ?_, ?_⟩
            · show (unpackRecord (offset + 0) data dataLen destinations).bind _ = _
              rw [hstay, hunpack]
              rfl
            · rw [List.map_cons, hmap, SizeT.toNat_eq_zero.mpr rfl]

end Buffer

/-- **A RECORD THAT IS TOO LONG** is packed without the fields for which there is
    no room when their turn comes, and with all the others, one behind the other
    and inside the buffer.  Unpacked into destinations of the same types from the
    same offset, every field that was packed comes back, every destination of one
    that was not keeps what it held, and the same sizes are returned. -/
theorem record_overflow_skips (fields destinations : List Field)
    (htypes : destinations.map Field.type = fields.map Field.type) (data : Block Byte)
    (start dataLen : SizeT w) (hblock : data.size = dataLen.toNat)
    (hsizes : ∀ field ∈ fields, field.size < 2 ^ w) :
    ∃ sizes data', packRecord start data dataLen fields = some (sizes, data') ∧
      sizes.map BitVec.toNat = placedSizes (dataLen.toNat - start.toNat) fields ∧
      data' = data.overwrite start.toNat
        (recordBytes (placed (dataLen.toNat - start.toNat) fields)) ∧
      recordSize (placed (dataLen.toNat - start.toNat) fields) ≤ dataLen.toNat - start.toNat ∧
      unpackRecord start data' dataLen destinations
        = some (sizes, placedOr (dataLen.toNat - start.toNat) fields destinations) := by
  obtain ⟨sizes, hpack, hmap⟩ := packRecord_room fields hblock hsizes
  have hblock' : (data.overwrite start.toNat
      (recordBytes (placed (dataLen.toNat - start.toNat) fields))).size = dataLen.toNat := hblock
  have hbytes := Block.slice_overwrite_same data start.toNat
    (recordBytes (placed (dataLen.toNat - start.toNat) fields))
  rw [length_recordBytes] at hbytes
  obtain ⟨sizes', hunpack, hmap'⟩ := unpackRecord_room fields hblock' hsizes htypes hbytes
  have hinjective : Function.Injective (BitVec.toNat (w := w)) := fun _ _ h =>
    BitVec.eq_of_toNat_eq h
  obtain rfl : sizes' = sizes := hinjective.list_map (hmap'.trans hmap.symm)
  exact ⟨sizes', _, hpack, hmap, rfl, recordSize_placed_le _ _, hunpack⟩

/-- Of a number of four bytes, a flag and two raw bytes, three bytes take the last two. -/
theorem record_overflow_skips_long_number :
    ∃ sizes data', packRecord 0#8 (Block.ofList 0 [9, 9, 9]) 3
        [.u32 5, .bool true, .raw [7, 8]] = some (sizes, data') ∧
      sizes.map BitVec.toNat = [0, 1, 2] ∧
      unpackRecord 0#8 data' 3 [.u32 1, .bool false, .raw [0, 0]]
        = some (sizes, [.u32 1, .bool true, .raw [7, 8]]) := by
  obtain ⟨sizes, data', hpack, hmap, -, -, hunpack⟩ := record_overflow_skips
    [.u32 5, .bool true, .raw [7, 8]] [.u32 1, .bool false, .raw [0, 0]] rfl
    (Block.ofList 0 [9, 9, 9]) 0#8 3 rfl (by decide)
  exact ⟨sizes, data', hpack, hmap, hunpack⟩

end CembLePack
