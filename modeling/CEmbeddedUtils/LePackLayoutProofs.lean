import CEmbeddedUtils.LePackDecodeProofs
import CEmbeddedUtils.TransducerProofs

/-! # A buffer laid out as a record — fields read and written in place

    The offset is an argument of every call, so a client need not pack a record
    from its start to its end: it can lay the fields out once, at positions that
    do not overlap, and then pack and unpack any of them at any time.

    Such a buffer is a store of fields: what is unpacked from a place is the
    last field packed there (`le_pack_refines_record_store`), and of the order
    of the calls nothing shows in the buffer but which field came last at each
    place (`le_pack_order_irrelevant`). -/

namespace CembLePack

open LittleEndian Memory Transducer

variable {w : Nat} {ι : Type}

/-- Places for fields in a buffer of `dataLen` bytes, none of which overlap. -/
structure Layout (w : Nat) (ι : Type) where
  dataLen : SizeT w
  offset : ι → SizeT w
  type : ι → FieldType
  fit : ∀ i, (offset i).toNat + (type i).size ≤ dataLen.toNat
  apart : ∀ i j, i ≠ j → (offset i).toNat + (type i).size ≤ (offset j).toNat ∨
    (offset j).toNat + (type j).size ≤ (offset i).toNat

/-- A field of the type of its place. -/
abbrev Layout.FieldAt (layout : Layout w ι) (i : ι) : Type :=
  { field : Field // field.type = layout.type i }

/-- The calls a client of the layout makes. -/
inductive LayoutOp (layout : Layout w ι) where
  | pack (i : ι) (field : layout.FieldAt i)
  | unpack (i : ι) (destination : layout.FieldAt i)

/-- What a call returns; an unpack also leaves a field in its destination. -/
inductive LayoutResponse (w : Nat) where
  | packed (size : SizeT w)
  | unpacked (size : SizeT w) (field : Field)

/-- A call at a place of the layout. -/
def layoutStep (layout : Layout w ι) : Step (Block Byte) (LayoutOp layout) (LayoutResponse w)
  | data, .pack i field =>
      (packField (layout.offset i) data layout.dataLen field.val).map fun (size, data') =>
        (.packed size, data')
  | data, .unpack i destination =>
      (unpackField (layout.offset i) data layout.dataLen destination.val).map
        fun (size, field) => (.unpacked size field, data)

/-- What the buffer is for: a field for every place. -/
abbrev Layout.Record (layout : Layout w ι) : Type := (i : ι) → layout.FieldAt i

/-- A pack replaces the field of its place, and an unpack shows it. -/
def recordStore [DecidableEq ι] (layout : Layout w ι) :
    Spec layout.Record (LayoutOp layout) (LayoutResponse w)
  | record, .pack i field =>
      (.packed (BitVec.ofNat w (layout.type i).size), Function.update record i field)
  | record, .unpack i _ =>
      (.unpacked (BitVec.ofNat w (layout.type i).size) (record i).val, record)

/-- The bytes of a place. -/
def Layout.bytesAt (layout : Layout w ι) (data : Block Byte) (i : ι) : List Byte :=
  data.slice (layout.offset i).toNat (layout.type i).size

/-- The record that a buffer holds. -/
def Layout.decode (layout : Layout w ι) (data : Block Byte) : layout.Record := fun i =>
  ⟨(layout.type i).decode (layout.bytesAt data i), type_decode (Block.length_slice _ _ _)⟩

/-- A position that belongs to no place. -/
def Layout.Spare (layout : Layout w ι) (k : Nat) : Prop :=
  ∀ i, k < (layout.offset i).toNat ∨ (layout.offset i).toNat + (layout.type i).size ≤ k

section Places

variable {layout : Layout w ι} {data : Block Byte}

theorem size_fieldAt {i : ι} (field : layout.FieldAt i) :
    field.val.size = (layout.type i).size := by
  rw [Field.size, field.property]

theorem decode_fieldAt {i : ι} (field : layout.FieldAt i) :
    (layout.type i).decode field.val.bytes = field.val := by
  have hdecode := decode_bytes field.val
  rwa [field.property] at hdecode

/-- **ONE PACK** writes the bytes of the field over those of its place. -/
theorem layoutStep_pack (hblock : data.size = layout.dataLen.toNat) (i : ι)
    (field : layout.FieldAt i) :
    ∃ data', layoutStep layout data (.pack i field)
        = some (.packed (BitVec.ofNat w (layout.type i).size), data') ∧
      data'.size = data.size ∧ layout.bytesAt data' i = field.val.bytes ∧
      (∀ j, j ≠ i → layout.bytesAt data' j = layout.bytesAt data j) ∧
      ∀ k, layout.Spare k → data'.cell k = data.cell k := by
  have hsize := size_fieldAt field
  have hfit : (layout.offset i).toNat + field.val.size ≤ layout.dataLen.toNat := by
    rw [hsize]
    exact layout.fit i
  have hpack := packField_eq field.val (by rw [hblock]; exact hfit) hfit
  refine ⟨data.overwrite (layout.offset i).toNat field.val.bytes, ?_, rfl, ?_, ?_, ?_⟩
  · rw [layoutStep, hpack, hsize]
    rfl
  · have hsame := data.slice_overwrite_same (layout.offset i).toNat field.val.bytes
    rw [length_bytes, hsize] at hsame
    exact hsame
  · intro j hj
    refine data.slice_overwrite_disjoint field.val.bytes ?_
    rw [length_bytes, hsize]
    exact layout.apart j i hj
  · intro k hk
    refine data.cell_overwrite_outside field.val.bytes ?_
    rw [length_bytes, hsize]
    exact hk i

/-- **ONE UNPACK** reads the bytes of its place, and changes none. -/
theorem layoutStep_unpack (hblock : data.size = layout.dataLen.toNat) (i : ι)
    (destination : layout.FieldAt i) :
    layoutStep layout data (.unpack i destination)
      = some (.unpacked (BitVec.ofNat w (layout.type i).size) (layout.decode data i).val,
          data) := by
  have hsize := size_fieldAt destination
  have hfit : (layout.offset i).toNat + destination.val.size ≤ layout.dataLen.toNat := by
    rw [hsize]
    exact layout.fit i
  have hunpack := unpackField_eq destination.val (by rw [hblock]; exact hfit) hfit
  rw [layoutStep, hunpack, hsize, destination.property]
  rfl

end Places

/-! ## A store of fields -/

/-- The buffer `data`, made from `data₀`, holds the record. -/
structure HoldsRecord (layout : Layout w ι) (data₀ data : Block Byte) (record : layout.Record) :
    Prop where
  size : data.size = layout.dataLen.toNat
  decode : layout.decode data = record
  spare : ∀ k, layout.Spare k → data.cell k = data₀.cell k

/-- **ONE CALL** does to the buffer what it does to the record. -/
theorem holdsRecord_simulates [DecidableEq ι] (layout : Layout w ι) (data₀ : Block Byte) :
    Simulates (layoutStep layout) (recordStore layout) (HoldsRecord layout data₀) := by
  rintro data _ op ⟨hsize, rfl, hspare⟩
  cases op with
  | unpack i destination =>
      exact ⟨data, layoutStep_unpack hsize i destination, hsize, rfl, hspare⟩
  | pack i field =>
      obtain ⟨data', hstep, hsize', hbytes, hothers, hspare'⟩ := layoutStep_pack hsize i field
      refine ⟨data', hstep, hsize'.trans hsize, ?_, ?_⟩
      · funext j
        apply Subtype.ext
        show (layout.type j).decode (layout.bytesAt data' j)
          = (Function.update (layout.decode data) i field j).val
        by_cases hj : j = i
        · subst hj
          rw [Function.update_self, hbytes]
          exact decode_fieldAt field
        · rw [Function.update_of_ne hj, hothers j hj]
          rfl
      · intro k hk
        rw [hspare' k hk]
        exact hspare k hk

/-- **A LAID-OUT BUFFER IS A STORE OF FIELDS**: in any run of calls at its places
    every unpack returns the field that was packed there last, or the one the
    buffer came with; every call returns the size of its field; and the bytes
    between the places stay what they were. -/
theorem le_pack_refines_record_store [DecidableEq ι] (layout : Layout w ι) (data : Block Byte)
    (hblock : data.size = layout.dataLen.toNat) (ops : List (LayoutOp layout)) :
    ∃ data', run (layoutStep layout) data ops
        = some ((runSpec (recordStore layout) (layout.decode data) ops).1, data') ∧
      layout.decode data' = (runSpec (recordStore layout) (layout.decode data) ops).2 ∧
      ∀ k, layout.Spare k → data'.cell k = data.cell k := by
  obtain ⟨data', hrun, h⟩ := run_refines (holdsRecord_simulates layout data) ops data
    (layout.decode data) ⟨hblock, rfl, fun _ _ => rfl⟩
  exact ⟨data', hrun, h.decode, h.spare⟩

/-- A flag in the first byte and a number in the last two of four. -/
def flagAndNumber : Layout 8 Bool where
  dataLen := 4
  offset := fun number => if number then 2 else 0
  type := fun number => if number then .s16 else .bool
  fit := by decide
  apart := by decide

/-- The number is packed, then the flag, then another number over the first. -/
theorem le_pack_refines_record_store_flag_and_number :
    ∃ data', run (layoutStep flagAndNumber) (Block.ofList 0 [9, 9, 9, 9])
        [.pack true ⟨.s16 (-2), rfl⟩, .pack false ⟨.bool true, rfl⟩,
          .unpack true ⟨.s16 0, rfl⟩, .pack true ⟨.s16 3, rfl⟩, .unpack false ⟨.bool false, rfl⟩]
      = some ([.packed 2, .packed 1, .unpacked 2 (.s16 (-2)), .packed 2,
          .unpacked 1 (.bool true)], data') := by
  obtain ⟨data', hrun, -, -⟩ := le_pack_refines_record_store flagAndNumber
    (Block.ofList 0 [9, 9, 9, 9]) rfl [.pack true ⟨.s16 (-2), rfl⟩, .pack false ⟨.bool true, rfl⟩,
      .unpack true ⟨.s16 0, rfl⟩, .pack true ⟨.s16 3, rfl⟩, .unpack false ⟨.bool false, rfl⟩]
  exact ⟨data', hrun⟩

/-! ## The order of the calls -/

section Order

variable [DecidableEq ι] {layout : Layout w ι}

/-- The field that was packed last at each place, after one call more. -/
def packedAfter (last : (i : ι) → Option (layout.FieldAt i)) :
    LayoutOp layout → (i : ι) → Option (layout.FieldAt i)
  | .pack i field => Function.update last i (some field)
  | .unpack _ _ => last

/-- The field that the calls packed last at each place, if any. -/
def lastPacked (ops : List (LayoutOp layout)) : (i : ι) → Option (layout.FieldAt i) :=
  ops.foldl packedAfter fun _ => none

theorem lastPacked_concat (ops : List (LayoutOp layout)) (op : LayoutOp layout) :
    lastPacked (ops ++ [op]) = packedAfter (lastPacked ops) op := by
  rw [lastPacked, List.foldl_append]
  rfl

/-- The buffer after the calls: at each place the bytes of the field packed there
    last, and elsewhere those of the buffer before. -/
structure IsImage (layout : Layout w ι) (data₀ : Block Byte) (ops : List (LayoutOp layout))
    (data : Block Byte) : Prop where
  size : data.size = layout.dataLen.toNat
  bytes : ∀ i, layout.bytesAt data i
    = (lastPacked ops i).elim (layout.bytesAt data₀ i) fun field => field.val.bytes
  spare : ∀ k, layout.Spare k → data.cell k = data₀.cell k

/-- **ONE CALL MORE** makes the image of one call more. -/
theorem IsImage.step {data₀ data : Block Byte} {past : List (LayoutOp layout)}
    (h : IsImage layout data₀ past data) (op : LayoutOp layout) :
    ∃ response data', layoutStep layout data op = some (response, data') ∧
      IsImage layout data₀ (past ++ [op]) data' := by
  cases op with
  | unpack i destination =>
      refine ⟨_, data, layoutStep_unpack h.size i destination, h.size, ?_, h.spare⟩
      rw [lastPacked_concat]
      exact h.bytes
  | pack i field =>
      obtain ⟨data', hstep, hsize, hbytes, hothers, hspare⟩ := layoutStep_pack h.size i field
      refine ⟨_, data', hstep, hsize.trans h.size, ?_, ?_⟩
      · intro j
        rw [lastPacked_concat, packedAfter]
        by_cases hj : j = i
        · subst hj
          rw [Function.update_self, hbytes]
          rfl
        · rw [Function.update_of_ne hj, hothers j hj]
          exact h.bytes j
      · intro k hk
        rw [hspare k hk]
        exact h.spare k hk

/-- There is one image for each choice of last fields. -/
theorem IsImage.unique {data₀ data data' : Block Byte} {ops ops' : List (LayoutOp layout)}
    (h : IsImage layout data₀ ops data) (h' : IsImage layout data₀ ops' data')
    (hlast : lastPacked ops = lastPacked ops') : data = data' := by
  have hcell : data.cell = data'.cell := by
    funext k
    by_cases hk : layout.Spare k
    · rw [h.spare k hk, h'.spare k hk]
    · -- a position that is not spare is one of a place, and the places agree
      simp only [Layout.Spare, not_forall, not_or, not_lt, not_le] at hk
      obtain ⟨i, hle, hlt⟩ := hk
      obtain ⟨d, rfl⟩ := Nat.exists_eq_add_of_le hle
      have hd : d < (layout.type i).size := Nat.lt_of_add_lt_add_left hlt
      have hbytes : layout.bytesAt data i = layout.bytesAt data' i := by
        rw [h.bytes, h'.bytes, hlast]
      have hat : (layout.bytesAt data i)[d]? = (layout.bytesAt data' i)[d]? := by
        rw [hbytes]
      rw [Layout.bytesAt, Layout.bytesAt, List.getElem?_eq_getElem (by rwa [Block.length_slice]),
        List.getElem?_eq_getElem (by rwa [Block.length_slice]), Block.getElem_slice,
        Block.getElem_slice] at hat
      exact Option.some.inj hat
  obtain ⟨size, cell⟩ := data
  obtain ⟨size', cell'⟩ := data'
  have hsize : size = size' := h.size.trans h'.size.symm
  simp only at hcell
  rw [hsize, hcell]

end Order

/-- **THE ORDER DOES NOT SHOW**: two runs of calls that pack the same field last at
    each place, whatever else they pack and unpack and in whatever order, leave
    the same buffer to the last byte. -/
theorem le_pack_order_irrelevant [DecidableEq ι] (layout : Layout w ι) (data : Block Byte)
    (hblock : data.size = layout.dataLen.toNat) (ops ops' : List (LayoutOp layout))
    (hlast : lastPacked ops = lastPacked ops') :
    ∃ responses responses' data', run (layoutStep layout) data ops = some (responses, data') ∧
      run (layoutStep layout) data ops' = some (responses', data') := by
  have hstep : ∀ past s op, IsImage layout data past s →
      ∃ r s', layoutStep layout s op = some (r, s') ∧ IsImage layout data (past ++ [op]) s' := by
    intro past s op h
    exact h.step op
  have hstart : IsImage layout data [] data := ⟨hblock, fun _ => rfl, fun _ _ => rfl⟩
  obtain ⟨responses, data₁, hrun, h⟩ := run_operations hstep ops [] data hstart
  obtain ⟨responses', data₂, hrun', h'⟩ := run_operations hstep ops' [] data hstart
  obtain rfl : data₁ = data₂ := h.unique h' hlast
  exact ⟨responses, responses', data₁, hrun, hrun'⟩

/-- The flag first, or the number first and twice. -/
theorem le_pack_order_irrelevant_flag_and_number :
    ∃ responses responses' data',
      run (layoutStep flagAndNumber) (Block.ofList 0 [9, 9, 9, 9])
          [.pack false ⟨.bool true, rfl⟩, .pack true ⟨.s16 3, rfl⟩]
        = some (responses, data') ∧
      run (layoutStep flagAndNumber) (Block.ofList 0 [9, 9, 9, 9])
          [.pack true ⟨.s16 (-2), rfl⟩, .pack true ⟨.s16 3, rfl⟩, .pack false ⟨.bool true, rfl⟩]
        = some (responses', data') := by
  refine le_pack_order_irrelevant flagAndNumber (Block.ofList 0 [9, 9, 9, 9]) rfl _ _ ?_
  funext number
  cases number <;> rfl

end CembLePack
