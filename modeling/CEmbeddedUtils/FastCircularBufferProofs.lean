import CEmbeddedUtils.CircularBufferProofs
import CEmbeddedUtils.NumericOpsProofs

/-! # The fast circular buffer agrees with the circular buffer

    `fast_circular_buffer.c` takes sizes that are powers of two only.  Its two
    counters run free: they wrap at the end of `size_t`, not at the end of the
    buffer, and are masked on each access.  The size divides the number of
    words, so a counter that wraps still points to the right cell, and the
    difference of the counters is the number of bytes also after a wrap.

    The buffer refines the same overwriting FIFO as the plain one; so the two
    answer every run of calls alike. -/

namespace CembFastCircularBuffer

open CembByteBuffer CembCircularBuffer CembNumericOps Memory Transducer

variable {w : Nat}

/-- `FastCircularBufferConfig`. -/
structure FastCircularBufferConfig (w : Nat) where
  buffer : Block UInt8
  bufferSize : SizeT w

/-- `FastCircularBuffer`. -/
structure FastCircularBuffer (w : Nat) where
  buffer : Block UInt8
  readIndex : SizeT w
  writeIndex : SizeT w
  sizeMask : SizeT w

/-! ## The source -/

def fastCircularBufferValidateConfig (bufferConfig : FastCircularBufferConfig w) : ErrorCode :=
  if bufferConfig.bufferSize.toNat < 2 then .errInvalidArg
  else if numericOpsIsPower2Sz bufferConfig.bufferSize = false then .errInvalidArg
  else .errNone

def fastCircularBufferInit (buffer : FastCircularBuffer w)
    (bufferConfig : FastCircularBufferConfig w) : ErrorCode × FastCircularBuffer w :=
  match fastCircularBufferValidateConfig bufferConfig with
  | .errNone =>
      (.errNone,
        { buffer := bufferConfig.buffer
          sizeMask := bufferConfig.bufferSize - 1
          readIndex := 0
          writeIndex := 0 })
  | result => (result, buffer)

def fastCircularBufferDeinit (buffer : FastCircularBuffer w) : FastCircularBuffer w :=
  { buffer with sizeMask := 0, readIndex := 0, writeIndex := 0 }

def fastCircularBufferGetCount (buffer : FastCircularBuffer w) : SizeT w :=
  buffer.writeIndex - buffer.readIndex

def fastCircularBufferPushByte (buffer : FastCircularBuffer w) (byte : UInt8) :
    Option (ErrorCode × FastCircularBuffer w) :=
  if buffer.sizeMask = 0 then some (.errNoMem, buffer)
  else do
    let bytes ← buffer.buffer.store (buffer.writeIndex &&& buffer.sizeMask).toNat byte
    let readIndex :=
      if fastCircularBufferGetCount buffer > buffer.sizeMask then
        buffer.writeIndex - buffer.sizeMask
      else buffer.readIndex
    some (.errNone, { buffer with
      buffer := bytes
      readIndex := readIndex
      writeIndex := buffer.writeIndex + 1 })

/-- The second component is what is stored through `byte`, if anything. -/
def fastCircularBufferPopByte (buffer : FastCircularBuffer w) :
    Option (ErrorCode × Option UInt8 × FastCircularBuffer w) :=
  if fastCircularBufferGetCount buffer = 0 then some (.errEmpty, none, buffer)
  else do
    let byte ← buffer.buffer.load (buffer.readIndex &&& buffer.sizeMask).toNat
    some (.errNone, some byte, { buffer with readIndex := buffer.readIndex + 1 })

/-- One call. -/
def fastCircularBufferStep : Step (FastCircularBuffer w) ByteBufferOp ByteBufferResponse
  | buffer, .pushByte byte =>
      (fastCircularBufferPushByte buffer byte).map fun (code, buffer') =>
        (.pushed code, buffer')
  | buffer, .popByte =>
      (fastCircularBufferPopByte buffer).map fun (code, byte, buffer') =>
        (.popped code byte, buffer')
  | buffer, .getCount => some (.counted (fastCircularBufferGetCount buffer).toNat, buffer)

/-! ## The simulation -/

/-- The buffer of `size` bytes holds the bytes `held`, the oldest first: the
    counters are that many apart, in words. -/
structure FastRepresents (size : SizeT w) (buffer : FastCircularBuffer w)
    (held : List UInt8) : Prop where
  sizeMask : buffer.sizeMask = size - 1
  block : buffer.buffer.size = size.toNat
  length_le : held.length ≤ size.toNat
  write : buffer.writeIndex = buffer.readIndex + BitVec.ofNat w held.length
  bytes : Ring.Holds buffer.buffer.cell size.toNat buffer.readIndex.toNat held

section Simulation

variable {size : SizeT w} {k : Nat} {buffer : FastCircularBuffer w} {held : List UInt8}

/-- **THE COUNT IS THE LENGTH**, also when a counter has wrapped. -/
theorem FastRepresents.count (h : FastRepresents size buffer held) :
    (fastCircularBufferGetCount buffer).toNat = held.length := by
  have hsize := size.isLt
  have hlen := h.length_le
  rw [fastCircularBufferGetCount, h.write, BitVec.add_comm, BitVec.add_sub_cancel,
    BitVec.toNat_ofNat, Nat.mod_eq_of_lt (by omega)]

theorem FastRepresents.count_eq_zero (h : FastRepresents size buffer held) :
    fastCircularBufferGetCount buffer = 0 ↔ held = [] := by
  rw [← SizeT.toNat_eq_zero, h.count, List.length_eq_zero_iff]

/-- The buffer overwrites exactly when it is full. -/
theorem FastRepresents.full_iff (hpos : 0 < size.toNat)
    (h : FastRepresents size buffer held) :
    fastCircularBufferGetCount buffer > buffer.sizeMask ↔ held.length = size.toNat := by
  have hlen := h.length_le
  rw [gt_iff_lt, BitVec.lt_def, h.count, h.sizeMask, toNat_pred hpos]
  omega

/-- The counter after a word is the next one on the ring, also across the wrap. -/
theorem succ_mod_size (hpow : size.toNat = 2 ^ k) (hw : 0 < w) (i : SizeT w) :
    (i + 1).toNat % size.toNat = (i.toNat + 1) % size.toNat := by
  rw [BitVec.toNat_add, SizeT.toNat_one hw, Nat.mod_mod_of_dvd _ (dvd_two_pow hpow)]

/-- The masked write counter is the cell after the last byte. -/
theorem FastRepresents.write_cell (hpow : size.toNat = 2 ^ k)
    (h : FastRepresents size buffer held) :
    (buffer.writeIndex &&& buffer.sizeMask).toNat
      = (buffer.readIndex.toNat + held.length) % size.toNat := by
  rw [h.sizeMask, toNat_and_pred hpow, h.write, BitVec.toNat_add,
    Nat.mod_mod_of_dvd _ (dvd_two_pow hpow), BitVec.toNat_ofNat]
  have hsize := size.isLt
  have hlen := h.length_le
  rw [Nat.mod_eq_of_lt (a := held.length) (by omega)]

/-- What a push stores, in a buffer of any state. -/
theorem FastRepresents.push_eq (hpow : size.toNat = 2 ^ k) (h2 : 2 ≤ size.toNat)
    (h : FastRepresents size buffer held) (byte : UInt8) :
    fastCircularBufferPushByte buffer byte = some (.errNone, { buffer with
      buffer := { buffer.buffer with
        cell := Function.update buffer.buffer.cell
          (buffer.writeIndex &&& buffer.sizeMask).toNat byte }
      readIndex :=
        if fastCircularBufferGetCount buffer > buffer.sizeMask then
          buffer.writeIndex - buffer.sizeMask
        else buffer.readIndex
      writeIndex := buffer.writeIndex + 1 }) := by
  have hmask : ¬ buffer.sizeMask = 0 := by
    rw [h.sizeMask, ← SizeT.toNat_eq_zero, toNat_pred (by omega)]
    omega
  have hin : (buffer.writeIndex &&& buffer.sizeMask).toNat < buffer.buffer.size := by
    rw [h.write_cell hpow, h.block]
    exact Nat.mod_lt _ (by omega)
  rw [fastCircularBufferPushByte, if_neg hmask, Block.store_of_lt hin]
  rfl

/-- With room left, a push appends the byte. -/
theorem FastRepresents.push_room (hpow : size.toNat = 2 ^ k) (h2 : 2 ≤ size.toNat)
    (h : FastRepresents size buffer held) (hroom : held.length ≠ size.toNat) (byte : UInt8) :
    ∃ buffer', fastCircularBufferPushByte buffer byte = some (.errNone, buffer') ∧
      FastRepresents size buffer' (held ++ [byte]) := by
  have hlen := h.length_le
  refine ⟨_, h.push_eq hpow h2 byte, ?_⟩
  rw [if_neg (mt (h.full_iff (by omega)).mp hroom)]
  refine ⟨h.sizeMask, h.block, ?_, ?_, ?_⟩
  · rw [List.length_append, List.length_singleton]
    omega
  · show buffer.writeIndex + 1 = buffer.readIndex + BitVec.ofNat w (held ++ [byte]).length
    rw [h.write, List.length_append, List.length_singleton, BitVec.ofNat_add, BitVec.add_assoc]
    rfl
  · show Ring.Holds (Function.update buffer.buffer.cell
      (buffer.writeIndex &&& buffer.sizeMask).toNat byte) size.toNat
      buffer.readIndex.toNat (held ++ [byte])
    rw [h.write_cell hpow]
    exact h.bytes.push (by omega) byte

/-- On a full buffer, a push drops the oldest byte and appends the new one. -/
theorem FastRepresents.push_full (hpow : size.toNat = 2 ^ k) (h2 : 2 ≤ size.toNat)
    {oldest : UInt8} (h : FastRepresents size buffer (oldest :: held))
    (hfull : (oldest :: held).length = size.toNat) (byte : UInt8) :
    ∃ buffer', fastCircularBufferPushByte buffer byte = some (.errNone, buffer') ∧
      FastRepresents size buffer' (held ++ [byte]) := by
  have hlen : held.length + 1 = size.toNat := hfull
  have hw : 0 < w := SizeT.width_pos (a := (0 : SizeT w)) (b := size) (by simp; omega)
  -- `write_index - size_mask` is the read counter plus one
  have hread : buffer.writeIndex - buffer.sizeMask = buffer.readIndex + 1 := by
    rw [h.write, h.sizeMask, hfull, BitVec.ofNat_toNat, BitVec.setWidth_eq,
      BitVec.sub_eq_iff_eq_add, BitVec.add_assoc, BitVec.add_comm 1, BitVec.sub_add_cancel]
  refine ⟨_, h.push_eq hpow h2 byte, ?_⟩
  rw [if_pos ((h.full_iff (by omega)).mpr hfull), hread]
  refine ⟨h.sizeMask, h.block, ?_, ?_, ?_⟩
  · rw [List.length_append, List.length_singleton]
    omega
  · show buffer.writeIndex + 1
      = buffer.readIndex + 1 + BitVec.ofNat w (held ++ [byte]).length
    rw [h.write, List.length_append, List.length_singleton, List.length_cons,
      BitVec.add_assoc, BitVec.add_assoc, BitVec.add_comm 1]
  · show Ring.Holds (Function.update buffer.buffer.cell
      (buffer.writeIndex &&& buffer.sizeMask).toNat byte) size.toNat
      (buffer.readIndex + 1).toNat (held ++ [byte])
    rw [h.write_cell hpow, hfull, Nat.add_mod_right]
    exact Ring.holds_congr (succ_mod_size hpow hw _).symm (h.bytes.overwrite hfull byte)

/-- **A PUSH** appends the byte and, on a full buffer, drops the oldest first. -/
theorem FastRepresents.push (hpow : size.toNat = 2 ^ k) (h2 : 2 ≤ size.toNat)
    (h : FastRepresents size buffer held) (byte : UInt8) :
    ∃ buffer', fastCircularBufferPushByte buffer byte = some (.errNone, buffer') ∧
      FastRepresents size buffer'
        ((if held.length = size.toNat then held.tail else held) ++ [byte]) := by
  by_cases hfull : held.length = size.toNat
  · rw [if_pos hfull]
    cases held with
    | nil =>
        rw [List.length_nil] at hfull
        omega
    | cons oldest held => exact h.push_full hpow h2 hfull byte
  · rw [if_neg hfull]
    exact h.push_room hpow h2 hfull byte

/-- A pop from a buffer with bytes hands out the oldest. -/
theorem FastRepresents.pop (hpow : size.toNat = 2 ^ k) (h2 : 2 ≤ size.toNat) {oldest : UInt8}
    (h : FastRepresents size buffer (oldest :: held)) :
    ∃ buffer', fastCircularBufferPopByte buffer = some (.errNone, some oldest, buffer') ∧
      FastRepresents size buffer' held := by
  have hlen := h.length_le
  rw [List.length_cons] at hlen
  have hw : 0 < w := SizeT.width_pos (a := (0 : SizeT w)) (b := size) (by simp; omega)
  have hcount : ¬ fastCircularBufferGetCount buffer = 0 :=
    mt h.count_eq_zero.mp (List.cons_ne_nil _ _)
  have hcell : (buffer.readIndex &&& buffer.sizeMask).toNat
      = buffer.readIndex.toNat % size.toNat := by
    rw [h.sizeMask, toNat_and_pred hpow]
  have hload : buffer.buffer.load (buffer.readIndex &&& buffer.sizeMask).toNat
      = some oldest := by
    have hin : (buffer.readIndex &&& buffer.sizeMask).toNat < buffer.buffer.size := by
      rw [hcell, h.block]
      exact Nat.mod_lt _ (by omega)
    rw [Block.load_of_lt hin, hcell, h.bytes.head]
  refine ⟨_, by rw [fastCircularBufferPopByte, if_neg hcount, hload]; rfl, ?_⟩
  refine ⟨h.sizeMask, h.block, by omega, ?_, ?_⟩
  · show buffer.writeIndex = buffer.readIndex + 1 + BitVec.ofNat w held.length
    rw [h.write, List.length_cons, BitVec.ofNat_add, BitVec.add_assoc]
    congr 1
    exact BitVec.add_comm _ _
  · exact Ring.holds_congr (succ_mod_size hpow hw _).symm h.bytes.tail

theorem FastRepresents.pop_empty (h : FastRepresents size buffer []) :
    fastCircularBufferPopByte buffer = some (.errEmpty, none, buffer) :=
  if_pos (h.count_eq_zero.mpr rfl)

/-- A size that is a power of two, from two on, is accepted, and the fresh
    buffer is empty. -/
theorem init_fastRepresents (buffer : FastCircularBuffer w)
    {bufferConfig : FastCircularBufferConfig w}
    (hblock : bufferConfig.buffer.size = bufferConfig.bufferSize.toNat)
    (hpow : bufferConfig.bufferSize.toNat = 2 ^ k) (h2 : 2 ≤ bufferConfig.bufferSize.toNat) :
    ∃ buffer₀, fastCircularBufferInit buffer bufferConfig = (.errNone, buffer₀) ∧
      FastRepresents bufferConfig.bufferSize buffer₀ [] := by
  have hvalid : fastCircularBufferValidateConfig bufferConfig = .errNone := by
    rw [fastCircularBufferValidateConfig, if_neg (by omega), isPower2Sz_of_pow hpow]
    rfl
  refine ⟨_, by rw [fastCircularBufferInit, hvalid], rfl, hblock, Nat.zero_le _, ?_,
    Ring.holds_nil _ _ _⟩
  simp

end Simulation

/-- **ONE CALL** answers as the overwriting FIFO does. -/
theorem fastRepresents_simulates {size : SizeT w} {k : Nat} (hpow : size.toNat = 2 ^ k)
    (h2 : 2 ≤ size.toNat) :
    Simulates fastCircularBufferStep (overwritingFifo size.toNat) (FastRepresents size) := by
  intro buffer held op h
  cases op with
  | pushByte byte =>
      obtain ⟨buffer', hpush, h'⟩ := h.push hpow h2 byte
      refine ⟨buffer', ?_, ?_⟩
      · rw [fastCircularBufferStep, hpush]
        cases held <;> rfl
      · cases held <;> exact h'
  | popByte =>
      cases held with
      | nil =>
          refine ⟨buffer, ?_, h⟩
          rw [fastCircularBufferStep, h.pop_empty]
          rfl
      | cons oldest held =>
          obtain ⟨buffer', hpop, h'⟩ := h.pop hpow h2
          refine ⟨buffer', ?_, h'⟩
          rw [fastCircularBufferStep, hpop]
          rfl
  | getCount =>
      refine ⟨buffer, ?_, ?_⟩
      · rw [fastCircularBufferStep, h.count]
        cases held <;> rfl
      · cases held <;> exact h

/-- **THE TWO BUFFERS AGREE**: at every power of two from two on, on every run
    after init, the codes, the bytes and the counts are the same. -/
theorem fast_circular_buffer_agrees (fast : FastCircularBuffer w) (plain : CircularBuffer w)
    {fastConfig : FastCircularBufferConfig w} {config : CircularBufferConfig w}
    (hsame : fastConfig.bufferSize = config.bufferSize)
    (hfastBlock : fastConfig.buffer.size = fastConfig.bufferSize.toNat)
    (hblock : config.buffer.size = config.bufferSize.toNat)
    (hpow : ∃ k, config.bufferSize.toNat = 2 ^ k) (h2 : 2 ≤ config.bufferSize.toNat) :
    ∃ fast₀ plain₀, fastCircularBufferInit fast fastConfig = (.errNone, fast₀) ∧
      circularBufferInit plain config = (.errNone, plain₀) ∧
      ∀ ops, ∃ responses fast' plain',
        run fastCircularBufferStep fast₀ ops = some (responses, fast') ∧
        run circularBufferStep plain₀ ops = some (responses, plain') := by
  obtain ⟨k, hk⟩ := hpow
  have hk' : fastConfig.bufferSize.toNat = 2 ^ k := by rw [hsame, hk]
  have h2' : 2 ≤ fastConfig.bufferSize.toNat := by rw [hsame]; exact h2
  obtain ⟨fast₀, hfastInit, hfast⟩ := init_fastRepresents fast hfastBlock hk' h2'
  obtain ⟨plain₀, hinit, hplain⟩ := init_represents plain hblock (by omega)
  refine ⟨fast₀, plain₀, hfastInit, hinit, ?_⟩
  intro ops
  have hsim := fastRepresents_simulates hk' h2'
  rw [hsame] at hsim hfast
  exact run_agree hsim (represents_simulates config.bufferSize) ops hfast hplain

/-- Two bytes of storage on a machine with two-bit words, where the counters
    wrap after four calls. -/
def twoByteFastRing : FastCircularBufferConfig 2 where
  buffer := ⟨2, fun _ => 0⟩
  bufferSize := 2

/-- The same storage for the plain buffer. -/
def twoByteRing : CircularBufferConfig 2 where
  buffer := ⟨2, fun _ => 0⟩
  bufferSize := 2

/-- The agreement across the wrap of the counters: five pushes into two bytes. -/
theorem fast_circular_buffer_agrees_two_bytes :
    ∃ fast₀ plain₀ responses fast' plain',
      fastCircularBufferInit ⟨twoByteFastRing.buffer, 0, 0, 0⟩ twoByteFastRing
        = (.errNone, fast₀) ∧
      circularBufferInit ⟨twoByteRing.buffer, 0, 0, 0, true⟩ twoByteRing
        = (.errNone, plain₀) ∧
      run fastCircularBufferStep fast₀ [.pushByte 1, .pushByte 2, .pushByte 3, .pushByte 4,
        .pushByte 5, .popByte, .getCount] = some (responses, fast') ∧
      run circularBufferStep plain₀ [.pushByte 1, .pushByte 2, .pushByte 3, .pushByte 4,
        .pushByte 5, .popByte, .getCount] = some (responses, plain') := by
  obtain ⟨fast₀, plain₀, hfastInit, hinit, hruns⟩ := fast_circular_buffer_agrees
    ⟨twoByteFastRing.buffer, 0, 0, 0⟩ ⟨twoByteRing.buffer, 0, 0, 0, true⟩
    (rfl : twoByteFastRing.bufferSize = twoByteRing.bufferSize)
    (rfl : twoByteFastRing.buffer.size = twoByteFastRing.bufferSize.toNat)
    (rfl : twoByteRing.buffer.size = twoByteRing.bufferSize.toNat)
    ⟨1, (rfl : twoByteRing.bufferSize.toNat = 2 ^ 1)⟩ (Nat.le_refl 2)
  obtain ⟨responses, fast', plain', hfastRun, hrun⟩ := hruns [.pushByte 1, .pushByte 2,
    .pushByte 3, .pushByte 4, .pushByte 5, .popByte, .getCount]
  exact ⟨fast₀, plain₀, responses, fast', plain', hfastInit, hinit, hfastRun, hrun⟩

/-! ## Which sizes are accepted, and what their masks do -/

/-- **THE ACCEPTED SIZES** are the powers of two from two on. -/
theorem validateConfig_eq_errNone_iff {bufferConfig : FastCircularBufferConfig w} :
    fastCircularBufferValidateConfig bufferConfig = .errNone ↔
      ∃ k, 1 ≤ k ∧ bufferConfig.bufferSize.toNat = 2 ^ k := by
  rw [fastCircularBufferValidateConfig]
  constructor
  · intro hvalid
    split at hvalid
    · cases hvalid
    · next hsize =>
        split at hvalid
        · cases hvalid
        · next htest =>
            obtain ⟨k, hpow⟩ := isPower2Sz_iff.mp (eq_true_of_ne_false htest)
            refine ⟨k, ?_, hpow⟩
            -- the one power below two is refused by the first comparison
            rcases Nat.eq_zero_or_pos k with rfl | hk
            · rw [hpow, pow_zero] at hsize
              exact absurd Nat.one_lt_two hsize
            · exact hk
  · rintro ⟨k, hk, hpow⟩
    have hsize : ¬ bufferConfig.bufferSize.toNat < 2 := by
      rw [hpow, not_lt]
      exact Nat.pow_le_pow_right Nat.two_pos hk
    rw [if_neg hsize, isPower2Sz_of_pow hpow]
    rfl

/-- There is one code for a size that is not accepted. -/
theorem validateConfig_eq_errInvalidArg {bufferConfig : FastCircularBufferConfig w}
    (h : fastCircularBufferValidateConfig bufferConfig ≠ .errNone) :
    fastCircularBufferValidateConfig bufferConfig = .errInvalidArg := by
  unfold fastCircularBufferValidateConfig at h ⊢
  split
  · rfl
  · next hsize =>
      split
      · rfl
      · next htest => rw [if_neg hsize, if_neg htest] at h; exact absurd rfl h

/-- An accepted init stores the mask, and a refused one leaves the buffer alone. -/
theorem init_cases (buffer : FastCircularBuffer w) (bufferConfig : FastCircularBufferConfig w) :
    (fastCircularBufferValidateConfig bufferConfig = .errNone ∧
      fastCircularBufferInit buffer bufferConfig
        = (.errNone, ⟨bufferConfig.buffer, 0, 0, bufferConfig.bufferSize - 1⟩)) ∨
    (fastCircularBufferValidateConfig bufferConfig ≠ .errNone ∧
      fastCircularBufferInit buffer bufferConfig = (.errInvalidArg, buffer)) := by
  by_cases hvalid : fastCircularBufferValidateConfig bufferConfig = .errNone
  · exact Or.inl ⟨hvalid, by rw [fastCircularBufferInit, hvalid]⟩
  · have hinvalid := validateConfig_eq_errInvalidArg hvalid
    exact Or.inr ⟨hvalid, by rw [fastCircularBufferInit, hinvalid]⟩

/-- Under the mask of a power of two from two on, an index is its remainder, and the
    index after it the next one, also where the index wraps. -/
theorem and_pred_modulo {size : SizeT w} {k : Nat} (hk : 1 ≤ k) (hpow : size.toNat = 2 ^ k)
    (i : SizeT w) :
    (i &&& (size - 1)).toNat = i.toNat % size.toNat ∧
      (i &&& (size - 1)).toNat < size.toNat ∧
      ((i + 1) &&& (size - 1)).toNat = ((i &&& (size - 1)).toNat + 1) % size.toNat := by
  have htwo : 2 ≤ size.toNat := by
    rw [hpow]
    exact Nat.pow_le_pow_right Nat.two_pos hk
  have hw : 0 < w := SizeT.width_pos (a := (0 : SizeT w)) (b := size) (by simp; omega)
  rw [toNat_and_pred hpow, toNat_and_pred hpow]
  refine ⟨rfl, Nat.mod_lt _ (Nat.lt_of_lt_of_le Nat.two_pos htwo), ?_⟩
  rw [succ_mod_size hpow hw, Nat.mod_add_mod]

/-- **MASKING IS MODULO FOR EVERY ACCEPTED SIZE**: init accepts a size exactly when it
    is a power of two from two on and leaves the buffer alone otherwise; and under the
    mask of an accepted size an index of any value is its remainder, and the index
    after it, wrapped or not, is the next remainder. -/
theorem fast_circular_buffer_masks_modulo (buffer : FastCircularBuffer w)
    (bufferConfig : FastCircularBufferConfig w) :
    ((∃ buffer₀, fastCircularBufferInit buffer bufferConfig = (.errNone, buffer₀)) ↔
      ∃ k, 1 ≤ k ∧ bufferConfig.bufferSize.toNat = 2 ^ k) ∧
    ((¬ ∃ k, 1 ≤ k ∧ bufferConfig.bufferSize.toNat = 2 ^ k) →
      fastCircularBufferInit buffer bufferConfig = (.errInvalidArg, buffer)) ∧
    ∀ buffer₀, fastCircularBufferInit buffer bufferConfig = (.errNone, buffer₀) →
      ∀ i : SizeT w,
        (i &&& buffer₀.sizeMask).toNat = i.toNat % bufferConfig.bufferSize.toNat ∧
        (i &&& buffer₀.sizeMask).toNat < bufferConfig.bufferSize.toNat ∧
        ((i + 1) &&& buffer₀.sizeMask).toNat
          = ((i &&& buffer₀.sizeMask).toNat + 1) % bufferConfig.bufferSize.toNat := by
  rw [← validateConfig_eq_errNone_iff]
  rcases init_cases buffer bufferConfig with ⟨hvalid, hinit⟩ | ⟨hinvalid, hinit⟩
  · refine ⟨iff_of_true ⟨_, hinit⟩ hvalid, fun hinvalid => absurd hvalid hinvalid, ?_⟩
    intro buffer₀ hinit₀ i
    obtain ⟨-, rfl⟩ := Prod.mk.inj (hinit.symm.trans hinit₀)
    obtain ⟨k, hk, hpow⟩ := validateConfig_eq_errNone_iff.mp hvalid
    exact and_pred_modulo hk hpow i
  · have hrefused : ∀ buffer₀,
        fastCircularBufferInit buffer bufferConfig ≠ (.errNone, buffer₀) := by
      intro buffer₀ hinit₀
      rw [hinit] at hinit₀
      cases hinit₀
    refine ⟨iff_of_false ?_ hinvalid, fun _ => hinit, ?_⟩
    · rintro ⟨buffer₀, hinit₀⟩
      exact hrefused buffer₀ hinit₀
    · intro buffer₀ hinit₀
      exact absurd hinit₀ (hrefused buffer₀)

/-- Masks on a machine with two-bit words: the index after 3 is 0, and under the mask
    of a buffer of two bytes it is the one after 1. -/
theorem fast_circular_buffer_masks_modulo_two_bytes :
    ((3 + 1 : SizeT 2) &&& 1).toNat = (((3 : SizeT 2) &&& 1).toNat + 1) % 2 := by
  obtain ⟨-, -, hmasks⟩ :=
    fast_circular_buffer_masks_modulo ⟨twoByteFastRing.buffer, 0, 0, 0⟩ twoByteFastRing
  exact (hmasks ⟨twoByteFastRing.buffer, 0, 0, 1⟩ rfl 3).2.2

end CembFastCircularBuffer
