import CEmbeddedUtils.ByteBufferProofs
import CEmbeddedUtils.MemoryProofs
import CEmbeddedUtils.RingProofs
import CEmbeddedUtils.SizeTProofs

/-! # The circular buffer refines the overwriting FIFO

    `circular_buffer.c` keeps two indices into its byte array, both below the
    size, and a flag that tells a full buffer from an empty one when they
    coincide.  The simulation relation says where the bytes of the abstract
    queue stand: on the ring, from the read index on. -/

namespace CembCircularBuffer

open CembByteBuffer Memory Transducer

variable {w : Nat}

/-- `CircularBufferConfig`. -/
structure CircularBufferConfig (w : Nat) where
  buffer : Block UInt8
  bufferSize : SizeT w

/-- `CircularBuffer`. -/
structure CircularBuffer (w : Nat) where
  buffer : Block UInt8
  bufferMaxSize : SizeT w
  readIndex : SizeT w
  writeIndex : SizeT w
  bufferIsEmpty : Bool

/-! ## The source -/

def circularBufferValidateConfig (config : CircularBufferConfig w) : ErrorCode :=
  if config.bufferSize = 0 then .errInvalidArg else .errNone

def circularBufferInit (buffer : CircularBuffer w) (config : CircularBufferConfig w) :
    ErrorCode × CircularBuffer w :=
  match circularBufferValidateConfig config with
  | .errNone =>
      (.errNone,
        { readIndex := 0
          writeIndex := 0
          bufferIsEmpty := true
          buffer := config.buffer
          bufferMaxSize := config.bufferSize })
  | result => (result, buffer)

def circularBufferDeinit (buffer : CircularBuffer w) : CircularBuffer w :=
  { buffer with bufferMaxSize := 0, readIndex := 0, writeIndex := 0, bufferIsEmpty := true }

def circularBufferPushByte (buffer : CircularBuffer w) (byte : UInt8) :
    Option (ErrorCode × CircularBuffer w) :=
  if buffer.bufferMaxSize = 0 then some (.errNoMem, buffer)
  else do
    let bytes ← buffer.buffer.store buffer.writeIndex.toNat byte
    let readIndex :=
      if buffer.writeIndex = buffer.readIndex ∧ buffer.bufferIsEmpty = false then
        (buffer.readIndex + 1) % buffer.bufferMaxSize
      else buffer.readIndex
    some (.errNone, { buffer with
      buffer := bytes
      readIndex := readIndex
      writeIndex := (buffer.writeIndex + 1) % buffer.bufferMaxSize
      bufferIsEmpty := false })

def circularBufferGetCount (buffer : CircularBuffer w) : SizeT w :=
  if buffer.writeIndex > buffer.readIndex then
    buffer.writeIndex - buffer.readIndex
  else if buffer.writeIndex < buffer.readIndex then
    buffer.bufferMaxSize - buffer.readIndex + buffer.writeIndex
  else
    if buffer.bufferIsEmpty then 0 else buffer.bufferMaxSize

/-- The second component is what is stored through `byte`, if anything. -/
def circularBufferPopByte (buffer : CircularBuffer w) :
    Option (ErrorCode × Option UInt8 × CircularBuffer w) :=
  if circularBufferGetCount buffer = 0 then some (.errEmpty, none, buffer)
  else do
    let byte ← buffer.buffer.load buffer.readIndex.toNat
    let readIndex := (buffer.readIndex + 1) % buffer.bufferMaxSize
    some (.errNone, some byte, { buffer with
      readIndex := readIndex
      bufferIsEmpty := decide (readIndex = buffer.writeIndex) })

/-- One call. -/
def circularBufferStep : Step (CircularBuffer w) ByteBufferOp ByteBufferResponse
  | buffer, .pushByte byte =>
      (circularBufferPushByte buffer byte).map fun (code, buffer') => (.pushed code, buffer')
  | buffer, .popByte =>
      (circularBufferPopByte buffer).map fun (code, byte, buffer') =>
        (.popped code byte, buffer')
  | buffer, .getCount => some (.counted (circularBufferGetCount buffer).toNat, buffer)

/-! ## The simulation -/

/-- The buffer of `size` bytes holds the bytes `held`, the oldest first. -/
structure Represents (size : SizeT w) (buffer : CircularBuffer w) (held : List UInt8) :
    Prop where
  maxSize : buffer.bufferMaxSize = size
  block : buffer.buffer.size = size.toNat
  read_lt : buffer.readIndex.toNat < size.toNat
  length_le : held.length ≤ size.toNat
  write : buffer.writeIndex.toNat = (buffer.readIndex.toNat + held.length) % size.toNat
  empty : buffer.bufferIsEmpty = true ↔ held = []
  bytes : Ring.Holds buffer.buffer.cell size.toNat buffer.readIndex.toNat held

/-- The buffer answers as one that holds the bytes `held`: the flag matters only
    where the indices coincide, that is for an empty buffer and a full one. -/
structure Shows (size : SizeT w) (buffer : CircularBuffer w) (held : List UInt8) : Prop where
  maxSize : buffer.bufferMaxSize = size
  block : buffer.buffer.size = size.toNat
  read_lt : buffer.readIndex.toNat < size.toNat
  length_le : held.length ≤ size.toNat
  write : buffer.writeIndex.toNat = (buffer.readIndex.toNat + held.length) % size.toNat
  not_full : buffer.bufferIsEmpty = true → held.length ≠ size.toNat
  not_empty : buffer.bufferIsEmpty = false → held ≠ []
  bytes : Ring.Holds buffer.buffer.cell size.toNat buffer.readIndex.toNat held

/-! ## The statements of push and pop -/

/-- `buffer->buffer[buffer->write_index] = byte;` inside the block. -/
def storeByte (buffer : CircularBuffer w) (byte : UInt8) : CircularBuffer w :=
  { buffer with buffer := { buffer.buffer with
      cell := Function.update buffer.buffer.cell buffer.writeIndex.toNat byte } }

/-- `buffer->read_index = (buffer->read_index + 1) % buffer->buffer_max_size;` -/
def advanceRead (buffer : CircularBuffer w) : CircularBuffer w :=
  { buffer with readIndex := (buffer.readIndex + 1) % buffer.bufferMaxSize }

/-- `buffer->write_index = (buffer->write_index + 1) % buffer->buffer_max_size;` -/
def advanceWrite (buffer : CircularBuffer w) : CircularBuffer w :=
  { buffer with writeIndex := (buffer.writeIndex + 1) % buffer.bufferMaxSize }

/-- `buffer->buffer_is_empty = false;` -/
def clearEmpty (buffer : CircularBuffer w) : CircularBuffer w :=
  { buffer with bufferIsEmpty := false }

/-- `buffer->buffer_is_empty = (buffer->read_index == buffer->write_index);` -/
def computeEmpty (buffer : CircularBuffer w) : CircularBuffer w :=
  { buffer with bufferIsEmpty := decide (buffer.readIndex = buffer.writeIndex) }

section Simulation

variable {size : SizeT w} {buffer : CircularBuffer w} {held : List UInt8}

/-- The next index of the source is the next one on the ring: the sum does not
    wrap before the remainder is taken. -/
theorem next_index {i size : SizeT w} (hi : i.toNat < size.toNat) :
    ((i + 1) % size).toNat = (i.toNat + 1) % size.toNat := by
  have hsize := size.isLt
  have hone : (1 : SizeT w).toNat = 1 := SizeT.toNat_one (SizeT.width_pos hi)
  rw [BitVec.toNat_umod, SizeT.toNat_add_of_lt (by omega), hone]

theorem Represents.size_pos (h : Represents size buffer held) : 0 < size.toNat :=
  Nat.lt_of_le_of_lt (Nat.zero_le _) h.read_lt

theorem Represents.shows (h : Represents size buffer held) : Shows size buffer held := by
  have hpos := h.size_pos
  refine ⟨h.maxSize, h.block, h.read_lt, h.length_le, h.write, ?_, ?_, h.bytes⟩
  · intro hflag hfull
    rw [h.empty.mp hflag, List.length_nil] at hfull
    omega
  · intro hflag hnil
    exact Bool.false_ne_true (hflag.symm.trans (h.empty.mpr hnil))

theorem Represents.flag_eq_false (h : Represents size buffer held) (hne : held ≠ []) :
    buffer.bufferIsEmpty = false :=
  eq_false_of_ne_true (mt h.empty.mp hne)

theorem Shows.size_pos (h : Shows size buffer held) : 0 < size.toNat :=
  Nat.lt_of_le_of_lt (Nat.zero_le _) h.read_lt

theorem Shows.write_lt (h : Shows size buffer held) :
    buffer.writeIndex.toNat < size.toNat := by
  rw [h.write]
  exact Nat.mod_lt _ h.size_pos

/-- The write index has come around or not; either way it is the read index
    plus the length, less a turn. -/
theorem Shows.write_cases (h : Shows size buffer held) :
    (buffer.readIndex.toNat + held.length < size.toNat ∧
      buffer.writeIndex.toNat = buffer.readIndex.toNat + held.length) ∨
    (size.toNat ≤ buffer.readIndex.toNat + held.length ∧
      buffer.writeIndex.toNat + size.toNat = buffer.readIndex.toNat + held.length) := by
  have hread := h.read_lt
  have hlen := h.length_le
  rcases Nat.lt_or_ge (buffer.readIndex.toNat + held.length) size.toNat with hlt | hge
  · exact Or.inl ⟨hlt, by rw [h.write, Nat.mod_eq_of_lt hlt]⟩
  · refine Or.inr ⟨hge, ?_⟩
    rw [h.write, Nat.mod_eq_sub_mod hge, Nat.mod_eq_of_lt (by omega)]
    omega

/-- **THE COUNT IS THE LENGTH**: all three branches of `get_count` are exact. -/
theorem Shows.count (h : Shows size buffer held) :
    (circularBufferGetCount buffer).toNat = held.length := by
  have hread := h.read_lt
  have hlen := h.length_le
  have hsize := size.isLt
  unfold circularBufferGetCount
  by_cases hgt : buffer.writeIndex > buffer.readIndex
  · have hgt' : buffer.readIndex.toNat < buffer.writeIndex.toNat := BitVec.lt_def.mp hgt
    rw [if_pos hgt, SizeT.toNat_sub_of_le (Nat.le_of_lt hgt')]
    rcases h.write_cases with ⟨_, hw⟩ | ⟨_, hw⟩ <;> omega
  · rw [if_neg hgt]
    have hle : buffer.writeIndex.toNat ≤ buffer.readIndex.toNat :=
      Nat.le_of_not_lt (mt BitVec.lt_def.mpr hgt)
    by_cases hlt : buffer.writeIndex < buffer.readIndex
    · have hlt' : buffer.writeIndex.toNat < buffer.readIndex.toNat := BitVec.lt_def.mp hlt
      have hsub : (buffer.bufferMaxSize - buffer.readIndex).toNat
          = size.toNat - buffer.readIndex.toNat := by
        rw [h.maxSize, SizeT.toNat_sub_of_le (Nat.le_of_lt hread)]
      rw [if_pos hlt, SizeT.toNat_add_of_lt (by omega), hsub]
      rcases h.write_cases with ⟨_, hw⟩ | ⟨_, hw⟩ <;> omega
    · -- the indices coincide: empty and full are told apart by the flag
      have heq : buffer.writeIndex.toNat = buffer.readIndex.toNat :=
        Nat.le_antisymm hle (Nat.le_of_not_lt (mt BitVec.lt_def.mpr hlt))
      rw [if_neg hlt]
      cases hflag : buffer.bufferIsEmpty with
      | true =>
          have hroom := h.not_full hflag
          rw [if_pos rfl, SizeT.toNat_eq_zero.mpr rfl]
          rcases h.write_cases with ⟨_, hw⟩ | ⟨_, hw⟩ <;> omega
      | false =>
          have hpos : 0 < held.length := List.length_pos_iff.mpr (h.not_empty hflag)
          show buffer.bufferMaxSize.toNat = held.length
          rw [h.maxSize]
          rcases h.write_cases with ⟨_, hw⟩ | ⟨_, hw⟩ <;> omega

theorem Shows.count_eq_zero (h : Shows size buffer held) :
    circularBufferGetCount buffer = 0 ↔ held = [] := by
  rw [← SizeT.toNat_eq_zero, h.count, List.length_eq_zero_iff]

/-- The buffer overwrites exactly when it is full. -/
theorem Shows.full_iff (h : Shows size buffer held) :
    (buffer.writeIndex = buffer.readIndex ∧ buffer.bufferIsEmpty = false) ↔
      held.length = size.toNat := by
  have hread := h.read_lt
  have hlen := h.length_le
  constructor
  · rintro ⟨heq, hflag⟩
    have hpos : 0 < held.length := List.length_pos_iff.mpr (h.not_empty hflag)
    have heq' : buffer.writeIndex.toNat = buffer.readIndex.toNat := congrArg BitVec.toNat heq
    rcases h.write_cases with ⟨_, hw⟩ | ⟨_, hw⟩ <;> omega
  · intro hfull
    constructor
    · refine BitVec.eq_of_toNat_eq ?_
      rcases h.write_cases with ⟨_, hw⟩ | ⟨_, hw⟩ <;> omega
    · exact eq_false_of_ne_true fun hflag => h.not_full hflag hfull

/-- The write index after a push, in a buffer of any state. -/
theorem Shows.next_write (h : Shows size buffer held) :
    (advanceWrite buffer).writeIndex.toNat
      = (buffer.readIndex.toNat + held.length + 1) % size.toNat := by
  show ((buffer.writeIndex + 1) % buffer.bufferMaxSize).toNat = _
  rw [h.maxSize, next_index h.write_lt, h.write, Nat.mod_add_mod]

theorem Shows.next_read (h : Shows size buffer held) :
    (advanceRead buffer).readIndex.toNat = (buffer.readIndex.toNat + 1) % size.toNat := by
  show ((buffer.readIndex + 1) % buffer.bufferMaxSize).toNat = _
  rw [h.maxSize, next_index h.read_lt]

theorem Shows.next_read_lt (h : Shows size buffer held) :
    (advanceRead buffer).readIndex.toNat < size.toNat := by
  rw [h.next_read]
  exact Nat.mod_lt _ h.size_pos

/-- The write index after a push, from where the read index stands. -/
theorem Shows.next_write_append (h : Shows size buffer held) (byte : UInt8) :
    (advanceWrite buffer).writeIndex.toNat
      = (buffer.readIndex.toNat + (held ++ [byte]).length) % size.toNat := by
  rw [h.next_write, List.length_append, List.length_singleton, Nat.add_assoc]

/-- The write index before a pop, from where the pop takes the read index. -/
theorem Shows.write_of_next_read {oldest : UInt8} (h : Shows size buffer (oldest :: held)) :
    buffer.writeIndex.toNat
      = ((advanceRead buffer).readIndex.toNat + held.length) % size.toNat := by
  rw [h.next_read, Nat.mod_add_mod, h.write, List.length_cons]
  congr 1
  omega

/-- The bytes after the oldest lie on the ring from the next read index on. -/
theorem Shows.bytes_of_next_read {oldest : UInt8} (h : Shows size buffer (oldest :: held)) :
    Ring.Holds buffer.buffer.cell size.toNat (advanceRead buffer).readIndex.toNat held := by
  refine Ring.holds_congr ?_ h.bytes.tail
  rw [h.next_read, Nat.mod_mod]

/-! ### One statement at a time -/

/-- With room left, the store leaves what the buffer holds. -/
theorem Shows.stored (h : Shows size buffer held) (hroom : held.length ≠ size.toNat)
    (byte : UInt8) : Shows size (storeByte buffer byte) held := by
  have hlen := h.length_le
  refine ⟨h.maxSize, h.block, h.read_lt, h.length_le, h.write, h.not_full, h.not_empty, ?_⟩
  show Ring.Holds (Function.update buffer.buffer.cell buffer.writeIndex.toNat byte)
    size.toNat buffer.readIndex.toNat held
  rw [h.write]
  exact h.bytes.update_next (by omega) byte

/-- On a full buffer, the store replaces the oldest byte. -/
theorem Shows.stored_full {oldest : UInt8} (h : Shows size buffer (oldest :: held))
    (hfull : (oldest :: held).length = size.toNat) (byte : UInt8) :
    Shows size (storeByte buffer byte) (byte :: held) := by
  have hcell : buffer.writeIndex.toNat = buffer.readIndex.toNat % size.toNat := by
    rw [h.write, hfull, Nat.add_mod_right]
  refine ⟨h.maxSize, h.block, h.read_lt, h.length_le, h.write, h.not_full,
    fun _ => List.cons_ne_nil _ _, ?_⟩
  show Ring.Holds (Function.update buffer.buffer.cell buffer.writeIndex.toNat byte)
    size.toNat buffer.readIndex.toNat (byte :: held)
  rw [hcell]
  exact h.bytes.update_head h.length_le byte

/-- The byte stored is in the cell of the write index. -/
theorem cell_storeByte (buffer : CircularBuffer w) (byte : UInt8) :
    (storeByte buffer byte).buffer.cell (storeByte buffer byte).writeIndex.toNat = byte :=
  Function.update_self _ _ _

/-- Advancing the read index drops the oldest byte, unless nothing tells then that
    the buffer is empty. -/
theorem Shows.readAdvanced {oldest : UInt8} (h : Shows size buffer (oldest :: held))
    (hempty : buffer.bufferIsEmpty = false → held ≠ []) :
    Shows size (advanceRead buffer) held := by
  have hlen := h.length_le
  rw [List.length_cons] at hlen
  exact ⟨h.maxSize, h.block, h.next_read_lt, by omega, h.write_of_next_read,
    fun _ => by omega, hempty, h.bytes_of_next_read⟩

/-- Advancing the write index takes in the byte that is in its cell. -/
theorem Shows.writeAdvanced {byte : UInt8} (h : Shows size buffer held)
    (hroom : held.length ≠ size.toNat)
    (hcell : buffer.buffer.cell buffer.writeIndex.toNat = byte)
    (hfull : buffer.bufferIsEmpty = true → held.length + 1 ≠ size.toNat) :
    Shows size (advanceWrite buffer) (held ++ [byte]) := by
  have hlen := h.length_le
  refine ⟨h.maxSize, h.block, h.read_lt, ?_, h.next_write_append byte, ?_, fun _ => by simp, ?_⟩
  · rw [List.length_append, List.length_singleton]
    omega
  · rw [List.length_append, List.length_singleton]
    exact hfull
  · rw [h.write] at hcell
    exact h.bytes.concat hcell

/-- A flag that is cleared tells of a buffer with bytes. -/
theorem Shows.emptyCleared (h : Shows size buffer held) (hne : held ≠ []) :
    Represents size (clearEmpty buffer) held :=
  ⟨h.maxSize, h.block, h.read_lt, h.length_le, h.write,
    ⟨(fun hflag => nomatch hflag), fun hnil => absurd hnil hne⟩, h.bytes⟩

/-- The last two statements of a push into a buffer with room. -/
theorem Shows.append {byte : UInt8} (h : Shows size buffer held)
    (hroom : held.length ≠ size.toNat)
    (hcell : buffer.buffer.cell buffer.writeIndex.toNat = byte) :
    Represents size (clearEmpty (advanceWrite buffer))
      (held ++ [byte]) := by
  have hlen := h.length_le
  have hflag : false = true ↔ held ++ [byte] = [] :=
    ⟨(fun hflag => nomatch hflag), fun hnil => absurd hnil (by simp)⟩
  refine ⟨h.maxSize, h.block, h.read_lt, ?_, h.next_write_append byte, hflag, ?_⟩
  · rw [List.length_append, List.length_singleton]
    omega
  · rw [h.write] at hcell
    exact h.bytes.concat hcell

/-- The last two statements of a pop: equal indices mean that the buffer is empty,
    since a pop never leaves it full. -/
theorem Shows.drop {oldest : UInt8} (h : Shows size buffer (oldest :: held)) :
    Represents size (computeEmpty (advanceRead buffer)) held := by
  have hlen := h.length_le
  rw [List.length_cons] at hlen
  have hread := h.next_read_lt
  have hflag : (advanceRead buffer).readIndex = buffer.writeIndex ↔ held = [] := by
    rw [← BitVec.toNat_inj, h.write_of_next_read]
    constructor
    · intro heq
      by_contra hne
      have hpos : 0 < held.length := List.length_pos_iff.mpr hne
      have hdiff : ((advanceRead buffer).readIndex.toNat + 0) % size.toNat
          ≠ ((advanceRead buffer).readIndex.toNat + held.length) % size.toNat :=
        Ring.cell_ne hpos (by omega)
      rw [Nat.add_zero, Nat.mod_eq_of_lt hread] at hdiff
      exact hdiff heq
    · rintro rfl
      rw [List.length_nil, Nat.add_zero, Nat.mod_eq_of_lt hread]
  exact ⟨h.maxSize, h.block, hread, by omega, h.write_of_next_read,
    decide_eq_true_iff.trans hflag, h.bytes_of_next_read⟩

/-! ### A call -/

/-- What a push stores, in a buffer of any state. -/
theorem Shows.push_eq (h : Shows size buffer held) (byte : UInt8) :
    circularBufferPushByte buffer byte = some (.errNone,
      clearEmpty (advanceWrite
        (if held.length = size.toNat then
          advanceRead (storeByte buffer byte)
        else storeByte buffer byte))) := by
  have hmax : ¬ buffer.bufferMaxSize = 0 := by
    rw [h.maxSize, ← SizeT.toNat_eq_zero]
    exact Nat.ne_of_gt h.size_pos
  have hin : buffer.writeIndex.toNat < buffer.buffer.size := by
    rw [h.block]
    exact h.write_lt
  rw [circularBufferPushByte, if_neg hmax, Block.store_of_lt hin]
  by_cases hfull : held.length = size.toNat
  · rw [if_pos hfull, if_pos (h.full_iff.mpr hfull)]
    rfl
  · rw [if_neg hfull, if_neg (mt h.full_iff.mp hfull)]
    rfl

/-- With room left, a push appends the byte. -/
theorem Shows.push_room (h : Shows size buffer held) (hroom : held.length ≠ size.toNat)
    (byte : UInt8) :
    ∃ buffer', circularBufferPushByte buffer byte = some (.errNone, buffer') ∧
      Represents size buffer' (held ++ [byte]) := by
  refine ⟨_, h.push_eq byte, ?_⟩
  rw [if_neg hroom]
  exact (h.stored hroom byte).append hroom (cell_storeByte buffer byte)

/-- On a full buffer, a push drops the oldest byte and appends the new one. -/
theorem Shows.push_full {oldest : UInt8} (h : Shows size buffer (oldest :: held))
    (hfull : (oldest :: held).length = size.toNat) (byte : UInt8) :
    ∃ buffer', circularBufferPushByte buffer byte = some (.errNone, buffer') ∧
      Represents size buffer' (held ++ [byte]) := by
  have hlen : held.length + 1 = size.toNat := hfull
  have hstored := h.stored_full hfull byte
  have hflag : false = true ↔ held ++ [byte] = [] :=
    ⟨(fun hflag => nomatch hflag), fun hnil => absurd hnil (by simp)⟩
  refine ⟨_, h.push_eq byte, ?_⟩
  rw [if_pos hfull]
  refine ⟨h.maxSize, h.block, hstored.next_read_lt, ?_, ?_, hflag, ?_⟩
  · rw [List.length_append, List.length_singleton]
    omega
  · have hwrite : buffer.writeIndex.toNat
        = ((advanceRead (storeByte buffer byte)).readIndex.toNat + held.length) % size.toNat :=
      hstored.write_of_next_read
    show ((buffer.writeIndex + 1) % buffer.bufferMaxSize).toNat = _
    rw [h.maxSize, next_index h.write_lt, hwrite, Nat.mod_add_mod, List.length_append,
      List.length_singleton, Nat.add_assoc]
    rfl
  · -- the byte went to the cell of the one dropped, which is now the one after the last
    refine hstored.bytes_of_next_read.concat ?_
    rw [← hstored.write_of_next_read]
    exact cell_storeByte buffer byte

/-- What a push leaves of the bytes held: on a full buffer, the oldest goes first. -/
def pushed (size : SizeT w) (held : List UInt8) (byte : UInt8) : List UInt8 :=
  (if held.length = size.toNat then held.tail else held) ++ [byte]

/-- **A PUSH** appends the byte and, on a full buffer, drops the oldest first. -/
theorem Shows.push (h : Shows size buffer held) (byte : UInt8) :
    ∃ buffer', circularBufferPushByte buffer byte = some (.errNone, buffer') ∧
      Represents size buffer' (pushed size held byte) := by
  have hpos := h.size_pos
  rw [pushed]
  by_cases hfull : held.length = size.toNat
  · rw [if_pos hfull]
    cases held with
    | nil =>
        rw [List.length_nil] at hfull
        omega
    | cons oldest held => exact h.push_full hfull byte
  · rw [if_neg hfull]
    exact h.push_room hfull byte

/-- A pop from a buffer with bytes hands out the oldest. -/
theorem Shows.pop {oldest : UInt8} (h : Shows size buffer (oldest :: held)) :
    circularBufferPopByte buffer = some (.errNone, some oldest,
      computeEmpty (advanceRead buffer)) := by
  have hread := h.read_lt
  have hcount : ¬ circularBufferGetCount buffer = 0 :=
    mt h.count_eq_zero.mp (List.cons_ne_nil _ _)
  have hload : buffer.buffer.load buffer.readIndex.toNat = some oldest := by
    rw [Block.load_of_lt (by rw [h.block]; exact hread), ← h.bytes.head,
      Nat.mod_eq_of_lt hread]
  rw [circularBufferPopByte, if_neg hcount, hload]
  rfl

theorem Shows.pop_empty (h : Shows size buffer []) :
    circularBufferPopByte buffer = some (.errEmpty, none, buffer) :=
  if_pos (h.count_eq_zero.mpr rfl)

/-- A fresh buffer of a size the config check accepts is empty. -/
theorem init_represents (buffer : CircularBuffer w) {config : CircularBufferConfig w}
    (hblock : config.buffer.size = config.bufferSize.toNat)
    (hsize : 1 ≤ config.bufferSize.toNat) :
    ∃ buffer₀, circularBufferInit buffer config = (.errNone, buffer₀) ∧
      Represents config.bufferSize buffer₀ [] := by
  have hne : ¬ config.bufferSize = 0 := by
    rw [← SizeT.toNat_eq_zero]
    omega
  refine ⟨_, by rw [circularBufferInit, circularBufferValidateConfig, if_neg hne], ?_⟩
  refine ⟨rfl, hblock, ?_, Nat.zero_le _, ?_, ?_, Ring.holds_nil _ _ _⟩
  · show (0 : SizeT w).toNat < config.bufferSize.toNat
    simpa using Nat.lt_of_succ_le hsize
  · simp
  · simp

end Simulation

/-- **ONE CALL** answers as the overwriting FIFO does. -/
theorem represents_simulates (size : SizeT w) :
    Simulates circularBufferStep (overwritingFifo size.toNat) (Represents size) := by
  intro buffer held op h
  cases op with
  | pushByte byte =>
      obtain ⟨buffer', hpush, h'⟩ := h.shows.push byte
      refine ⟨buffer', ?_, ?_⟩
      · rw [circularBufferStep, hpush]
        cases held <;> rfl
      · cases held <;> exact h'
  | popByte =>
      cases held with
      | nil =>
          refine ⟨buffer, ?_, h⟩
          rw [circularBufferStep, h.shows.pop_empty]
          rfl
      | cons oldest held =>
          refine ⟨_, ?_, h.shows.drop⟩
          rw [circularBufferStep, h.shows.pop]
          rfl
  | getCount =>
      refine ⟨buffer, ?_, ?_⟩
      · rw [circularBufferStep, h.shows.count]
        cases held <;> rfl
      · cases held <;> exact h

/-- A pop that finds the buffer empty changes nothing. -/
theorem pop_refused {buffer buffer' : CircularBuffer w} {byte : Option UInt8}
    (h : circularBufferPopByte buffer = some (.errEmpty, byte, buffer')) :
    buffer' = buffer ∧ byte = none := by
  rw [circularBufferPopByte] at h
  by_cases h0 : circularBufferGetCount buffer = 0
  · rw [if_pos h0] at h
    obtain ⟨-, h'⟩ := Prod.mk.inj (Option.some.inj h)
    obtain ⟨rfl, rfl⟩ := Prod.mk.inj h'
    exact ⟨rfl, rfl⟩
  · rw [if_neg h0] at h
    obtain ⟨_, -, h'⟩ := Option.bind_eq_some_iff.mp h
    exact nomatch (Prod.mk.inj (Option.some.inj h')).1

/-- **THE CIRCULAR BUFFER REFINES THE OVERWRITING FIFO** on every run after
    init, at every size. -/
theorem circular_buffer_refines_overwriting_fifo (buffer : CircularBuffer w)
    {config : CircularBufferConfig w}
    (hblock : config.buffer.size = config.bufferSize.toNat)
    (hsize : 1 ≤ config.bufferSize.toNat) :
    ∃ buffer₀, circularBufferInit buffer config = (.errNone, buffer₀) ∧
      ∀ ops, ∃ buffer', run circularBufferStep buffer₀ ops
          = some ((runSpec (overwritingFifo config.bufferSize.toNat) [] ops).1, buffer') ∧
        (circularBufferGetCount buffer').toNat
          = (runSpec (overwritingFifo config.bufferSize.toNat) [] ops).2.length ∧
        (circularBufferGetCount buffer').toNat ≤ config.bufferSize.toNat ∧
        ∀ byte buffer'', circularBufferPopByte buffer' = some (.errEmpty, byte, buffer'') →
          buffer'' = buffer' ∧ byte = none := by
  obtain ⟨buffer₀, hinit, h₀⟩ := init_represents buffer hblock hsize
  refine ⟨buffer₀, hinit, ?_⟩
  intro ops
  obtain ⟨buffer', hrun, h⟩ :=
    run_refines (represents_simulates config.bufferSize) ops buffer₀ [] h₀
  refine ⟨buffer', hrun, h.shows.count, ?_, fun byte buffer'' hpop => pop_refused hpop⟩
  rw [h.shows.count]
  exact h.length_le

/-- One byte of storage. -/
def oneByteRing : CircularBufferConfig 8 where
  buffer := ⟨1, fun _ => 0⟩
  bufferSize := 1

/-- The refinement at the smallest size. -/
theorem circular_buffer_refines_overwriting_fifo_one_byte :
    ∃ buffer₀, circularBufferInit ⟨oneByteRing.buffer, 0, 0, 0, true⟩ oneByteRing
        = (.errNone, buffer₀) ∧
      ∀ ops, ∃ buffer', run circularBufferStep buffer₀ ops
        = some ((runSpec (overwritingFifo 1) [] ops).1, buffer') := by
  obtain ⟨buffer₀, hinit, hruns⟩ := circular_buffer_refines_overwriting_fifo
    ⟨oneByteRing.buffer, 0, 0, 0, true⟩
    (rfl : oneByteRing.buffer.size = oneByteRing.bufferSize.toNat) (by decide)
  refine ⟨buffer₀, hinit, ?_⟩
  intro ops
  obtain ⟨buffer', hrun, -⟩ := hruns ops
  exact ⟨buffer', hrun⟩

end CembCircularBuffer
