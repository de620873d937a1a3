import CEmbeddedUtils.CircularBufferConcurrencyProofs
import CEmbeddedUtils.FastCircularBufferProofs

/-! # The fast ring between a main loop and an interrupt

    The fast circular buffer has two counters and no flag, and each side writes
    its own: only a push onto a full buffer writes the counter of the other side,
    and it computes the value from its own counter.  So it is safer than the plain
    buffer: an interrupt between any two statements has the effect of one of the
    two orders, in every state of the buffer but the full one
    (`fast_circular_buffer_interrupt_iff`), and runs that are interrupted anywhere
    while there is room are linearizable
    (`fast_circular_buffer_runs_linearizable`). -/

namespace CembFastCircularBuffer

open CembByteBuffer CembNumericOps Interrupt Memory Transducer

open CembCircularBuffer (popAnswer popResponse_eq)

variable {w : Nat}

/-! ## The source, statement by statement -/

/-- `buffer->buffer[buffer->write_index & buffer->size_mask] = byte;` inside the block. -/
def fastStoreByte (buffer : FastCircularBuffer w) (byte : UInt8) : FastCircularBuffer w :=
  { buffer with buffer := { buffer.buffer with
      cell := Function.update buffer.buffer.cell
        (buffer.writeIndex &&& buffer.sizeMask).toNat byte } }

/-- `buffer->read_index++;` -/
def fastAdvanceRead (buffer : FastCircularBuffer w) : FastCircularBuffer w :=
  { buffer with readIndex := buffer.readIndex + 1 }

/-- `buffer->read_index = buffer->write_index - buffer->size_mask;` -/
def fastDropOldest (buffer : FastCircularBuffer w) : FastCircularBuffer w :=
  { buffer with readIndex := buffer.writeIndex - buffer.sizeMask }

/-- `buffer->write_index++;` -/
def fastAdvanceWrite (buffer : FastCircularBuffer w) : FastCircularBuffer w :=
  { buffer with writeIndex := buffer.writeIndex + 1 }

/-- A complete push. -/
def fastPushCall (byte : UInt8) : Call (FastCircularBuffer w) ErrorCode :=
  fun buffer => fastCircularBufferPushByte buffer byte

/-- A complete pop: what it returns, and what it stores through `byte`. -/
def fastPopCall : Call (FastCircularBuffer w) (ErrorCode × Option UInt8) := fun buffer =>
  (fastCircularBufferPopByte buffer).map fun (code, byte, buffer') => ((code, byte), buffer')

/-- `fast_circular_buffer_pop_byte`; the variable is what has been stored through `byte`. -/
def fastPopByteBody :
    List (Statement (FastCircularBuffer w) (Option UInt8) (ErrorCode × Option UInt8)) :=
  [fun byte buffer => some (if fastCircularBufferGetCount buffer = 0 then
      .returned (.errEmpty, byte) buffer else .next byte buffer),
    fun _ buffer =>
      (buffer.buffer.load (buffer.readIndex &&& buffer.sizeMask).toNat).map fun value =>
        .next (some value) buffer,
    fun byte buffer => some (.next byte (fastAdvanceRead buffer)),
    fun byte buffer => some (.returned (.errNone, byte) buffer)]

/-- `fast_circular_buffer_push_byte` after the store; the variable is the condition of
    the `if`. -/
def fastPushByteRest : List (Statement (FastCircularBuffer w) Bool ErrorCode) :=
  [fun _ buffer => some (.next
      (decide (fastCircularBufferGetCount buffer > buffer.sizeMask)) buffer),
    fun full buffer => some (.next full (if full then fastDropOldest buffer else buffer)),
    fun full buffer => some (.next full (fastAdvanceWrite buffer)),
    fun _ buffer => some (.returned .errNone buffer)]

/-- `fast_circular_buffer_push_byte`. -/
def fastPushByteBody (byte : UInt8) : List (Statement (FastCircularBuffer w) Bool ErrorCode) :=
  (fun full buffer => some (if buffer.sizeMask = 0 then
      .returned .errNoMem buffer else .next full buffer)) ::
    (fun full buffer =>
      (buffer.buffer.store (buffer.writeIndex &&& buffer.sizeMask).toNat byte).map fun bytes =>
        .next full { buffer with buffer := bytes }) ::
    fastPushByteRest

/-- **WITHOUT AN INTERRUPT** the statements of a pop are the pop. -/
theorem exec_fastPopByteBody (buffer : FastCircularBuffer w) :
    exec fastPopByteBody none buffer = fastPopCall buffer := by
  rw [fastPopCall, fastCircularBufferPopByte]
  by_cases hcount : fastCircularBufferGetCount buffer = 0
  · simp only [fastPopByteBody, exec, if_pos hcount]
    rfl
  · simp only [fastPopByteBody, exec, if_neg hcount]
    cases buffer.buffer.load (buffer.readIndex &&& buffer.sizeMask).toNat with
    | none => rfl
    | some value => rfl

/-- **WITHOUT AN INTERRUPT** the statements of a push are the push. -/
theorem exec_fastPushByteBody (byte : UInt8) (buffer : FastCircularBuffer w) :
    exec (fastPushByteBody byte) false buffer = fastPushCall byte buffer := by
  rw [fastPushCall, fastCircularBufferPushByte]
  by_cases hmask : buffer.sizeMask = 0
  · simp only [fastPushByteBody, exec, if_pos hmask]
  · simp only [fastPushByteBody, fastPushByteRest, exec, if_neg hmask]
    cases buffer.buffer.store (buffer.writeIndex &&& buffer.sizeMask).toNat byte with
    | none => rfl
    | some bytes =>
        by_cases hfull : fastCircularBufferGetCount buffer > buffer.sizeMask
        · have hfull' : fastCircularBufferGetCount { buffer with buffer := bytes }
              > buffer.sizeMask := hfull
          simp only [Option.map_some, decide_eq_true hfull', if_pos hfull]
          rfl
        · have hroom : ¬ fastCircularBufferGetCount { buffer with buffer := bytes }
              > buffer.sizeMask := hfull
          simp only [Option.map_some, decide_eq_false hroom, if_neg hfull]
          rfl

/-! ## One statement at a time -/

section Statements

variable {size : SizeT w} {k : Nat} {buffer : FastCircularBuffer w} {held : List UInt8}

/-- With room left, the store leaves what the buffer holds. -/
theorem FastRepresents.stored (hpow : size.toNat = 2 ^ k) (h : FastRepresents size buffer held)
    (hroom : held.length ≠ size.toNat) (byte : UInt8) :
    FastRepresents size (fastStoreByte buffer byte) held := by
  have hlen := h.length_le
  refine ⟨h.sizeMask, h.block, h.length_le, h.write, ?_⟩
  show Ring.Holds (Function.update buffer.buffer.cell
    (buffer.writeIndex &&& buffer.sizeMask).toNat byte) size.toNat buffer.readIndex.toNat held
  rw [h.write_cell hpow]
  exact h.bytes.update_next (by omega) byte

/-- On a full buffer, the store replaces the oldest byte. -/
theorem FastRepresents.stored_full (hpow : size.toNat = 2 ^ k) {oldest : UInt8}
    (h : FastRepresents size buffer (oldest :: held))
    (hfull : (oldest :: held).length = size.toNat) (byte : UInt8) :
    FastRepresents size (fastStoreByte buffer byte) (byte :: held) := by
  refine ⟨h.sizeMask, h.block, h.length_le, h.write, ?_⟩
  show Ring.Holds (Function.update buffer.buffer.cell
    (buffer.writeIndex &&& buffer.sizeMask).toNat byte) size.toNat buffer.readIndex.toNat
    (byte :: held)
  rw [h.write_cell hpow, hfull, Nat.add_mod_right]
  exact h.bytes.update_head h.length_le byte

/-- The byte stored is in the cell of the write counter. -/
theorem cell_fastStoreByte (buffer : FastCircularBuffer w) (byte : UInt8) :
    (fastStoreByte buffer byte).buffer.cell
      ((fastStoreByte buffer byte).writeIndex
        &&& (fastStoreByte buffer byte).sizeMask).toNat = byte :=
  Function.update_self _ _ _

/-- Advancing the read counter drops the oldest byte. -/
theorem FastRepresents.readAdvanced (hpow : size.toNat = 2 ^ k) {oldest : UInt8}
    (h : FastRepresents size buffer (oldest :: held)) :
    FastRepresents size (fastAdvanceRead buffer) held := by
  have hlen := h.length_le
  rw [List.length_cons] at hlen
  have hw : 0 < w := SizeT.width_pos (a := (0 : SizeT w)) (b := size) (by simp; omega)
  refine ⟨h.sizeMask, h.block, by omega, ?_, ?_⟩
  · show buffer.writeIndex = buffer.readIndex + 1 + BitVec.ofNat w held.length
    rw [h.write, List.length_cons, BitVec.ofNat_add, BitVec.add_assoc]
    congr 1
    exact BitVec.add_comm _ _
  · exact Ring.holds_congr (succ_mod_size hpow hw _).symm h.bytes.tail

/-- Dropping the oldest byte of a full buffer is advancing the read counter. -/
theorem FastRepresents.dropOldest_full (h : FastRepresents size buffer held)
    (hfull : held.length = size.toNat) : fastDropOldest buffer = fastAdvanceRead buffer := by
  have hread : buffer.writeIndex - buffer.sizeMask = buffer.readIndex + 1 := by
    rw [h.write, h.sizeMask, hfull, BitVec.ofNat_toNat, BitVec.setWidth_eq,
      BitVec.sub_eq_iff_eq_add, BitVec.add_assoc, BitVec.add_comm 1, BitVec.sub_add_cancel]
  rw [fastDropOldest, hread]
  rfl

/-- Where a pop has dropped it already, nothing is dropped. -/
theorem FastRepresents.dropOldest_popped (h : FastRepresents size buffer held)
    (hone : held.length + 1 = size.toNat) : fastDropOldest buffer = buffer := by
  have hlen : BitVec.ofNat w held.length = size - 1 := by
    have hsize : BitVec.ofNat w (held.length + 1) = size := by
      rw [hone, BitVec.ofNat_toNat, BitVec.setWidth_eq]
    rw [← hsize, BitVec.ofNat_add]
    exact (BitVec.add_sub_cancel _ _).symm
  have hread : buffer.writeIndex - buffer.sizeMask = buffer.readIndex := by
    rw [h.write, h.sizeMask, hlen, BitVec.add_sub_cancel]
  rw [fastDropOldest, hread]

/-- Advancing the write counter takes in the byte that is in its cell. -/
theorem FastRepresents.writeAdvanced (hpow : size.toNat = 2 ^ k) {byte : UInt8}
    (h : FastRepresents size buffer held) (hroom : held.length ≠ size.toNat)
    (hcell : buffer.buffer.cell (buffer.writeIndex &&& buffer.sizeMask).toNat = byte) :
    FastRepresents size (fastAdvanceWrite buffer) (held ++ [byte]) := by
  have hlen := h.length_le
  refine ⟨h.sizeMask, h.block, ?_, ?_, ?_⟩
  · rw [List.length_append, List.length_singleton]
    omega
  · show buffer.writeIndex + 1 = buffer.readIndex + BitVec.ofNat w (held ++ [byte]).length
    rw [h.write, List.length_append, List.length_singleton, BitVec.ofNat_add, BitVec.add_assoc]
    rfl
  · rw [h.write_cell hpow] at hcell
    exact h.bytes.concat hcell

/-- A complete push. -/
theorem FastRepresents.pushCall_eq (hpow : size.toNat = 2 ^ k) (h2 : 2 ≤ size.toNat)
    (h : FastRepresents size buffer held) (byte : UInt8) :
    ∃ buffer', fastPushCall byte buffer = some (.errNone, buffer') ∧
      FastRepresents size buffer' (fifoPushed size.toNat held byte) := h.push hpow h2 byte

/-- A complete pop. -/
theorem FastRepresents.popCall_eq (hpow : size.toNat = 2 ^ k) (h2 : 2 ≤ size.toNat)
    (h : FastRepresents size buffer held) :
    ∃ buffer', fastPopCall buffer = some (popAnswer held, buffer') ∧
      FastRepresents size buffer' held.tail := by
  cases held with
  | nil =>
      refine ⟨buffer, ?_, h⟩
      rw [fastPopCall, h.pop_empty]
      rfl
  | cons oldest held =>
      obtain ⟨buffer', hpop, h'⟩ := h.pop hpow h2
      refine ⟨buffer', ?_, h'⟩
      rw [fastPopCall, hpop]
      rfl

/-- The load of a pop reads the oldest byte. -/
theorem FastRepresents.load_oldest (hpow : size.toNat = 2 ^ k) (h2 : 2 ≤ size.toNat)
    {oldest : UInt8} (h : FastRepresents size buffer (oldest :: held)) :
    buffer.buffer.load (buffer.readIndex &&& buffer.sizeMask).toNat = some oldest := by
  have hcell : (buffer.readIndex &&& buffer.sizeMask).toNat
      = buffer.readIndex.toNat % size.toNat := by
    rw [h.sizeMask, toNat_and_pred hpow]
  have hin : (buffer.readIndex &&& buffer.sizeMask).toNat < buffer.buffer.size := by
    rw [hcell, h.block]
    exact Nat.mod_lt _ (Nat.lt_of_lt_of_le Nat.two_pos h2)
  rw [Block.load_of_lt hin, hcell, h.bytes.head]

/-- The store of a push is inside the block. -/
theorem FastRepresents.store_eq (hpow : size.toNat = 2 ^ k) (h2 : 2 ≤ size.toNat)
    (h : FastRepresents size buffer held) (byte : UInt8) :
    buffer.buffer.store (buffer.writeIndex &&& buffer.sizeMask).toNat byte
      = some (fastStoreByte buffer byte).buffer := by
  have hin : (buffer.writeIndex &&& buffer.sizeMask).toNat < buffer.buffer.size := by
    rw [h.write_cell hpow, h.block]
    exact Nat.mod_lt _ (Nat.lt_of_lt_of_le Nat.two_pos h2)
  exact Block.store_of_lt hin byte

/-- The mask of a buffer of two bytes or more is not zero. -/
theorem FastRepresents.sizeMask_ne_zero (h2 : 2 ≤ size.toNat)
    (h : FastRepresents size buffer held) : ¬ buffer.sizeMask = 0 := by
  rw [h.sizeMask, ← SizeT.toNat_eq_zero, toNat_pred (Nat.lt_of_lt_of_le Nat.two_pos h2)]
  omega

end Statements

/-! ## What an interrupted call does -/

/-- The answer of the pop, and the bytes afterwards, where the push comes first. -/
def pushFirst (size : Nat) (held : List UInt8) (byte : UInt8) :
    (ErrorCode × Option UInt8) × List UInt8 :=
  (popAnswer (fifoPushed size held byte), (fifoPushed size held byte).tail)

/-- The answer of the pop, and the bytes afterwards, where the pop comes first. -/
def popFirst (size : Nat) (held : List UInt8) (byte : UInt8) :
    (ErrorCode × Option UInt8) × List UInt8 :=
  (popAnswer held, fifoPushed size held.tail byte)

/-- A push after `i` statements of a pop: after the load and before the counter is
    advanced, the pop has the byte of before and drops the oldest of after. -/
def pushInsidePop (size : Nat) (held : List UInt8) (byte : UInt8) :
    Nat → (ErrorCode × Option UInt8) × List UInt8
  | 0 => pushFirst size held byte
  | 1 => if held = [] then popFirst size held byte else pushFirst size held byte
  | 2 =>
      if held = [] then popFirst size held byte
      else (popAnswer held, (fifoPushed size held byte).tail)
  | _ + 3 => popFirst size held byte

/-- A pop after `i` statements of a push: on a full buffer, after the store and before
    the oldest byte is dropped, the pop has the new byte for the oldest. -/
def popInsidePush (size : Nat) (held : List UInt8) (byte : UInt8) :
    Nat → (ErrorCode × Option UInt8) × List UInt8
  | 0 | 1 => popFirst size held byte
  | 2 | 3 =>
      if held.length = size then ((.errNone, some byte), held.tail ++ [byte])
      else popFirst size held byte
  | 4 => if held.length = size then pushFirst size held byte else popFirst size held byte
  | _ + 5 => pushFirst size held byte

section Places

variable {size : Nat} {held : List UInt8}

/-- There is room for a byte where one has been popped. -/
theorem fifoPushed_tail (h2 : 2 ≤ size) (hlen : held.length ≤ size) (byte : UInt8) :
    fifoPushed size held.tail byte = held.tail ++ [byte] := by
  refine fifoPushed_of_room ?_
  rw [List.length_tail]
  omega

/-- After the store, the pop sees the new byte in the place of the oldest. -/
theorem popInsidePush_stored (h2 : 2 ≤ size) (hlen : held.length ≤ size) (byte : UInt8) :
    popInsidePush size held byte 2
      = (popAnswer (if held.length = size then byte :: held.tail else held),
          (if held.length = size then byte :: held.tail else held).tail ++ [byte]) := by
  rw [popInsidePush]
  by_cases hfull : held.length = size
  · rw [if_pos hfull, if_pos hfull]
    rfl
  · rw [if_neg hfull, if_neg hfull, popFirst, fifoPushed_tail h2 hlen]

/-- After the oldest byte is dropped, the pop sees what is left. -/
theorem popInsidePush_dropped (h2 : 2 ≤ size) (hlen : held.length ≤ size) (byte : UInt8) :
    popInsidePush size held byte 4
      = (popAnswer (if held.length = size then held.tail else held),
          (if held.length = size then held.tail else held).tail ++ [byte]) := by
  rw [popInsidePush]
  by_cases hfull : held.length = size
  · obtain ⟨next, rest, hrest⟩ : ∃ next rest, held.tail = next :: rest := by
      refine List.exists_cons_of_ne_nil (List.ne_nil_of_length_pos ?_)
      rw [List.length_tail]
      omega
    rw [if_pos hfull, if_pos hfull, pushFirst, fifoPushed_of_full hfull, hrest]
    rfl
  · rw [if_neg hfull, if_neg hfull, popFirst, fifoPushed_tail h2 hlen]

end Places

section Interrupted

variable {size : SizeT w} {k : Nat} {buffer : FastCircularBuffer w} {held : List UInt8}

/-- **A POP WITH A PUSH INSIDE**, after any number of its statements. -/
theorem FastRepresents.interruptedPop (hpow : size.toNat = 2 ^ k) (h2 : 2 ≤ size.toNat)
    (h : FastRepresents size buffer held) (i : Nat) (byte : UInt8) :
    ∃ buffer', interrupted (fastPushCall byte) i fastPopByteBody none buffer
        = some ((pushInsidePop size.toNat held byte i).1, .errNone, buffer') ∧
      FastRepresents size buffer' (pushInsidePop size.toNat held byte i).2 := by
  obtain ⟨pushed, hpush, hpushed⟩ := h.pushCall_eq hpow h2 byte
  obtain ⟨popped, hpop, hpopped⟩ := h.popCall_eq hpow h2
  obtain ⟨popPushed, hpopPush, hpopPushed⟩ := hpopped.pushCall_eq hpow h2 byte
  match i with
  | 0 =>
      obtain ⟨pushPopped, hpushPop, hpushPopped⟩ := hpushed.popCall_eq hpow h2
      refine ⟨pushPopped, ?_, hpushPopped⟩
      rw [interrupted_zero hpush, exec_fastPopByteBody, hpushPop]
      rfl
  | i + 1 =>
      cases held with
      | nil =>
          -- the pop returns at its first statement
          have hcount : fastCircularBufferGetCount buffer = 0 := h.count_eq_zero.mpr rfl
          have hrun : interrupted (fastPushCall byte) (i + 1) fastPopByteBody none buffer
              = some ((.errEmpty, none), .errNone, pushed) := by
            rw [fastPopByteBody, interrupted_returned i (by rw [if_pos hcount]), hpush]
            rfl
          refine ⟨pushed, ?_, ?_⟩
          · rw [hrun]
            match i with
            | 0 | 1 | _ + 2 => rfl
          · match i with
            | 0 | 1 | _ + 2 => exact hpushed
      | cons oldest held =>
          have hcount : ¬ fastCircularBufferGetCount buffer = 0 :=
            mt h.count_eq_zero.mp (List.cons_ne_nil _ _)
          have hload := h.load_oldest hpow h2
          match i with
          | 0 =>
              -- the count is not checked again; the load reads the oldest of after
              obtain ⟨next, rest, hnext⟩ := exists_cons_fifoPushed size.toNat (oldest :: held) byte
              rw [hnext] at hpushed
              refine ⟨fastAdvanceRead pushed, ?_, ?_⟩
              · simp only [fastPopByteBody, interrupted, if_neg hcount, hpush, exec,
                  hpushed.load_oldest hpow h2, Option.map_some, Option.bind_eq_bind,
                  Option.bind_some, pushInsidePop, if_neg (List.cons_ne_nil oldest held),
                  pushFirst, hnext]
                rfl
              · rw [pushInsidePop, if_neg (List.cons_ne_nil oldest held), pushFirst, hnext]
                exact hpushed.readAdvanced hpow
          | 1 =>
              obtain ⟨next, rest, hnext⟩ := exists_cons_fifoPushed size.toNat (oldest :: held) byte
              rw [hnext] at hpushed
              refine ⟨fastAdvanceRead pushed, ?_, ?_⟩
              · simp only [fastPopByteBody, interrupted, if_neg hcount, hload, hpush, exec,
                  Option.map_some, Option.bind_eq_bind, Option.bind_some, pushInsidePop,
                  if_neg (List.cons_ne_nil oldest held)]
                rfl
              · rw [pushInsidePop, if_neg (List.cons_ne_nil oldest held), hnext]
                exact hpushed.readAdvanced hpow
          | 2 =>
              obtain ⟨pushed', hpush', hpushed'⟩ := (h.readAdvanced hpow).pushCall_eq hpow h2 byte
              refine ⟨pushed', ?_, hpushed'⟩
              simp only [fastPopByteBody, interrupted, if_neg hcount, hload, hpush', exec,
                Option.map_some, Option.bind_eq_bind, Option.bind_some]
              rfl
          | i + 3 =>
              have hexec : exec fastPopByteBody none buffer
                  = some (popAnswer (oldest :: held), popped) := by
                rw [exec_fastPopByteBody, hpop]
              refine ⟨popPushed, ?_, hpopPushed⟩
              rw [interrupted_of_length_le (Nat.le_add_left 4 i) hexec, hpopPush]
              rfl

/-- After the first two statements of a push. -/
theorem FastRepresents.interruptedPush_stored (hpow : size.toNat = 2 ^ k)
    (h2 : 2 ≤ size.toNat) (h : FastRepresents size buffer held) (i : Nat) (byte : UInt8) :
    interrupted fastPopCall (i + 2) (fastPushByteBody byte) false buffer
      = interrupted fastPopCall i fastPushByteRest false (fastStoreByte buffer byte) := by
  simp only [fastPushByteBody, interrupted, if_neg (h.sizeMask_ne_zero h2),
    h.store_eq hpow h2, Option.map_some]
  rfl

/-- A pop leaves what is in the cell of the write counter. -/
theorem cell_fastPopCall {buffer buffer' : FastCircularBuffer w} {answer : ErrorCode × Option UInt8}
    (h : fastPopCall buffer = some (answer, buffer')) :
    buffer'.buffer.cell (buffer'.writeIndex &&& buffer'.sizeMask).toNat
      = buffer.buffer.cell (buffer.writeIndex &&& buffer.sizeMask).toNat := by
  rw [fastPopCall, fastCircularBufferPopByte] at h
  by_cases hcount : fastCircularBufferGetCount buffer = 0
  · rw [if_pos hcount] at h
    obtain ⟨-, rfl⟩ := Prod.mk.inj (Option.some.inj h)
    rfl
  · rw [if_neg hcount] at h
    cases hload : buffer.buffer.load (buffer.readIndex &&& buffer.sizeMask).toNat with
    | none =>
        rw [hload] at h
        cases h
    | some value =>
        rw [hload] at h
        obtain ⟨-, rfl⟩ := Prod.mk.inj (Option.some.inj h)
        rfl

/-- **THE REST OF A PUSH** after a pop takes in the byte that was stored: there is
    room, and an oldest byte that the condition wanted dropped has been popped. -/
theorem FastRepresents.pop_then_finish (hpow : size.toNat = 2 ^ k) (h2 : 2 ≤ size.toNat)
    (h : FastRepresents size buffer held) {byte : UInt8}
    (hcell : buffer.buffer.cell (buffer.writeIndex &&& buffer.sizeMask).toNat = byte)
    {full : Bool} (hfull : full = true → held.length = size.toNat) {j : Nat} (hj : j ≤ 2) :
    ∃ popped, fastPopCall buffer = some (popAnswer held, popped) ∧
      exec (fastPushByteRest.drop j) full popped = some (.errNone, fastAdvanceWrite popped) ∧
      FastRepresents size (fastAdvanceWrite popped) (held.tail ++ [byte]) := by
  have hlen := h.length_le
  have htail : held.tail.length ≠ size.toNat := by
    rw [List.length_tail]
    omega
  obtain ⟨popped, hpop, hpopped⟩ := h.popCall_eq hpow h2
  have hdecide : decide (fastCircularBufferGetCount popped > popped.sizeMask) = false :=
    decide_eq_false (mt (hpopped.full_iff (Nat.lt_of_lt_of_le Nat.two_pos h2)).mp htail)
  refine ⟨popped, hpop, ?_, hpopped.writeAdvanced hpow htail ?_⟩
  · match j with
    | 0 =>
        rw [List.drop_zero, fastPushByteRest, exec_next rfl, exec_next rfl, hdecide,
          if_neg Bool.false_ne_true, exec_next rfl, exec_returned rfl]
    | 1 =>
        have hdropped : (if full then fastDropOldest popped else popped) = popped := by
          cases full with
          | false => rfl
          | true =>
              refine hpopped.dropOldest_popped ?_
              have hheld := hfull rfl
              rw [List.length_tail]
              omega
        show exec [_, _, _] full popped = _
        rw [exec_next rfl, hdropped, exec_next rfl, exec_returned rfl]
    | 2 => rfl
  · rw [cell_fastPopCall hpop, hcell]

/-- The store of a push leaves the bytes held, or replaces the oldest of a full buffer. -/
theorem FastRepresents.storeByte (hpow : size.toNat = 2 ^ k) (h2 : 2 ≤ size.toNat)
    (h : FastRepresents size buffer held) (byte : UInt8) :
    FastRepresents size (fastStoreByte buffer byte)
      (if held.length = size.toNat then byte :: held.tail else held) := by
  by_cases hfull : held.length = size.toNat
  · rw [if_pos hfull]
    cases held with
    | nil => exact absurd (hfull ▸ h2) (by decide)
    | cons oldest held => exact h.stored_full hpow hfull byte
  · rw [if_neg hfull]
    exact h.stored hpow hfull byte

/-- When the oldest byte of a full buffer has been dropped, there is room, and the byte
    that was stored is still in the cell of the write counter. -/
theorem FastRepresents.dropOldest (hpow : size.toNat = 2 ^ k) (h2 : 2 ≤ size.toNat)
    (h : FastRepresents size buffer held) (byte : UInt8) :
    ∃ moved, (if decide (held.length = size.toNat) then fastDropOldest (fastStoreByte buffer byte)
        else fastStoreByte buffer byte) = moved ∧
      FastRepresents size moved (if held.length = size.toNat then held.tail else held) ∧
      moved.buffer.cell (moved.writeIndex &&& moved.sizeMask).toNat = byte := by
  have hstored := h.storeByte hpow h2 byte
  have hcell := cell_fastStoreByte buffer byte
  by_cases hfull : held.length = size.toNat
  · have hlength : (byte :: held.tail).length = size.toNat := by
      rw [List.length_cons, List.length_tail]
      omega
    rw [if_pos hfull] at hstored
    refine ⟨_, rfl, ?_, ?_⟩
    · rw [if_pos hfull, if_pos (decide_eq_true hfull), hstored.dropOldest_full hlength]
      exact hstored.readAdvanced hpow
    · rw [if_pos (decide_eq_true hfull)]
      exact hcell
  · have hfalse : ¬ decide (held.length = size.toNat) = true := mt of_decide_eq_true hfull
    rw [if_neg hfull] at hstored
    refine ⟨fastStoreByte buffer byte, if_neg hfalse, ?_, hcell⟩
    rw [if_neg hfull]
    exact hstored

/-- **A PUSH WITH A POP INSIDE**, after any number of its statements. -/
theorem FastRepresents.interruptedPush (hpow : size.toNat = 2 ^ k) (h2 : 2 ≤ size.toNat)
    (h : FastRepresents size buffer held) (i : Nat) (byte : UInt8) :
    ∃ buffer', interrupted fastPopCall i (fastPushByteBody byte) false buffer
        = some (.errNone, (popInsidePush size.toNat held byte i).1, buffer') ∧
      FastRepresents size buffer' (popInsidePush size.toNat held byte i).2 := by
  obtain ⟨popped, hpop, hpopped⟩ := h.popCall_eq hpow h2
  obtain ⟨popPushed, hpopPush, hpopPushed⟩ := hpopped.pushCall_eq hpow h2 byte
  obtain ⟨pushed, hpush, hpushed⟩ := h.pushCall_eq hpow h2 byte
  obtain ⟨pushPopped, hpushPop, hpushPopped⟩ := hpushed.popCall_eq hpow h2
  have hstored := h.storeByte hpow h2 byte
  obtain ⟨moved, hmoved, hdropped, hmovedCell⟩ := h.dropOldest hpow h2 byte
  have hcell := cell_fastStoreByte buffer byte
  have hlen := h.length_le
  have hcondition : decide (fastCircularBufferGetCount (fastStoreByte buffer byte)
      > (fastStoreByte buffer byte).sizeMask) = decide (held.length = size.toNat) := by
    show decide (fastCircularBufferGetCount buffer > buffer.sizeMask) = _
    exact decide_eq_decide.mpr (h.full_iff (Nat.lt_of_lt_of_le Nat.two_pos h2))
  match i with
  | 0 =>
      refine ⟨popPushed, ?_, hpopPushed⟩
      rw [interrupted_zero hpop, exec_fastPushByteBody, hpopPush]
      rfl
  | 1 =>
      have hrest : exec (fastPushByteBody byte).tail false popped
          = some (.errNone, popPushed) := by
        rw [← hpopPush, ← exec_fastPushByteBody, fastPushByteBody]
        exact (exec_next (by rw [if_neg (hpopped.sizeMask_ne_zero h2)])).symm
      have hcheck : interrupted fastPopCall 1 (fastPushByteBody byte) false buffer
          = interrupted fastPopCall 0 (fastPushByteBody byte).tail false buffer :=
        interrupted_next 0 (by rw [if_neg (h.sizeMask_ne_zero h2)])
      refine ⟨popPushed, ?_, hpopPushed⟩
      rw [hcheck, interrupted_zero hpop, hrest]
      rfl
  | 2 =>
      obtain ⟨after, hafter, hexec, hrep⟩ := hstored.pop_then_finish hpow h2 hcell
        (fun hfalse : false = true => absurd hfalse Bool.false_ne_true) (Nat.zero_le 2)
      rw [List.drop_zero] at hexec
      rw [popInsidePush_stored h2 hlen]
      refine ⟨fastAdvanceWrite after, ?_, hrep⟩
      rw [h.interruptedPush_stored hpow h2, interrupted_zero hafter, hexec]
      rfl
  | 3 =>
      obtain ⟨after, hafter, hexec, hrep⟩ := hstored.pop_then_finish hpow h2 hcell
        (fun htrue : decide (held.length = size.toNat) = true => by
          rw [if_pos (of_decide_eq_true htrue), List.length_cons, List.length_tail]
          have hfull := of_decide_eq_true htrue
          omega) (Nat.le_succ 1)
      have hplace : popInsidePush size.toNat held byte 3
          = popInsidePush size.toNat held byte 2 := rfl
      have hread : interrupted fastPopCall 1 fastPushByteRest false (fastStoreByte buffer byte)
          = interrupted fastPopCall 0 (fastPushByteRest.drop 1)
              (decide (held.length = size.toNat)) (fastStoreByte buffer byte) := by
        rw [← hcondition]
        exact interrupted_next 0 rfl
      rw [hplace, popInsidePush_stored h2 hlen]
      refine ⟨fastAdvanceWrite after, ?_, hrep⟩
      rw [h.interruptedPush_stored hpow h2, hread, interrupted_zero hafter, hexec]
      rfl
  | 4 =>
      obtain ⟨after, hafter, hexec, hrep⟩ := hdropped.pop_then_finish hpow h2 hmovedCell
        (fun hfalse : false = true => absurd hfalse Bool.false_ne_true) (Nat.le_refl 2)
      have hread : interrupted fastPopCall 2 fastPushByteRest false (fastStoreByte buffer byte)
          = interrupted fastPopCall 0 (fastPushByteRest.drop 2)
              (decide (held.length = size.toNat)) moved := by
        rw [← hmoved, ← hcondition]
        exact (interrupted_next 1 rfl).trans (interrupted_next 0 rfl)
      have hlast : exec (fastPushByteRest.drop 2) (decide (held.length = size.toNat)) after
          = exec (fastPushByteRest.drop 2) false after := rfl
      rw [popInsidePush_dropped h2 hlen]
      refine ⟨fastAdvanceWrite after, ?_, hrep⟩
      rw [h.interruptedPush_stored hpow h2, hread, interrupted_zero hafter, hlast, hexec]
      rfl
  | 5 =>
      have hroom : (if held.length = size.toNat then held.tail else held).length
          ≠ size.toNat := by
        split
        · rw [List.length_tail]
          omega
        · assumption
      have hwritten : FastRepresents size (fastAdvanceWrite moved)
          (fifoPushed size.toNat held byte) := hdropped.writeAdvanced hpow hroom hmovedCell
      obtain ⟨after, hafter, hrep⟩ := hwritten.popCall_eq hpow h2
      have hread : interrupted fastPopCall 3 fastPushByteRest false (fastStoreByte buffer byte)
          = interrupted fastPopCall 0 (fastPushByteRest.drop 3)
              (decide (held.length = size.toNat)) (fastAdvanceWrite moved) := by
        rw [← hmoved, ← hcondition]
        exact (interrupted_next 2 rfl).trans ((interrupted_next 1 rfl).trans
          (interrupted_next 0 rfl))
      refine ⟨after, ?_, hrep⟩
      rw [h.interruptedPush_stored hpow h2, hread, interrupted_zero hafter]
      rfl
  | i + 6 =>
      have hexec : exec (fastPushByteBody byte) false buffer = some (.errNone, pushed) := by
        rw [exec_fastPushByteBody, hpush]
      refine ⟨pushPopped, ?_, hpushPopped⟩
      rw [interrupted_of_length_le (Nat.le_add_left 6 i) hexec, hpushPop]
      rfl

end Interrupted

/-! ## Which interrupts have the effect of an order -/

/-- The bytes between the two counters, the oldest first. -/
def fastContents (buffer : FastCircularBuffer w) : List UInt8 :=
  (List.range (fastCircularBufferGetCount buffer).toNat).map fun i =>
    buffer.buffer.cell ((buffer.readIndex + BitVec.ofNat w i) &&& buffer.sizeMask).toNat

/-- A push inside a pop: only on a full buffer, only between the load and the advance
    of the counter, and there the two oldest bytes have to be the same. -/
def FastPopSafe (size : Nat) (held : List UInt8) : Nat → Prop
  | 2 => held.length = size → held.tail.head? = held.head?
  | _ => True

/-- A pop inside a push: only on a full buffer, only from the store to the drop of the
    oldest byte, and there the byte pushed has to be the oldest one. -/
def FastPushSafe (size : Nat) (held : List UInt8) (byte : UInt8) : Nat → Prop
  | 2 | 3 => held.length = size → held.head? = some byte
  | _ => True

section Orders

variable {size : Nat} {held : List UInt8}

/-- The order of the two calls, as the answer of the pop and the bytes afterwards. -/
theorem inOrder_pair_iff {byte : UInt8} {outcome : (ErrorCode × Option UInt8) × List UInt8} :
    InOrder size held byte (.popped outcome.1.1 outcome.1.2, .pushed .errNone, outcome.2) ↔
      outcome = pushFirst size held byte ∨ outcome = popFirst size held byte := by
  obtain ⟨⟨code, answer⟩, left⟩ := outcome
  rw [inOrder_iff, popResponse_eq, popResponse_eq, pushFirst, popFirst]
  simp [Prod.ext_iff, and_assoc]

/-- **A PUSH INSIDE A POP** is in order where that is safe, and nowhere else. -/
theorem pushInsidePop_inOrder_iff (h2 : 2 ≤ size) (hlen : held.length ≤ size) (byte : UInt8)
    (i : Nat) :
    (pushInsidePop size held byte i = pushFirst size held byte ∨
      pushInsidePop size held byte i = popFirst size held byte) ↔ FastPopSafe size held i := by
  match i with
  | 0 => exact iff_of_true (.inl rfl) trivial
  | 1 =>
      refine iff_of_true ?_ trivial
      rw [pushInsidePop]
      split
      · exact .inr rfl
      · exact .inl rfl
  | i + 3 => exact iff_of_true (.inr rfl) trivial
  | 2 =>
      rw [pushInsidePop, FastPopSafe]
      by_cases hfull : held.length = size
      · -- two bytes at least, so that the push leaves the second in front
        obtain ⟨oldest, next, rest, rfl⟩ : ∃ oldest next rest, held = oldest :: next :: rest := by
          rw [← hfull] at h2
          match held with
          | [] => exact absurd h2 (Nat.not_succ_le_zero 1)
          | [_] => exact absurd h2 (Nat.not_succ_le_self 1)
          | oldest :: next :: rest => exact ⟨oldest, next, rest, rfl⟩
        have hpop : ((popAnswer (oldest :: next :: rest),
            (fifoPushed size (oldest :: next :: rest) byte).tail)
              = popFirst size (oldest :: next :: rest) byte) → False := by
          intro heq
          have hleft := congrArg (fun outcome => outcome.2.length) heq
          rw [popFirst, fifoPushed_tail h2 hlen, fifoPushed_of_full hfull] at hleft
          simp at hleft
        rw [if_neg (List.cons_ne_nil _ _), or_iff_left hpop, pushFirst, fifoPushed_of_full hfull]
        simp only [hfull, popAnswer, List.tail_cons, List.cons_append, List.head?_cons,
          Prod.mk.injEq, Option.some.injEq, true_and, and_true, forall_const]
        exact eq_comm
      · refine iff_of_true ?_ fun h => absurd h hfull
        cases held with
        | nil => exact .inr rfl
        | cons oldest rest =>
            left
            rw [if_neg (List.cons_ne_nil _ _), pushFirst, fifoPushed_of_room hfull]
            rfl

/-- **A POP INSIDE A PUSH** is in order where that is safe, and nowhere else. -/
theorem popInsidePush_inOrder_iff (h2 : 2 ≤ size) (hlen : held.length ≤ size) (byte : UInt8)
    (i : Nat) :
    (popInsidePush size held byte i = pushFirst size held byte ∨
      popInsidePush size held byte i = popFirst size held byte) ↔
        FastPushSafe size held byte i := by
  have hstored : ((if held.length = size then ((ErrorCode.errNone, some byte), held.tail ++ [byte])
        else popFirst size held byte) = pushFirst size held byte ∨
      (if held.length = size then ((ErrorCode.errNone, some byte), held.tail ++ [byte])
        else popFirst size held byte) = popFirst size held byte) ↔
      (held.length = size → held.head? = some byte) := by
    by_cases hfull : held.length = size
    · obtain ⟨oldest, rest, rfl⟩ : ∃ oldest rest, held = oldest :: rest := by
        refine List.exists_cons_of_ne_nil (List.ne_nil_of_length_pos ?_)
        omega
      have hpush : (((ErrorCode.errNone, some byte), (oldest :: rest).tail ++ [byte])
          = pushFirst size (oldest :: rest) byte) → False := by
        intro heq
        have hleft := congrArg (fun outcome => outcome.2.length) heq
        rw [pushFirst, fifoPushed_of_full hfull] at hleft
        simp at hleft
      rw [if_pos hfull, or_iff_right hpush, popFirst, fifoPushed_tail h2 hlen]
      simp only [hfull, popAnswer, List.tail_cons, List.head?_cons, Prod.mk.injEq,
        Option.some.injEq, true_and, and_true, forall_const]
      exact eq_comm
    · rw [if_neg hfull]
      exact iff_of_true (.inr rfl) fun h => absurd h hfull
  rcases (by omega : i = 0 ∨ i = 1 ∨ i = 2 ∨ i = 3 ∨ i = 4 ∨ 5 ≤ i) with
    rfl | rfl | rfl | rfl | rfl | hi
  · exact iff_of_true (.inr rfl) trivial
  · exact iff_of_true (.inr rfl) trivial
  · exact hstored
  · exact hstored
  · refine iff_of_true ?_ trivial
    rw [popInsidePush]
    split
    · exact .inl rfl
    · exact .inr rfl
  · obtain ⟨i, rfl⟩ := Nat.exists_eq_add_of_le' hi
    exact iff_of_true (.inl rfl) trivial

end Orders

/-! ## Runs with interrupts -/

/-- What the main loop does. -/
def fastConcurrentStep : Step (FastCircularBuffer w) ConcurrentOp ConcurrentResponse
  | buffer, .call op =>
      (fastCircularBufferStep buffer op).map fun (response, buffer') =>
        (.answered response, buffer')
  | buffer, .interrupted .pushInPop k byte =>
      (interrupted (fastPushCall byte) k fastPopByteBody none buffer).map
        fun (answer, code, buffer') => (.both (.popped answer.1 answer.2) (.pushed code), buffer')
  | buffer, .interrupted .popInPush k byte =>
      (interrupted fastPopCall k (fastPushByteBody byte) false buffer).map
        fun (code, answer, buffer') => (.both (.popped answer.1 answer.2) (.pushed code), buffer')

/-- The condition on the contents for the place of an interrupt. -/
def FastInterruptSafe (size : SizeT w) (buffer : FastCircularBuffer w) : ConcurrentOp → Prop
  | .call _ => True
  | .interrupted .pushInPop k _ => FastPopSafe size.toNat (fastContents buffer) k
  | .interrupted .popInPush k byte => FastPushSafe size.toNat (fastContents buffer) byte k

section Runs

variable {size : SizeT w} {k : Nat} {buffer : FastCircularBuffer w} {held : List UInt8}

theorem FastRepresents.contents_eq (hpow : size.toNat = 2 ^ k)
    (h : FastRepresents size buffer held) : fastContents buffer = held := by
  have hcount := h.count
  apply List.ext_getElem
  · rw [fastContents, List.length_map, List.length_range, hcount]
  · intro i h₁ h₂
    have hsize := size.isLt
    have hlen := h.length_le
    have hindex : ((buffer.readIndex + BitVec.ofNat w i) &&& buffer.sizeMask).toNat
        = (buffer.readIndex.toNat + i) % size.toNat := by
      rw [h.sizeMask, toNat_and_pred hpow, BitVec.toNat_add,
        Nat.mod_mod_of_dvd _ (dvd_two_pow hpow), BitVec.toNat_ofNat,
        Nat.mod_eq_of_lt (a := i) (by omega)]
    rw [← h.bytes i h₂, ← hindex]
    simp [fastContents]

/-- **EVERY INTERRUPTED CALL** leaves a buffer that represents some bytes, and has the
    effect of an order exactly where its place is safe. -/
theorem FastRepresents.interrupted_step (hpow : size.toNat = 2 ^ k) (h2 : 2 ≤ size.toNat)
    (h : FastRepresents size buffer held) (inside : Inside) (i : Nat) (byte : UInt8) :
    ∃ popped pushed buffer' left,
      fastConcurrentStep buffer (.interrupted inside i byte)
        = some (.both popped pushed, buffer') ∧
      FastRepresents size buffer' left ∧
      (InOrder size.toNat held byte (popped, pushed, left) ↔
        FastInterruptSafe size buffer (.interrupted inside i byte)) := by
  have hcontents := h.contents_eq hpow
  cases inside with
  | pushInPop =>
      obtain ⟨buffer', hrun, h'⟩ := h.interruptedPop hpow h2 i byte
      refine ⟨.popped (pushInsidePop size.toNat held byte i).1.1
        (pushInsidePop size.toNat held byte i).1.2, .pushed .errNone, buffer', _, ?_, h', ?_⟩
      · rw [fastConcurrentStep, hrun]
        rfl
      · rw [inOrder_pair_iff, pushInsidePop_inOrder_iff h2 h.length_le, FastInterruptSafe,
          hcontents]
  | popInPush =>
      obtain ⟨buffer', hrun, h'⟩ := h.interruptedPush hpow h2 i byte
      refine ⟨.popped (popInsidePush size.toNat held byte i).1.1
        (popInsidePush size.toNat held byte i).1.2, .pushed .errNone, buffer', _, ?_, h', ?_⟩
      · rw [fastConcurrentStep, hrun]
        rfl
      · rw [inOrder_pair_iff, popInsidePush_inOrder_iff h2 h.length_le, FastInterruptSafe,
          hcontents]

/-- **ONE CALL** of any kind is defined, and leaves a buffer that represents some bytes. -/
theorem FastRepresents.step_sound (hpow : size.toNat = 2 ^ k) (h2 : 2 ≤ size.toNat)
    (op : ConcurrentOp) (h : ∃ held, FastRepresents size buffer held) :
    ∃ response buffer', fastConcurrentStep buffer op = some (response, buffer') ∧
      ∃ held', FastRepresents size buffer' held' := by
  obtain ⟨held, h⟩ := h
  cases op with
  | call op =>
      obtain ⟨buffer', hstep, h'⟩ := fastRepresents_simulates hpow h2 buffer held op h
      refine ⟨.answered (overwritingFifo size.toNat held op).1, buffer', ?_, _, h'⟩
      rw [fastConcurrentStep, hstep]
      rfl
  | interrupted inside i byte =>
      obtain ⟨popped, pushed, buffer', left, hstep, h', -⟩ :=
        h.interrupted_step hpow h2 inside i byte
      exact ⟨_, buffer', hstep, left, h'⟩

/-- **ONE CALL**, interrupted at a place that is safe or not interrupted, is linearized. -/
theorem fastLinearizes_op (hpow : size.toNat = 2 ^ k) (h2 : 2 ≤ size.toNat)
    (buffer : FastCircularBuffer w) (held : List UInt8) (op : ConcurrentOp)
    (h : FastRepresents size buffer held) (hsafe : FastInterruptSafe size buffer op) :
    ∃ response buffer' calls answers held',
      fastConcurrentStep buffer op = some (response, buffer') ∧
      LinearizesOp op response calls answers ∧
      runSpec (overwritingFifo size.toNat) held calls = (answers, held') ∧
      FastRepresents size buffer' held' := by
  cases op with
  | call op =>
      obtain ⟨buffer', hstep, h'⟩ := fastRepresents_simulates hpow h2 buffer held op h
      refine ⟨_, buffer', [op], _, _, ?_, .call op _, rfl, h'⟩
      rw [fastConcurrentStep, hstep]
      rfl
  | interrupted inside i byte =>
      obtain ⟨popped, pushed, buffer', left, hstep, h', horder⟩ :=
        h.interrupted_step hpow h2 inside i byte
      obtain ⟨calls, answers, hlinear, hspec⟩ := (horder.mpr hsafe).linearizes inside i
      exact ⟨_, buffer', calls, answers, left, hstep, hlinear, hspec, h'⟩

/-- Away from the full buffer, every place of an interrupt is safe. -/
theorem fastInterruptSafe_of_room (hroom : (fastContents buffer).length ≠ size.toNat)
    (op : ConcurrentOp) : FastInterruptSafe size buffer op := by
  cases op with
  | call op => exact trivial
  | interrupted inside i byte =>
      cases inside with
      | pushInPop =>
          match i with
          | 2 => exact fun hfull => absurd hfull hroom
          | 0 | 1 | _ + 3 => exact trivial
      | popInPush =>
          match i with
          | 2 | 3 => exact fun hfull => absurd hfull hroom
          | 0 | 1 | _ + 4 => exact trivial

end Runs

/-- **THE SAFE PLACES, EXACTLY**: after an accepted init, every run of calls, interrupted
    anywhere, is defined; and in the state it ends in, a call that is interrupted has the
    effect of one of the two orders if and only if the place of the interrupt is safe. -/
theorem fast_circular_buffer_interrupt_iff (buffer : FastCircularBuffer w)
    {bufferConfig : FastCircularBufferConfig w}
    (hblock : bufferConfig.buffer.size = bufferConfig.bufferSize.toNat)
    (hpow : ∃ k, 1 ≤ k ∧ bufferConfig.bufferSize.toNat = 2 ^ k) :
    ∃ buffer₀, fastCircularBufferInit buffer bufferConfig = (.errNone, buffer₀) ∧
      ∀ ops, ∃ responses buffer', run fastConcurrentStep buffer₀ ops = some (responses, buffer') ∧
        ∀ inside i byte, ∃ popped pushed buffer'',
          fastConcurrentStep buffer' (.interrupted inside i byte)
            = some (.both popped pushed, buffer'') ∧
          (InOrder bufferConfig.bufferSize.toNat (fastContents buffer') byte
              (popped, pushed, fastContents buffer'') ↔
            FastInterruptSafe bufferConfig.bufferSize buffer' (.interrupted inside i byte)) := by
  obtain ⟨k, hk, hpow⟩ := hpow
  have h2 : 2 ≤ bufferConfig.bufferSize.toNat := by
    rw [hpow]
    exact Nat.pow_le_pow_right Nat.two_pos hk
  obtain ⟨buffer₀, hinit, h₀⟩ := init_fastRepresents buffer hblock hpow h2
  refine ⟨buffer₀, hinit, ?_⟩
  intro ops
  obtain ⟨responses, buffer', hrun, held, h⟩ := run_invariant_of_admits
    (fun _ op h (_ : True) => FastRepresents.step_sound hpow h2 op h) ops buffer₀ ⟨[], h₀⟩
    (admits_of_forall (fun _ _ => trivial) ops buffer₀)
  refine ⟨responses, buffer', hrun, ?_⟩
  intro inside i byte
  obtain ⟨popped, pushed, buffer'', left, hstep, h', horder⟩ :=
    h.interrupted_step hpow h2 inside i byte
  refine ⟨popped, pushed, buffer'', hstep, ?_⟩
  rw [h.contents_eq hpow, h'.contents_eq hpow]
  exact horder

/-- The fresh buffer of two bytes. -/
def twoByteFastBuffer : FastCircularBuffer 2 := ⟨twoByteFastRing.buffer, 0, 0, 1⟩

/-- Two bytes of storage, filled with a pop inside the second push: then a push after the
    load of a pop is in order if the two bytes are the same, and they are not. -/
theorem fast_circular_buffer_interrupt_iff_two_bytes :
    ∃ responses buffer', run fastConcurrentStep twoByteFastBuffer
        [.call (.pushByte 5), .interrupted .popInPush 3 6, .call (.pushByte 7)]
          = some (responses, buffer') ∧
      ∃ popped pushed buffer'', fastConcurrentStep buffer' (.interrupted .pushInPop 2 8)
          = some (.both popped pushed, buffer'') ∧
        (InOrder 2 (fastContents buffer') 8 (popped, pushed, fastContents buffer'') ↔
          FastInterruptSafe 2 buffer' (.interrupted .pushInPop 2 8)) := by
  obtain ⟨buffer₀, hinit, hruns⟩ := fast_circular_buffer_interrupt_iff
    ⟨twoByteFastRing.buffer, 0, 0, 0⟩
    (rfl : twoByteFastRing.buffer.size = twoByteFastRing.bufferSize.toNat)
    ⟨1, Nat.le_refl 1, (rfl : twoByteFastRing.bufferSize.toNat = 2 ^ 1)⟩
  obtain ⟨-, rfl⟩ := Prod.mk.inj hinit
  obtain ⟨responses, buffer', hrun, hplaces⟩ := hruns
    [.call (.pushByte 5), .interrupted .popInPush 3 6, .call (.pushByte 7)]
  exact ⟨responses, buffer', hrun, hplaces .pushInPop 2 8⟩

/-- **INTERRUPTED RUNS ARE LINEARIZABLE**: after an accepted init, for every run of calls,
    each interrupted by the other side where that is safe, there are plain calls, each
    interrupt before or after the call it came in, for which the FIFO gives the same
    answers and holds at the end what the buffer does.  In a buffer that is not full,
    every place is safe. -/
theorem fast_circular_buffer_runs_linearizable (buffer : FastCircularBuffer w)
    {bufferConfig : FastCircularBufferConfig w}
    (hblock : bufferConfig.buffer.size = bufferConfig.bufferSize.toNat)
    (hpow : ∃ k, 1 ≤ k ∧ bufferConfig.bufferSize.toNat = 2 ^ k) :
    ∃ buffer₀, fastCircularBufferInit buffer bufferConfig = (.errNone, buffer₀) ∧
      (∀ ops, Admits fastConcurrentStep (FastInterruptSafe bufferConfig.bufferSize) buffer₀ ops →
        ∃ responses buffer' calls answers,
          run fastConcurrentStep buffer₀ ops = some (responses, buffer') ∧
          Linearizes ops responses calls answers ∧
          runSpec (overwritingFifo bufferConfig.bufferSize.toNat) [] calls
            = (answers, fastContents buffer')) ∧
      ∀ buffer' op, (fastContents buffer').length ≠ bufferConfig.bufferSize.toNat →
        FastInterruptSafe bufferConfig.bufferSize buffer' op := by
  obtain ⟨k, hk, hpow⟩ := hpow
  have h2 : 2 ≤ bufferConfig.bufferSize.toNat := by
    rw [hpow]
    exact Nat.pow_le_pow_right Nat.two_pos hk
  obtain ⟨buffer₀, hinit, h₀⟩ := init_fastRepresents buffer hblock hpow h2
  refine ⟨buffer₀, hinit, ?_, fun buffer' op hroom => fastInterruptSafe_of_room hroom op⟩
  intro ops hadmits
  obtain ⟨responses, buffer', calls, answers, held, hrun, hlinear, hspec, h⟩ :=
    linearizes_run (fastLinearizes_op hpow h2) ops h₀ hadmits
  refine ⟨responses, buffer', calls, answers, hrun, hlinear, ?_⟩
  rw [hspec, h.contents_eq hpow]

/-- A push, a push with a pop after its store, and a pop with a push after its load. -/
theorem fast_circular_buffer_runs_linearizable_two_bytes :
    ∃ responses buffer' calls answers,
      run fastConcurrentStep twoByteFastBuffer [.call (.pushByte 5),
          .interrupted .popInPush 2 6, .interrupted .pushInPop 2 7] = some (responses, buffer') ∧
      Linearizes [.call (.pushByte 5), .interrupted .popInPush 2 6, .interrupted .pushInPop 2 7]
        responses calls answers ∧
      runSpec (overwritingFifo 2) [] calls = (answers, fastContents buffer') := by
  obtain ⟨buffer₀, hinit, hruns, hroom⟩ := fast_circular_buffer_runs_linearizable
    ⟨twoByteFastRing.buffer, 0, 0, 0⟩
    (rfl : twoByteFastRing.buffer.size = twoByteFastRing.bufferSize.toNat)
    ⟨1, Nat.le_refl 1, (rfl : twoByteFastRing.bufferSize.toNat = 2 ^ 1)⟩
  obtain ⟨-, rfl⟩ := Prod.mk.inj hinit
  refine hruns _ (Admits.cons trivial rfl (Admits.cons ?_ rfl (Admits.cons ?_ rfl trivial)))
  · exact hroom _ _ (by decide)
  · exact hroom _ _ (by decide)

end CembFastCircularBuffer
