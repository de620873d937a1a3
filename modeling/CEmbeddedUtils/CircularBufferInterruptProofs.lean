import CEmbeddedUtils.CircularBufferProofs
import CEmbeddedUtils.InterruptProofs

/-! # An interrupt inside a push or a pop

    The circular buffer is for one producer and one consumer, and one of them may
    be an interrupt.  A complete push between two statements of a pop, or a pop
    between two of a push, should have the effect of one of the two orders.  On
    a full buffer the producer moves the consumer's read index, and on an empty
    or a full one both write the flag; there the statements in progress act on
    what they read before the interrupt.  The conditions say, for each place of
    the interrupt, in which states of the buffer the effect is still that of an
    order. -/

namespace CembCircularBuffer

open CembByteBuffer Interrupt Memory Transducer

variable {w : Nat}

/-! ## The source, statement by statement -/

/-- A complete push. -/
def pushCall (byte : UInt8) : Call (CircularBuffer w) ErrorCode :=
  fun buffer => circularBufferPushByte buffer byte

/-- A complete pop: what it returns, and what it stores through `byte`. -/
def popCall : Call (CircularBuffer w) (ErrorCode × Option UInt8) := fun buffer =>
  (circularBufferPopByte buffer).map fun (code, byte, buffer') => ((code, byte), buffer')

/-- `circular_buffer_pop_byte`; the variable is what has been stored through `byte`. -/
def popByteBody :
    List (Statement (CircularBuffer w) (Option UInt8) (ErrorCode × Option UInt8)) :=
  [fun byte buffer => some (if circularBufferGetCount buffer = 0 then
      .returned (.errEmpty, byte) buffer else .next byte buffer),
    fun _ buffer => (buffer.buffer.load buffer.readIndex.toNat).map fun value =>
      .next (some value) buffer,
    fun byte buffer => some (.next byte (advanceRead buffer)),
    fun byte buffer => some (.next byte (computeEmpty buffer)),
    fun byte buffer => some (.returned (.errNone, byte) buffer)]

/-- `circular_buffer_push_byte` after the store; the variable is the condition of the
    `if`, which is evaluated before the statement under it. -/
def pushByteRest : List (Statement (CircularBuffer w) Bool ErrorCode) :=
  [fun _ buffer => some (.next
      (decide (buffer.writeIndex = buffer.readIndex ∧ buffer.bufferIsEmpty = false)) buffer),
    fun full buffer => some (.next full (if full then advanceRead buffer else buffer)),
    fun full buffer => some (.next full (advanceWrite buffer)),
    fun full buffer => some (.next full (clearEmpty buffer)),
    fun _ buffer => some (.returned .errNone buffer)]

/-- `circular_buffer_push_byte`. -/
def pushByteBody (byte : UInt8) : List (Statement (CircularBuffer w) Bool ErrorCode) :=
  (fun full buffer => some (if buffer.bufferMaxSize = 0 then
      .returned .errNoMem buffer else .next full buffer)) ::
    (fun full buffer => (buffer.buffer.store buffer.writeIndex.toNat byte).map fun bytes =>
      .next full { buffer with buffer := bytes }) ::
    pushByteRest

/-- **WITHOUT AN INTERRUPT** the statements of a pop are the pop. -/
theorem exec_popByteBody (buffer : CircularBuffer w) :
    exec popByteBody none buffer = popCall buffer := by
  rw [popCall, circularBufferPopByte]
  by_cases hcount : circularBufferGetCount buffer = 0
  · simp only [popByteBody, exec, if_pos hcount]
    rfl
  · simp only [popByteBody, exec, if_neg hcount]
    cases buffer.buffer.load buffer.readIndex.toNat with
    | none => rfl
    | some value => rfl

/-- **WITHOUT AN INTERRUPT** the statements of a push are the push. -/
theorem exec_pushByteBody (byte : UInt8) (buffer : CircularBuffer w) :
    exec (pushByteBody byte) false buffer = pushCall byte buffer := by
  rw [pushCall, circularBufferPushByte]
  by_cases hmax : buffer.bufferMaxSize = 0
  · simp only [pushByteBody, exec, if_pos hmax]
  · simp only [pushByteBody, pushByteRest, exec, if_neg hmax]
    cases buffer.buffer.store buffer.writeIndex.toNat byte with
    | none => rfl
    | some bytes =>
        by_cases hfull : buffer.writeIndex = buffer.readIndex ∧ buffer.bufferIsEmpty = false
        · simp only [Option.map_some, decide_eq_true hfull, if_pos hfull]
          rfl
        · simp only [Option.map_some, decide_eq_false hfull, if_neg hfull]
          rfl

/-! ## What is observed -/

/-- The bytes in the buffer, the oldest first, as many as its count says. -/
def contents (buffer : CircularBuffer w) : List UInt8 :=
  (List.range (circularBufferGetCount buffer).toNat).map fun i =>
    buffer.buffer.cell ((buffer.readIndex.toNat + i) % buffer.bufferMaxSize.toNat)

/-- What the pop answers, what the push answers, and the contents afterwards. -/
abbrev Outcome := (ErrorCode × Option UInt8) × ErrorCode × List UInt8

def pushThenPop (buffer : CircularBuffer w) (byte : UInt8) : Option Outcome := do
  let (pushed, buffer₁) ← pushCall byte buffer
  let (popped, buffer₂) ← popCall buffer₁
  some (popped, pushed, contents buffer₂)

def popThenPush (buffer : CircularBuffer w) (byte : UInt8) : Option Outcome := do
  let (popped, buffer₁) ← popCall buffer
  let (pushed, buffer₂) ← pushCall byte buffer₁
  some (popped, pushed, contents buffer₂)

/-- A pop with a push after `k` of its statements. -/
def interruptedPop (k : Nat) (buffer : CircularBuffer w) (byte : UInt8) : Option Outcome :=
  (interrupted (pushCall byte) k popByteBody none buffer).map fun (popped, pushed, buffer') =>
    (popped, pushed, contents buffer')

/-- A push with a pop after `k` of its statements. -/
def interruptedPush (k : Nat) (buffer : CircularBuffer w) (byte : UInt8) : Option Outcome :=
  (interrupted popCall k (pushByteBody byte) false buffer).map fun (pushed, popped, buffer') =>
    (popped, pushed, contents buffer')

/-- The two calls together did what they do in one of the two orders. -/
def Serializable (buffer : CircularBuffer w) (byte : UInt8) (outcome : Option Outcome) : Prop :=
  outcome = pushThenPop buffer byte ∨ outcome = popThenPush buffer byte

/-- The push is complete. -/
theorem pushThenPop_of_push {buffer buffer₁ : CircularBuffer w} {byte : UInt8} {code : ErrorCode}
    (hpush : pushCall byte buffer = some (code, buffer₁)) :
    pushThenPop buffer byte
      = (popCall buffer₁).map fun (popped, buffer₂) => (popped, code, contents buffer₂) := by
  rw [pushThenPop, hpush]
  show (popCall buffer₁).bind _ = _
  cases popCall buffer₁ with
  | none => rfl
  | some p => rfl

/-- The pop is complete. -/
theorem popThenPush_of_pop {buffer buffer₁ : CircularBuffer w}
    {popped : ErrorCode × Option UInt8} (hpop : popCall buffer = some (popped, buffer₁))
    (byte : UInt8) :
    popThenPush buffer byte
      = (pushCall byte buffer₁).map fun (code, buffer₂) => (popped, code, contents buffer₂) := by
  rw [popThenPush, hpop]
  show (pushCall byte buffer₁).bind _ = _
  cases pushCall byte buffer₁ with
  | none => rfl
  | some p => rfl

/-- The condition on the bytes held for a push after `k` statements of a pop: not
    after `*byte` is stored, where the buffer is full, unless the new oldest byte
    is the same; and not after the read index has moved, where it is full or the
    last byte has gone, unless it has one cell and the byte is the same. -/
def PopSafe (size : Nat) (held : List UInt8) (byte : UInt8) : Nat → Prop
  | 2 => held.length = size → (held.tail ++ [byte]).head? = held.head?
  | 3 => held.length = 1 ∨ held.length = size → size = 1 ∧ held.head? = some byte
  | _ => True

/-- The condition on the bytes held for a pop after `k` statements of a push: not
    after the oldest byte of a full buffer is overwritten, unless with the byte
    that the pop should answer; and not into an empty buffer whose write index
    has moved, unless it has one cell. -/
def PushSafe (size : Nat) (held : List UInt8) (byte : UInt8) : Nat → Prop
  | 2 => held.length = size → held.head? = some byte
  | 3 => held.length = size → (held.tail ++ held).head? = some byte
  | 4 => size = 1 → held.length = size → held.head? = some byte
  | 5 => (held = [] → size = 1) ∧ (size = 1 → held.length = size → held.head? = some byte)
  | _ => True

section Outcomes

variable {size : SizeT w} {buffer : CircularBuffer w} {held : List UInt8}

/-- The contents are the bytes held. -/
theorem Shows.contents_eq (h : Shows size buffer held) : contents buffer = held := by
  have hcount := h.count
  apply List.ext_getElem
  · rw [contents, List.length_map, List.length_range, hcount]
  · intro i h₁ h₂
    rw [← h.bytes i h₂]
    simp [contents, h.maxSize]

/-- What a pop answers. -/
def popAnswer : List UInt8 → ErrorCode × Option UInt8
  | [] => (.errEmpty, none)
  | oldest :: _ => (.errNone, some oldest)

/-- A complete pop. -/
theorem Shows.popCall_eq (h : Shows size buffer held) :
    ∃ buffer', popCall buffer = some (popAnswer held, buffer') ∧
      Shows size buffer' held.tail ∧ buffer'.buffer = buffer.buffer ∧
      buffer'.writeIndex = buffer.writeIndex ∧ (held ≠ [] → Represents size buffer' held.tail) := by
  cases held with
  | nil =>
      refine ⟨buffer, ?_, h, rfl, rfl, fun hne => absurd rfl hne⟩
      rw [popCall, h.pop_empty]
      rfl
  | cons oldest held =>
      refine ⟨_, ?_, h.drop.shows, rfl, rfl, fun _ => h.drop⟩
      rw [popCall, h.pop]
      rfl

theorem pushed_ne_nil (size : SizeT w) (held : List UInt8) (byte : UInt8) :
    pushed size held byte ≠ [] := by
  simp [pushed]

theorem Shows.pushThenPop_eq (h : Shows size buffer held) (byte : UInt8) :
    pushThenPop buffer byte = some (popAnswer (pushed size held byte), .errNone,
      (pushed size held byte).tail) := by
  obtain ⟨buffer₁, hpush, h₁⟩ := h.push byte
  obtain ⟨buffer₂, hpop, h₂, -⟩ := h₁.shows.popCall_eq
  rw [pushThenPop_of_push hpush, hpop, ← h₂.contents_eq]
  rfl

/-- A full buffer has an oldest byte. -/
theorem Shows.oldest_of_full (h : Shows size buffer held) (hfull : held.length = size.toNat) :
    ∃ oldest rest, held = oldest :: rest := by
  have hpos := h.size_pos
  exact List.exists_cons_of_length_pos (by omega)

/-- With more than one cell, it has others. -/
theorem Shows.tail_ne_nil (h : Shows size buffer held) (hfull : held.length = size.toNat)
    (hmore : size.toNat ≠ 1) : held.tail ≠ [] := by
  have hpos := h.size_pos
  refine List.ne_nil_of_length_pos ?_
  rw [List.length_tail]
  omega

/-- After a pop there is room. -/
theorem Shows.tail_room (h : Shows size buffer held) : held.tail.length ≠ size.toNat := by
  have hlen := h.length_le
  have hpos := h.size_pos
  rw [List.length_tail]
  omega

theorem Shows.popThenPush_eq (h : Shows size buffer held) (byte : UInt8) :
    popThenPush buffer byte = some (popAnswer held, .errNone, held.tail ++ [byte]) := by
  obtain ⟨buffer₁, hpop, h₁, -⟩ := h.popCall_eq
  obtain ⟨buffer₂, hpush, h₂⟩ := h₁.push_room h.tail_room byte
  rw [popThenPush_of_pop hpop, pushCall, hpush, ← h₂.shows.contents_eq]
  rfl

/-- **THE TWO ORDERS**, on the bytes held. -/
theorem Shows.serializable_iff (h : Shows size buffer held) {byte : UInt8}
    {outcome : Outcome} : Serializable buffer byte (some outcome) ↔
      outcome = (popAnswer (pushed size held byte), .errNone, (pushed size held byte).tail) ∨
      outcome = (popAnswer held, .errNone, held.tail ++ [byte]) := by
  rw [Serializable, h.pushThenPop_eq, h.popThenPush_eq, Option.some.injEq, Option.some.injEq]

/-- Where the indices coincide and the flag is clear, every cell counts. -/
theorem shows_of_coincide (buffer : CircularBuffer w) (hmax : buffer.bufferMaxSize = size)
    (hblock : buffer.buffer.size = size.toNat) (hread : buffer.readIndex.toNat < size.toNat)
    (hwrite : buffer.writeIndex = buffer.readIndex) (hflag : buffer.bufferIsEmpty = false) :
    ∃ ring, ring.length = size.toNat ∧ Shows size buffer ring := by
  have hlength : ((List.range size.toNat).map fun i =>
      buffer.buffer.cell ((buffer.readIndex.toNat + i) % size.toNat)).length = size.toNat := by
    rw [List.length_map, List.length_range]
  refine ⟨_, hlength, hmax, hblock, hread, Nat.le_of_eq hlength, ?_, ?_, ?_, ?_⟩
  · rw [hlength, Nat.add_mod_right, hwrite, Nat.mod_eq_of_lt hread]
  · rw [hflag]
    exact fun h => nomatch h
  · intro _ hnil
    rw [hnil, List.length_nil] at hlength
    omega
  · intro i hi
    rw [List.getElem_map, List.getElem_range]

/-- A clear flag on an empty buffer tells of a full one. -/
theorem Represents.length_contents_clearEmpty (h : Represents size buffer []) :
    (contents (clearEmpty buffer)).length = size.toNat := by
  have hwrite : buffer.writeIndex = buffer.readIndex := by
    apply BitVec.eq_of_toNat_eq
    rw [h.write, List.length_nil, Nat.add_zero, Nat.mod_eq_of_lt h.read_lt]
  obtain ⟨ring, hlength, hring⟩ :=
    shows_of_coincide (clearEmpty buffer) h.maxSize h.block h.read_lt hwrite rfl
  rw [hring.contents_eq, hlength]

/-- A flag computed on a full buffer tells of an empty one. -/
theorem Represents.contents_computeEmpty (h : Represents size buffer held) (hne : held ≠ []) :
    contents (computeEmpty buffer) = if held.length = size.toNat then [] else held := by
  have hflag := h.flag_eq_false hne
  by_cases hfull : held.length = size.toNat
  · obtain ⟨hwrite, -⟩ := h.shows.full_iff.mpr hfull
    have hcomputed : (computeEmpty buffer).bufferIsEmpty = true := decide_eq_true hwrite.symm
    have hcount : circularBufferGetCount (computeEmpty buffer) = 0 := by
      have hgt : ¬ (computeEmpty buffer).writeIndex > (computeEmpty buffer).readIndex := by
        show ¬ buffer.writeIndex > buffer.readIndex
        rw [hwrite]
        exact BitVec.lt_irrefl _
      have hlt : ¬ (computeEmpty buffer).writeIndex < (computeEmpty buffer).readIndex := by
        show ¬ buffer.writeIndex < buffer.readIndex
        rw [hwrite]
        exact BitVec.lt_irrefl _
      rw [circularBufferGetCount, if_neg hgt, if_neg hlt, hcomputed, if_pos rfl]
    rw [if_pos hfull, contents, hcount, SizeT.toNat_eq_zero.mpr rfl]
    rfl
  · have hdiffer : ¬ buffer.readIndex = buffer.writeIndex := by
      intro heq
      exact hfull (h.shows.full_iff.mp ⟨heq.symm, hflag⟩)
    have hsame : computeEmpty buffer = buffer := by
      rw [computeEmpty, decide_eq_false hdiffer, ← hflag]
    rw [if_neg hfull, hsame, h.shows.contents_eq]

end Outcomes

/-! ## A push inside a pop -/

section InterruptedPop

variable {size : SizeT w} {buffer : CircularBuffer w} {held : List UInt8} {oldest : UInt8}

/-- Before the first statement, or after the return. -/
theorem interruptedPop_zero (buffer : CircularBuffer w) (byte : UInt8) :
    interruptedPop 0 buffer byte = pushThenPop buffer byte := by
  rw [interruptedPop]
  cases hpush : pushCall byte buffer with
  | none =>
      simp only [pushThenPop, interrupted, hpush, Option.bind_eq_bind, Option.bind_none,
        Option.map_none]
  | some p =>
      rw [interrupted_zero hpush, exec_popByteBody, pushThenPop_of_push hpush, Option.map_map]
      rfl

/-- An empty buffer ends the pop at its first statement. -/
theorem Shows.interruptedPop_empty (h : Shows size buffer []) (k : Nat) (byte : UInt8) :
    interruptedPop (k + 1) buffer byte = popThenPush buffer byte := by
  have hcount : circularBufferGetCount buffer = 0 := h.count_eq_zero.mpr rfl
  obtain ⟨buffer', hpush, -⟩ := h.push byte
  rw [interruptedPop, popThenPush, popCall, h.pop_empty]
  simp only [popByteBody, interrupted, if_pos hcount, pushCall, hpush, Option.bind_eq_bind,
    Option.bind_some, Option.map_some]

/-- The two statements of a pop of bytes that come before the state changes. -/
theorem Shows.pop_statements (h : Shows size buffer (oldest :: held)) :
    ¬ circularBufferGetCount buffer = 0 ∧
      buffer.buffer.load buffer.readIndex.toNat = some oldest := by
  have hread := h.read_lt
  constructor
  · exact mt h.count_eq_zero.mp (List.cons_ne_nil _ _)
  · rw [Block.load_of_lt (by rw [h.block]; exact hread), ← h.bytes.head,
      Nat.mod_eq_of_lt hread]

/-- After the count has been read, the pop goes on as one that comes after the push. -/
theorem Shows.interruptedPop_one (h : Shows size buffer (oldest :: held)) (byte : UInt8) :
    interruptedPop 1 buffer byte = pushThenPop buffer byte := by
  obtain ⟨hcount, -⟩ := h.pop_statements
  obtain ⟨buffer₁, hpush, h₁⟩ := h.push byte
  obtain ⟨next, rest, hpushed⟩ :=
    List.exists_cons_of_ne_nil (pushed_ne_nil size (oldest :: held) byte)
  rw [hpushed] at h₁
  obtain ⟨-, hload⟩ := h₁.shows.pop_statements
  rw [h.pushThenPop_eq, hpushed, interruptedPop]
  simp only [popByteBody, interrupted, if_neg hcount, pushCall, hpush, Option.bind_eq_bind,
    Option.bind_some, exec, hload, Option.map_some]
  rw [h₁.shows.drop.shows.contents_eq]
  rfl

/-- After `*byte` has been stored, the pop drops the byte that is the oldest by then. -/
theorem Shows.interruptedPop_two (h : Shows size buffer (oldest :: held)) (byte : UInt8) :
    interruptedPop 2 buffer byte
      = some ((.errNone, some oldest), .errNone, (pushed size (oldest :: held) byte).tail) := by
  obtain ⟨hcount, hload⟩ := h.pop_statements
  obtain ⟨buffer₁, hpush, h₁⟩ := h.push byte
  obtain ⟨next, rest, hpushed⟩ :=
    List.exists_cons_of_ne_nil (pushed_ne_nil size (oldest :: held) byte)
  rw [hpushed] at h₁ ⊢
  rw [interruptedPop]
  simp only [popByteBody, interrupted, if_neg hcount, hload, pushCall, hpush, Option.bind_eq_bind,
    Option.bind_some, exec, Option.map_some]
  rw [h₁.shows.drop.shows.contents_eq]
  rfl

/-- After the read index has moved, the flag is computed from indices of which the
    push has moved one or both. -/
theorem Represents.interruptedPop_three (h : Represents size buffer (oldest :: held))
    (byte : UInt8) :
    interruptedPop 3 buffer byte
      = some ((.errNone, some oldest), .errNone,
          if held = [] ∨ (oldest :: held).length = size.toNat then [] else held ++ [byte]) := by
  obtain ⟨hcount, hload⟩ := h.shows.pop_statements
  have hflag := h.flag_eq_false (List.cons_ne_nil _ _)
  have hlen := h.length_le
  rw [List.length_cons] at hlen ⊢
  have hpop : ∀ {buffer₁} (l : List UInt8), circularBufferPushByte (advanceRead buffer) byte
      = some (.errNone, buffer₁) → Represents size buffer₁ l → l ≠ [] →
      interruptedPop 3 buffer byte = some ((.errNone, some oldest), .errNone,
        if l.length = size.toNat then [] else l) := by
    intro buffer₁ l hpush h₁ hne
    rw [interruptedPop, ← h₁.contents_computeEmpty hne]
    simp only [popByteBody, interrupted, if_neg hcount, hload, pushCall, hpush,
      Option.bind_eq_bind, Option.bind_some, exec, Option.map_some]
  by_cases hnil : held = []
  · -- the last byte has gone, and the flag does not tell yet
    subst hnil
    have hread := h.shows.next_read
    have hwrite : (advanceRead buffer).writeIndex = (advanceRead buffer).readIndex := by
      apply BitVec.eq_of_toNat_eq
      rw [hread]
      exact h.write
    obtain ⟨ring, hlength, hring⟩ :=
      shows_of_coincide (advanceRead buffer) h.maxSize h.block h.shows.next_read_lt hwrite hflag
    obtain ⟨buffer₁, hpush, h₁⟩ := hring.push byte
    rw [hpop _ hpush h₁ (pushed_ne_nil _ _ _), if_pos, if_pos (.inl rfl)]
    rw [pushed, if_pos hlength, List.length_append, List.length_tail, List.length_singleton,
      hlength]
    exact Nat.sub_add_cancel h.size_pos
  · have hadvanced := h.shows.readAdvanced fun _ => hnil
    have hroom : held.length ≠ size.toNat := by omega
    obtain ⟨buffer₁, hpush, h₁⟩ := hadvanced.push_room hroom byte
    rw [hpop _ hpush h₁ (by simp), List.length_append, List.length_singleton]
    simp only [hnil, false_or]

/-- After the last assignment, the pop is complete. -/
theorem Shows.interruptedPop_four (h : Shows size buffer (oldest :: held)) (byte : UInt8) :
    interruptedPop 4 buffer byte = popThenPush buffer byte := by
  obtain ⟨hcount, hload⟩ := h.pop_statements
  obtain ⟨buffer₁, hpush, h₁⟩ := h.drop.shows.push byte
  rw [interruptedPop, popThenPush, popCall, h.pop]
  simp only [popByteBody, interrupted, if_neg hcount, hload, pushCall, hpush, Option.bind_eq_bind,
    Option.bind_some, exec, Option.map_some]

/-- After the return. -/
theorem Shows.interruptedPop_return (h : Shows size buffer held) (k : Nat) (byte : UInt8) :
    interruptedPop (k + 5) buffer byte = popThenPush buffer byte := by
  obtain ⟨buffer₁, hpop, h₁, -⟩ := h.popCall_eq
  have hexec : exec popByteBody none buffer = some (popAnswer held, buffer₁) := by
    rw [exec_popByteBody, hpop]
  rw [interruptedPop, interrupted_of_length_le (Nat.le_add_left 5 k) hexec,
    popThenPush_of_pop hpop, Option.map_map]
  rfl

/-- On a full buffer the push drops the oldest byte. -/
theorem pushed_of_full (hfull : (oldest :: held).length = size.toNat) (byte : UInt8) :
    pushed size (oldest :: held) byte = held ++ [byte] := by
  rw [pushed, if_pos hfull, List.tail_cons]

/-- With room left the push drops nothing. -/
theorem pushed_of_room (hroom : held.length ≠ size.toNat) (byte : UInt8) :
    pushed size held byte = held ++ [byte] := by
  rw [pushed, if_neg hroom]

/-- The condition where the pop has answered a byte that the push may drop. -/
theorem Shows.pop_two_iff (h : Shows size buffer (oldest :: held)) (byte : UInt8) :
    Serializable buffer byte (interruptedPop 2 buffer byte) ↔
      PopSafe size.toNat (oldest :: held) byte 2 := by
  rw [h.interruptedPop_two, h.serializable_iff, PopSafe]
  by_cases hfull : (oldest :: held).length = size.toNat
  · -- the byte dropped is the second oldest, the one answered the oldest
    rw [pushed_of_full hfull, ← hfull]
    cases held with
    | nil => simp [popAnswer, eq_comm]
    | cons second held => simp [popAnswer, eq_comm]
  · have hroom : held.length + 1 ≠ size.toNat := hfull
    rw [pushed_of_room hfull]
    simp [popAnswer, hroom]

/-- The condition where the pop is about to compute the flag. -/
theorem Represents.pop_three_iff (h : Represents size buffer (oldest :: held)) (byte : UInt8) :
    Serializable buffer byte (interruptedPop 3 buffer byte) ↔
      PopSafe size.toNat (oldest :: held) byte 3 := by
  rw [h.interruptedPop_three, h.shows.serializable_iff, PopSafe]
  by_cases hfull : (oldest :: held).length = size.toNat
  · rw [pushed_of_full hfull, ← hfull]
    cases held with
    | nil => simp [popAnswer]
    | cons second held => simp [popAnswer]
  · have hroom : held.length + 1 ≠ size.toNat := hfull
    rw [pushed_of_room hfull]
    cases held with
    | nil =>
        have hmore : size.toNat ≠ 1 := hroom.symm
        simp [popAnswer, hmore]
    | cons second held =>
        rw [List.length_cons] at hroom
        simp [popAnswer, hroom]

/-- **A PUSH INSIDE A POP** is one of the two orders exactly under the condition. -/
theorem Represents.pop_serializable_iff (h : Represents size buffer held) (byte : UInt8)
    (k : Nat) : Serializable buffer byte (interruptedPop k buffer byte) ↔
      PopSafe size.toNat held byte k := by
  have hpos := h.size_pos
  cases held with
  | nil =>
      -- nothing is read after the count
      have hne : ([] : List UInt8).length ≠ size.toNat := Nat.ne_of_lt hpos
      have hsafe : PopSafe size.toNat [] byte k := by
        match k with
        | 2 => exact fun hfull => absurd hfull hne
        | 3 => exact fun hlength => absurd (hlength.resolve_left (by decide)) hne
        | 0 | 1 | _ + 4 => exact trivial
      cases k with
      | zero => exact iff_of_true (.inl (interruptedPop_zero buffer byte)) hsafe
      | succ k => exact iff_of_true (.inr (h.shows.interruptedPop_empty k byte)) hsafe
  | cons oldest held =>
      match k with
      | 0 => exact iff_of_true (.inl (interruptedPop_zero buffer byte)) trivial
      | 1 => exact iff_of_true (.inl (h.shows.interruptedPop_one byte)) trivial
      | 2 => exact h.shows.pop_two_iff byte
      | 3 => exact h.pop_three_iff byte
      | 4 => exact iff_of_true (.inr (h.shows.interruptedPop_four byte)) trivial
      | k + 5 => exact iff_of_true (.inr (h.shows.interruptedPop_return k byte)) trivial

end InterruptedPop

/-! ## A pop inside a push -/

section InterruptedPush

variable {size : SizeT w} {buffer buffer' : CircularBuffer w} {held : List UInt8} {byte : UInt8}
  {answer : ErrorCode × Option UInt8}

/-- Before the first statement, or after the return. -/
theorem Shows.interruptedPush_zero (h : Shows size buffer held) (byte : UInt8) :
    interruptedPush 0 buffer byte = popThenPush buffer byte := by
  obtain ⟨buffer₁, hpop, -⟩ := h.popCall_eq
  rw [interruptedPush, interrupted_zero hpop, exec_pushByteBody, popThenPush_of_pop hpop,
    Option.map_map]
  rfl

theorem Shows.maxSize_ne_zero (h : Shows size buffer held) : ¬ buffer.bufferMaxSize = 0 := by
  rw [h.maxSize, ← SizeT.toNat_eq_zero]
  exact Nat.ne_of_gt h.size_pos

/-- After the check of the size, which no pop changes. -/
theorem Shows.interruptedPush_one (h : Shows size buffer held) (byte : UInt8) :
    interruptedPush 1 buffer byte = popThenPush buffer byte := by
  obtain ⟨buffer₁, hpop, h₁, -⟩ := h.popCall_eq
  have hrest : exec (pushByteBody byte).tail false buffer₁ = pushCall byte buffer₁ := by
    rw [← exec_pushByteBody]
    simp only [pushByteBody, exec, if_neg h₁.maxSize_ne_zero, List.tail_cons]
  have hcheck : interrupted popCall 1 (pushByteBody byte) false buffer
      = interrupted popCall 0 (pushByteBody byte).tail false buffer := by
    simp only [pushByteBody, interrupted, if_neg h.maxSize_ne_zero, List.tail_cons]
  rw [interruptedPush, hcheck, interrupted_zero hpop, hrest, popThenPush_of_pop hpop,
    Option.map_map]
  rfl

/-- After the store. -/
theorem Shows.interruptedPush_stored (h : Shows size buffer held) (k : Nat) (byte : UInt8) :
    interruptedPush (k + 2) buffer byte
      = (interrupted popCall k pushByteRest false (storeByte buffer byte)).map
          fun (pushed, popped, buffer') => (popped, pushed, contents buffer') := by
  have hstore : buffer.buffer.store buffer.writeIndex.toNat byte
      = some (storeByte buffer byte).buffer :=
    Block.store_of_lt (by rw [h.block]; exact h.write_lt) byte
  rw [interruptedPush, pushByteBody]
  simp only [interrupted, if_neg h.maxSize_ne_zero, hstore, Option.map_some]
  rfl

/-- The bytes held once the new one is stored. -/
def storedBytes (size : SizeT w) (held : List UInt8) (byte : UInt8) : List UInt8 :=
  if held.length = size.toNat then byte :: held.tail else held

theorem Shows.stored_shows (h : Shows size buffer held) (byte : UInt8) :
    Shows size (storeByte buffer byte) (storedBytes size held byte) := by
  rw [storedBytes]
  by_cases hfull : held.length = size.toNat
  · rw [if_pos hfull]
    obtain ⟨oldest, held, rfl⟩ := h.oldest_of_full hfull
    exact h.stored_full hfull byte
  · rw [if_neg hfull]
    exact h.stored hfull byte

/-- A pop in a state with the new byte in the cell of the write index: the last two
    statements of the push take it in. -/
theorem Shows.pop_then_append (h : Shows size buffer held)
    (hcell : buffer.buffer.cell buffer.writeIndex.toNat = byte) :
    ∃ buffer', popCall buffer = some (popAnswer held, buffer') ∧
      Shows size buffer' held.tail ∧
      Represents size (clearEmpty (advanceWrite buffer')) (held.tail ++ [byte]) := by
  obtain ⟨buffer', hpop, h', hblock, hwrite, -⟩ := h.popCall_eq
  refine ⟨buffer', hpop, h', h'.append h.tail_room ?_⟩
  rw [hblock, hwrite, hcell]

/-- The condition of the `if` is that the buffer is full. -/
theorem Shows.condition_eq (h : Shows size buffer held) :
    decide (buffer.writeIndex = buffer.readIndex ∧ buffer.bufferIsEmpty = false)
      = decide (held.length = size.toNat) := by
  rw [decide_eq_decide]
  exact h.full_iff

/-- The store leaves the condition as it is. -/
theorem Shows.condition_storeByte (h : Shows size buffer held) (byte : UInt8) :
    decide ((storeByte buffer byte).writeIndex = (storeByte buffer byte).readIndex ∧
      (storeByte buffer byte).bufferIsEmpty = false) = decide (held.length = size.toNat) :=
  h.condition_eq

/-- After the store, the pop finds the new byte in place of the oldest of a full
    buffer, and the condition finds no full buffer any more. -/
theorem Shows.interruptedPush_two (h : Shows size buffer held) (byte : UInt8) :
    interruptedPush 2 buffer byte = some (popAnswer (storedBytes size held byte), .errNone,
      (storedBytes size held byte).tail ++ [byte]) := by
  have hstored := h.stored_shows byte
  obtain ⟨buffer₁, hpop, h₁, happended⟩ := hstored.pop_then_append (cell_storeByte buffer byte)
  have hcondition := h₁.condition_eq
  rw [decide_eq_false hstored.tail_room] at hcondition
  rw [h.interruptedPush_stored 0, interrupted_zero hpop, ← happended.shows.contents_eq]
  simp only [pushByteRest, exec, hcondition, Option.map_some]
  rfl

/-- In a buffer of one cell the indices do not move. -/
theorem Shows.advanceRead_of_one (h : Shows size buffer held) (hone : size.toNat = 1) :
    advanceRead buffer = buffer := by
  have hread := h.read_lt
  have hnext : (buffer.readIndex + 1) % buffer.bufferMaxSize = buffer.readIndex := by
    apply BitVec.eq_of_toNat_eq
    refine h.next_read.trans ?_
    rw [hone, Nat.mod_one]
    omega
  rw [advanceRead, hnext]

theorem Shows.advanceWrite_of_one (h : Shows size buffer held) (hone : size.toNat = 1) :
    advanceWrite buffer = buffer := by
  have hwrite := h.write_lt
  have hnext : (buffer.writeIndex + 1) % buffer.bufferMaxSize = buffer.writeIndex := by
    apply BitVec.eq_of_toNat_eq
    refine h.next_write.trans ?_
    rw [hone, Nat.mod_one]
    omega
  rw [advanceWrite, hnext]

/-- After the condition, a push into a full buffer drops a byte for the second time. -/
theorem Shows.interruptedPush_three (h : Shows size buffer held) (byte : UInt8) :
    interruptedPush 3 buffer byte = some (popAnswer (storedBytes size held byte), .errNone,
      (if held.length = size.toNat then held.tail.tail else held.tail) ++ [byte]) := by
  have hstored := h.stored_shows byte
  obtain ⟨buffer₁, hpop, h₁, happended⟩ := hstored.pop_then_append (cell_storeByte buffer byte)
  rw [h.interruptedPush_stored 1]
  simp only [pushByteRest, interrupted, h.condition_storeByte, hpop, Option.bind_eq_bind,
    Option.bind_some, exec, Option.map_some]
  congr 3
  by_cases hfull : held.length = size.toNat
  · rw [if_pos (decide_eq_true hfull), if_pos hfull]
    rw [storedBytes, if_pos hfull, List.tail_cons] at h₁ happended
    cases hrest : held.tail with
    | nil =>
        have hone : size.toNat = 1 := by
          by_contra hmore
          exact h.tail_ne_nil hfull hmore hrest
        rw [h₁.advanceRead_of_one hone, happended.shows.contents_eq, hrest]
        rfl
    | cons second rest =>
        rw [hrest] at happended
        -- the two assignments of different indices commute
        exact (happended.shows.readAdvanced fun _ => by simp).contents_eq
  · rw [if_neg (by simpa using hfull), if_neg hfull, happended.shows.contents_eq, storedBytes,
      if_neg hfull]

/-- The state after the statement under the `if`. -/
def movedRead (size : SizeT w) (buffer : CircularBuffer w) (held : List UInt8) (byte : UInt8) :
    CircularBuffer w :=
  if held.length = size.toNat then advanceRead (storeByte buffer byte) else storeByte buffer byte

/-- The bytes held once room is made: in a buffer of one cell the new byte itself
    is where the next one is read. -/
def movedBytes (size : SizeT w) (held : List UInt8) (byte : UInt8) : List UInt8 :=
  if size.toNat = 1 then storedBytes size held byte
  else if held.length = size.toNat then held.tail else held

theorem Shows.movedRead_of_one (h : Shows size buffer held) (byte : UInt8)
    (hone : size.toNat = 1) : movedRead size buffer held byte = storeByte buffer byte := by
  rw [movedRead, (h.stored_shows byte).advanceRead_of_one hone, ite_self]

theorem Shows.moved (h : Shows size buffer held) (byte : UInt8) :
    Shows size (movedRead size buffer held byte) (movedBytes size held byte) := by
  by_cases hone : size.toNat = 1
  · rw [h.movedRead_of_one byte hone, movedBytes, if_pos hone]
    exact h.stored_shows byte
  · have hstored := h.stored_shows byte
    rw [movedRead, movedBytes, if_neg hone]
    by_cases hfull : held.length = size.toNat
    · rw [storedBytes, if_pos hfull] at hstored
      rw [if_pos hfull, if_pos hfull]
      exact hstored.readAdvanced fun _ => h.tail_ne_nil hfull hone
    · rw [storedBytes, if_neg hfull] at hstored
      rw [if_neg hfull, if_neg hfull]
      exact hstored

theorem cell_movedRead (size : SizeT w) (buffer : CircularBuffer w) (held : List UInt8)
    (byte : UInt8) : (movedRead size buffer held byte).buffer.cell
      (movedRead size buffer held byte).writeIndex.toNat = byte := by
  rw [movedRead]
  by_cases hfull : held.length = size.toNat
  · rw [if_pos hfull]
    exact cell_storeByte buffer byte
  · rw [if_neg hfull]
    exact cell_storeByte buffer byte

/-- After the statement under the `if`. -/
theorem Shows.interruptedPush_moved (h : Shows size buffer held) (k : Nat) (byte : UInt8) :
    interruptedPush (k + 4) buffer byte
      = (interrupted popCall k (pushByteRest.drop 2) (decide (held.length = size.toNat))
          (movedRead size buffer held byte)).map
          fun (pushed, popped, buffer') => (popped, pushed, contents buffer') := by
  rw [h.interruptedPush_stored (k + 2)]
  simp only [pushByteRest, interrupted, h.condition_storeByte, decide_eq_true_eq,
    List.drop_succ_cons, List.drop_zero]
  rfl

/-- Once there is room, the pop finds the bytes held without the one dropped. -/
theorem Shows.interruptedPush_four (h : Shows size buffer held) (byte : UInt8) :
    interruptedPush 4 buffer byte = some (popAnswer (movedBytes size held byte), .errNone,
      (movedBytes size held byte).tail ++ [byte]) := by
  obtain ⟨buffer₁, hpop, -, happended⟩ :=
    (h.moved byte).pop_then_append (cell_movedRead size buffer held byte)
  rw [h.interruptedPush_moved 0, interrupted_zero hpop, ← happended.shows.contents_eq]
  rfl

/-- After the write index has moved, the flag is cleared whatever the pop leaves. -/
theorem Shows.interruptedPush_five (h : Shows size buffer held)
    (hpop : popCall (advanceWrite (movedRead size buffer held byte)) = some (answer, buffer')) :
    interruptedPush 5 buffer byte = some (answer, .errNone, contents (clearEmpty buffer')) := by
  rw [h.interruptedPush_moved 1]
  simp only [pushByteRest, List.drop_succ_cons, List.drop_zero, interrupted, hpop,
    Option.bind_eq_bind, Option.bind_some, exec, Option.map_some]

/-- In a buffer of one cell the write index has not moved. -/
theorem Shows.interruptedPush_five_of_one (h : Shows size buffer held) (byte : UInt8)
    (hone : size.toNat = 1) :
    interruptedPush 5 buffer byte = some (popAnswer (movedBytes size held byte), .errNone,
      (movedBytes size held byte).tail ++ [byte]) := by
  have hmoved := h.moved byte
  obtain ⟨buffer₁, hpop, h₁, happended⟩ :=
    hmoved.pop_then_append (cell_movedRead size buffer held byte)
  rw [h₁.advanceWrite_of_one hone] at happended
  rw [← hmoved.advanceWrite_of_one hone] at hpop
  rw [h.interruptedPush_five hpop, happended.shows.contents_eq]

/-- In a larger one, the byte is in the buffer, also where the flag says empty. -/
theorem Represents.written (h : Represents size buffer held) (byte : UInt8)
    (hmore : size.toNat ≠ 1) :
    Shows size (advanceWrite (movedRead size buffer held byte))
      (movedBytes size held byte ++ [byte]) := by
  have hpos := h.size_pos
  have hlen := h.length_le
  have hflag : (movedRead size buffer held byte).bufferIsEmpty = buffer.bufferIsEmpty := by
    rw [movedRead]
    by_cases hfull : held.length = size.toNat
    · rw [if_pos hfull]
      rfl
    · rw [if_neg hfull]
      rfl
  refine (h.shows.moved byte).writeAdvanced ?_ (cell_movedRead size buffer held byte) ?_
  · rw [movedBytes, if_neg hmore]
    by_cases hfull : held.length = size.toNat
    · rw [if_pos hfull]
      exact h.shows.tail_room
    · rw [if_neg hfull]
      exact hfull
  · intro htrue
    rw [hflag] at htrue
    obtain rfl := h.empty.mp htrue
    have hroom : ([] : List UInt8).length ≠ size.toNat := Nat.ne_of_lt hpos
    rw [movedBytes, if_neg hmore, if_neg hroom]
    exact fun hone => hmore hone.symm

/-- A push into a larger buffer drops no last byte. -/
theorem Shows.movedBytes_ne_nil (h : Shows size buffer held) (byte : UInt8)
    (hmore : size.toNat ≠ 1) (hne : held ≠ []) : movedBytes size held byte ≠ [] := by
  rw [movedBytes, if_neg hmore]
  by_cases hfull : held.length = size.toNat
  · rw [if_pos hfull]
    exact h.tail_ne_nil hfull hmore
  · rw [if_neg hfull]
    exact hne

/-- With a byte left by the pop, the flag is clear already. -/
theorem Represents.interruptedPush_five_of_bytes (h : Represents size buffer held) (byte : UInt8)
    (hmore : size.toNat ≠ 1) (hne : movedBytes size held byte ≠ []) :
    interruptedPush 5 buffer byte = some (popAnswer (movedBytes size held byte), .errNone,
      (movedBytes size held byte).tail ++ [byte]) := by
  have hwritten := h.written byte hmore
  obtain ⟨oldest, rest, hmoved⟩ := List.exists_cons_of_ne_nil hne
  rw [hmoved] at hwritten ⊢
  obtain ⟨buffer₁, hpop, h₁, -⟩ := hwritten.popCall_eq
  rw [h.shows.interruptedPush_five hpop, (h₁.emptyCleared (by simp)).shows.contents_eq]
  rfl

/-- Without one, the flag is cleared on an empty buffer. -/
theorem Represents.interruptedPush_five_of_empty (h : Represents size buffer []) (byte : UInt8)
    (hmore : size.toNat ≠ 1) :
    ∃ ring, ring.length = size.toNat ∧
      interruptedPush 5 buffer byte = some (popAnswer [byte], .errNone, ring) := by
  have hwritten := h.written byte hmore
  have hroom : ([] : List UInt8).length ≠ size.toNat := Nat.ne_of_lt h.size_pos
  rw [movedBytes, if_neg hmore, if_neg hroom] at hwritten
  obtain ⟨buffer₁, hpop, -, -, -, hrepresents⟩ := hwritten.popCall_eq
  have h₁ : Represents size buffer₁ [] := hrepresents (List.cons_ne_nil _ _)
  exact ⟨_, h₁.length_contents_clearEmpty, h.shows.interruptedPush_five hpop⟩

/-- After the last assignment, the push is complete. -/
theorem Shows.interruptedPush_six (h : Shows size buffer held) (byte : UInt8) :
    interruptedPush 6 buffer byte = pushThenPop buffer byte := by
  have hpush := h.push_eq byte
  rw [← movedRead] at hpush
  rw [h.interruptedPush_moved 2, pushThenPop_of_push hpush]
  simp only [pushByteRest, List.drop_succ_cons, List.drop_zero, interrupted, exec]
  cases popCall (clearEmpty (advanceWrite (movedRead size buffer held byte))) with
  | none => rfl
  | some p => rfl

/-- After the return. -/
theorem Shows.interruptedPush_return (h : Shows size buffer held) (k : Nat) (byte : UInt8) :
    interruptedPush (k + 7) buffer byte = pushThenPop buffer byte := by
  obtain ⟨buffer₁, hpush, -⟩ := h.push byte
  have hexec : exec (pushByteBody byte) false buffer = some (.errNone, buffer₁) := by
    rw [exec_pushByteBody, pushCall, hpush]
  rw [interruptedPush, interrupted_of_length_le (Nat.le_add_left 7 k) hexec,
    pushThenPop_of_push hpush, Option.map_map]
  rfl

/-- The condition where the pop comes after the statement under the `if`: only the
    one cell of a full buffer is still read. -/
theorem Shows.moved_serial_iff (h : Shows size buffer held) (byte : UInt8) :
    Serializable buffer byte (some (popAnswer (movedBytes size held byte), .errNone,
        (movedBytes size held byte).tail ++ [byte])) ↔
      (size.toNat = 1 → held.length = size.toNat → held.head? = some byte) := by
  rw [h.serializable_iff, movedBytes, storedBytes]
  by_cases hfull : held.length = size.toNat
  · obtain ⟨oldest, held, rfl⟩ := h.oldest_of_full hfull
    rw [pushed_of_full hfull, if_pos hfull, if_pos hfull, ← hfull]
    cases held with
    | nil => simp [popAnswer, eq_comm]
    | cons second held => simp [popAnswer]
  · rw [if_neg hfull, if_neg hfull, ite_self]
    simp [hfull]

/-- The condition where the pop finds the new byte in place of the oldest. -/
theorem Shows.push_two_iff (h : Shows size buffer held) (byte : UInt8) :
    Serializable buffer byte (interruptedPush 2 buffer byte) ↔
      PushSafe size.toNat held byte 2 := by
  rw [h.interruptedPush_two, h.serializable_iff, PushSafe, storedBytes]
  by_cases hfull : held.length = size.toNat
  · obtain ⟨oldest, held, rfl⟩ := h.oldest_of_full hfull
    rw [pushed_of_full hfull, if_pos hfull]
    cases held with
    | nil => simp [popAnswer, ← hfull, eq_comm]
    | cons second held => simp [popAnswer, ← hfull, eq_comm]
  · rw [if_neg hfull]
    simp [hfull]

/-- The condition where the push drops a byte after the pop has. -/
theorem Shows.push_three_iff (h : Shows size buffer held) (byte : UInt8) :
    Serializable buffer byte (interruptedPush 3 buffer byte) ↔
      PushSafe size.toNat held byte 3 := by
  rw [h.interruptedPush_three, h.serializable_iff, PushSafe, storedBytes]
  by_cases hfull : held.length = size.toNat
  · obtain ⟨oldest, held, rfl⟩ := h.oldest_of_full hfull
    rw [pushed_of_full hfull, if_pos hfull, if_pos hfull]
    cases held with
    | nil => simp [popAnswer, ← hfull, eq_comm]
    | cons second held => simp [popAnswer, ← hfull, eq_comm]
  · rw [if_neg hfull, if_neg hfull]
    simp [hfull]

/-- The condition where the push is about to clear the flag. -/
theorem Represents.push_five_iff (h : Represents size buffer held) (byte : UInt8) :
    Serializable buffer byte (interruptedPush 5 buffer byte) ↔
      PushSafe size.toNat held byte 5 := by
  rw [PushSafe]
  by_cases hone : size.toNat = 1
  · rw [h.shows.interruptedPush_five_of_one byte hone, h.shows.moved_serial_iff]
    exact (and_iff_right fun _ => hone).symm
  · by_cases hnil : held = []
    · subst hnil
      have hroom : ([] : List UInt8).length ≠ size.toNat := Nat.ne_of_lt h.size_pos
      obtain ⟨ring, hlength, hfive⟩ := h.interruptedPush_five_of_empty byte hone
      rw [hfive, h.shows.serializable_iff]
      refine iff_of_false ?_ fun hsafe => hone (hsafe.1 rfl)
      rintro (heq | heq)
      · -- the order leaves no byte, and the clear flag shows all cells
        have hring : ring = (pushed size [] byte).tail := congrArg (fun o => o.2.2) heq
        rw [pushed_of_room hroom] at hring
        rw [hring, List.nil_append, List.tail_cons] at hlength
        exact hroom hlength
      · exact nomatch heq
    · have hne := h.shows.movedBytes_ne_nil byte hone hnil
      rw [h.interruptedPush_five_of_bytes byte hone hne, h.shows.moved_serial_iff]
      exact (and_iff_right fun h => absurd h hnil).symm

/-- **A POP INSIDE A PUSH** is one of the two orders exactly under the condition. -/
theorem Represents.push_serializable_iff (h : Represents size buffer held) (byte : UInt8)
    (k : Nat) : Serializable buffer byte (interruptedPush k buffer byte) ↔
      PushSafe size.toNat held byte k := by
  match k with
  | 0 => exact iff_of_true (.inr (h.shows.interruptedPush_zero byte)) trivial
  | 1 => exact iff_of_true (.inr (h.shows.interruptedPush_one byte)) trivial
  | 2 => exact h.shows.push_two_iff byte
  | 3 => exact h.shows.push_three_iff byte
  | 4 =>
      rw [h.shows.interruptedPush_four]
      exact h.shows.moved_serial_iff byte
  | 5 => exact h.push_five_iff byte
  | 6 => exact iff_of_true (.inl (h.shows.interruptedPush_six byte)) trivial
  | k + 7 => exact iff_of_true (.inl (h.shows.interruptedPush_return k byte)) trivial

end InterruptedPush

/-- **INTERRUPTS**: after any run from init, whatever the size, a push after `k`
    statements of a pop, and a pop after `k` statements of a push, have the effect
    of one of the two orders exactly under their conditions on the contents. -/
theorem circular_buffer_interrupt_iff (buffer : CircularBuffer w) {config : CircularBufferConfig w}
    (hblock : config.buffer.size = config.bufferSize.toNat)
    (hsize : 1 ≤ config.bufferSize.toNat) :
    ∃ buffer₀, circularBufferInit buffer config = (.errNone, buffer₀) ∧
      ∀ ops, ∃ responses buffer', run circularBufferStep buffer₀ ops = some (responses, buffer') ∧
        ∀ byte k,
          (Serializable buffer' byte (interruptedPop k buffer' byte) ↔
            PopSafe config.bufferSize.toNat (contents buffer') byte k) ∧
          (Serializable buffer' byte (interruptedPush k buffer' byte) ↔
            PushSafe config.bufferSize.toNat (contents buffer') byte k) := by
  obtain ⟨buffer₀, hinit, h₀⟩ := init_represents buffer hblock hsize
  refine ⟨buffer₀, hinit, ?_⟩
  intro ops
  obtain ⟨buffer', hrun, h⟩ :=
    run_refines (represents_simulates config.bufferSize) ops buffer₀ [] h₀
  refine ⟨_, buffer', hrun, ?_⟩
  intro byte k
  rw [h.shows.contents_eq]
  exact ⟨h.pop_serializable_iff byte k, h.push_serializable_iff byte k⟩

/-- Two bytes of storage. -/
def twoByteRing : CircularBufferConfig 8 where
  buffer := ⟨2, fun _ => 0⟩
  bufferSize := 2

/-- The buffer over them after init. -/
def twoByteBuffer : CircularBuffer 8 := ⟨twoByteRing.buffer, 2, 0, 0, true⟩

/-- The condition for the empty buffer, with the pop after the write index has moved. -/
theorem circular_buffer_interrupt_iff_two_bytes :
    Serializable twoByteBuffer 7 (interruptedPush 5 twoByteBuffer 7) ↔
      PushSafe 2 (contents twoByteBuffer) 7 5 := by
  obtain ⟨buffer₀, hinit, hruns⟩ := circular_buffer_interrupt_iff twoByteBuffer
    (rfl : twoByteRing.buffer.size = twoByteRing.bufferSize.toNat) (by decide)
  obtain ⟨responses, buffer', hrun, hsafe⟩ := hruns []
  obtain ⟨-, rfl⟩ := Prod.mk.inj hinit
  obtain ⟨-, rfl⟩ := Prod.mk.inj (Option.some.inj hrun)
  exact (hsafe 7 5).2

/-- **A BYTE LOST**: a pop of the only byte, with a push of another before the flag
    is computed; the push finds no bytes and a clear flag, and the computed flag
    says that there are none. -/
theorem circular_buffer_loses_byte :
    ∃ buffer₁, run circularBufferStep twoByteBuffer [.pushByte 5]
        = some ([.pushed .errNone], buffer₁) ∧
      interruptedPop 3 buffer₁ 6 = some ((.errNone, some 5), .errNone, []) ∧
      ¬ Serializable buffer₁ 6 (interruptedPop 3 buffer₁ 6) := by
  refine ⟨_, rfl, by decide, ?_⟩
  rintro (horder | horder)
  · exact absurd horder (by decide)
  · exact absurd horder (by decide)

end CembCircularBuffer
