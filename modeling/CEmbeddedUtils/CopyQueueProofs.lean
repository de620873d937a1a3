import CEmbeddedUtils.ErrorCodes
import CEmbeddedUtils.MemoryProofs
import CEmbeddedUtils.SizeTProofs
import CEmbeddedUtils.TransducerProofs

/-! # The copy queue — a FIFO as long as it does not run off its buffer

    `copy_queue.c` copies elements of one size into a byte buffer.  Both byte
    offsets only ever grow: `tail_idx` by every enqueue, `head_idx` by every
    dequeue, and nothing brings them back to the start of the buffer.  So a
    queue that is never full still writes past its end once more elements have
    gone through it than the buffer holds.

    `EnqueueFits` says of a call, before it is made, that it does not: the
    queue is full, or the next element still ends inside the buffer.  A call
    that fits answers as a bounded FIFO does (`step_simulates`), and only a call
    that fits is defined (`fits_of_step`). -/

namespace CembCopyQueue

open Memory Transducer

variable {w : Nat}

/-- `CopyQueueConfig`. -/
structure CopyQueueConfig (w : Nat) where
  queueBuffer : Block UInt8
  queueSize : SizeT w
  elementCount : SizeT w
  elementSize : SizeT w

/-- `CopyQueue`; a `buffer` of `none` is `NULL`. -/
structure CopyQueue (w : Nat) where
  count : SizeT w
  maxSize : SizeT w
  elementSize : SizeT w
  buffer : Option (Block UInt8)
  tailIdx : SizeT w
  headIdx : SizeT w

/-! ## The source -/

def copyQueueValidateConfig (config : CopyQueueConfig w) : ErrorCode :=
  if config.elementSize = 0 then .errInvalidArg
  else if config.queueSize = 0 then .errInvalidArg
  else if config.elementCount = 0 then .errInvalidArg
  else if config.queueSize < config.elementCount * config.elementSize then .errInvalidArg
  else .errNone

def copyQueueInit (queue : CopyQueue w) (config : CopyQueueConfig w) :
    ErrorCode × CopyQueue w :=
  match copyQueueValidateConfig config with
  | .errNone =>
      (.errNone,
        { buffer := some config.queueBuffer
          elementSize := config.elementSize
          maxSize := config.elementCount
          count := 0
          tailIdx := 0
          headIdx := 0 })
  | ret => (ret, queue)

def copyQueueDeinit (_queue : CopyQueue w) : CopyQueue w where
  buffer := none
  elementSize := 0
  maxSize := 0
  count := 0
  tailIdx := 0
  headIdx := 0

def copyQueueGetRemaining (queue : CopyQueue w) : SizeT w := queue.maxSize - queue.count

def copyQueueGetSize (queue : CopyQueue w) : SizeT w := queue.count

/-- `memcpy` reads `element_size` bytes of the element; a shorter object is
    read past its end. -/
def copyQueueEnqueue (queue : CopyQueue w) (element : List UInt8) :
    Option (ErrorCode × CopyQueue w) :=
  if copyQueueGetRemaining queue = 0 then some (.errNoMem, queue)
  else if element.length < queue.elementSize.toNat then none
  else do
    let buffer ← queue.buffer
    let buffer ← buffer.copyIn queue.tailIdx.toNat (element.take queue.elementSize.toNat)
    some (.errNone, { queue with
      buffer := some buffer
      tailIdx := queue.tailIdx + queue.elementSize
      count := queue.count + 1 })

/-- The second component is what is copied to `element`, if anything. -/
def copyQueueDequeue (queue : CopyQueue w) :
    Option (ErrorCode × Option (List UInt8) × CopyQueue w) :=
  if copyQueueGetSize queue = 0 then some (.errEmpty, none, queue)
  else do
    let buffer ← queue.buffer
    let element ← buffer.copyOut queue.headIdx.toNat queue.elementSize.toNat
    some (.errNone, some element, { queue with
      headIdx := queue.headIdx + queue.elementSize
      count := queue.count - 1 })

def copyQueuePeek (queue : CopyQueue w) : Option (ErrorCode × Option (List UInt8)) :=
  if copyQueueGetSize queue = 0 then some (.errEmpty, none)
  else do
    let buffer ← queue.buffer
    let element ← buffer.copyOut queue.headIdx.toNat queue.elementSize.toNat
    some (.errNone, some element)

/-! ## The queue as a machine, and what it is for -/

/-- An object of `n` bytes. -/
abbrev Element (n : Nat) := { bytes : List UInt8 // bytes.length = n }

/-- The calls a client makes between init and deinit, on a queue of elements of
    `n` bytes. -/
inductive CopyQueueOp (n : Nat) where
  | enqueue (element : Element n)
  | dequeue
  | peek

/-- One call; the response is the code and the bytes handed out, if any. -/
def copyQueueStep {n : Nat} :
    Step (CopyQueue w) (CopyQueueOp n) (ErrorCode × Option (List UInt8))
  | queue, .enqueue element =>
      (copyQueueEnqueue queue element.val).map fun (code, queue') => ((code, none), queue')
  | queue, .dequeue =>
      (copyQueueDequeue queue).map fun (code, element, queue') => ((code, element), queue')
  | queue, .peek =>
      (copyQueuePeek queue).map fun (code, element) => ((code, element), queue)

/-- The purpose of the component: a first-in first-out queue of at most
    `capacity` elements. -/
def boundedFifo {n : Nat} (capacity : Nat) :
    Spec (List (Element n)) (CopyQueueOp n) (ErrorCode × Option (List UInt8))
  | held, .enqueue element =>
      if held.length = capacity then ((.errNoMem, none), held)
      else ((.errNone, none), held ++ [element])
  | [], .dequeue => ((.errEmpty, none), [])
  | oldest :: held, .dequeue => ((.errNone, some oldest.val), held)
  | [], .peek => ((.errEmpty, none), [])
  | oldest :: held, .peek => ((.errNone, some oldest.val), oldest :: held)

/-- The call does not copy past the end of a buffer of `queueSize` bytes: it is
    no enqueue, or the queue is full, or the element at the tail still ends in
    the buffer. -/
def EnqueueFits {n : Nat} (queueSize : Nat) (queue : CopyQueue w) : CopyQueueOp n → Prop
  | .enqueue _ => copyQueueGetRemaining queue ≠ 0 →
      queue.tailIdx.toNat + queue.elementSize.toNat ≤ queueSize
  | _ => True

/-! ## What a call can do -/

section Inversion

variable {queue queue' : CopyQueue w} {code : ErrorCode} {out : Option (List UInt8)}

/-- An enqueue is refused by a full queue and changes nothing, or it changes the
    bytes, the tail and the count. -/
theorem enqueue_eq_some {element : List UInt8}
    (h : copyQueueEnqueue queue element = some (code, queue')) :
    (copyQueueGetRemaining queue = 0 ∧ code = .errNoMem ∧ queue' = queue) ∨
    (copyQueueGetRemaining queue ≠ 0 ∧ code = .errNone ∧ ∃ buffer, queue' =
      { queue with
        buffer := some buffer
        tailIdx := queue.tailIdx + queue.elementSize
        count := queue.count + 1 }) := by
  rw [copyQueueEnqueue] at h
  by_cases hfull : copyQueueGetRemaining queue = 0
  · rw [if_pos hfull] at h
    obtain ⟨rfl, rfl⟩ := Prod.mk.inj (Option.some.inj h)
    exact Or.inl ⟨hfull, rfl, rfl⟩
  · rw [if_neg hfull] at h
    split at h
    · exact nomatch h
    · obtain ⟨_, -, h₁⟩ := Option.bind_eq_some_iff.mp h
      obtain ⟨buffer, -, h₂⟩ := Option.bind_eq_some_iff.mp h₁
      obtain ⟨rfl, rfl⟩ := Prod.mk.inj (Option.some.inj h₂)
      exact Or.inr ⟨hfull, rfl, buffer, rfl⟩

/-- A dequeue is refused by an empty queue, which changes nothing, or succeeds. -/
theorem dequeue_eq_some (h : copyQueueDequeue queue = some (code, out, queue')) :
    (code = .errEmpty ∧ out = none ∧ queue' = queue) ∨ code = .errNone := by
  rw [copyQueueDequeue] at h
  by_cases hempty : copyQueueGetSize queue = 0
  · rw [if_pos hempty] at h
    obtain ⟨rfl, hrest⟩ := Prod.mk.inj (Option.some.inj h)
    obtain ⟨rfl, rfl⟩ := Prod.mk.inj hrest
    exact Or.inl ⟨rfl, rfl, rfl⟩
  · rw [if_neg hempty] at h
    obtain ⟨_, -, h₁⟩ := Option.bind_eq_some_iff.mp h
    obtain ⟨_, -, h₂⟩ := Option.bind_eq_some_iff.mp h₁
    exact Or.inr (Prod.mk.inj (Option.some.inj h₂)).1.symm

/-- A peek is refused by an empty queue, or succeeds. -/
theorem peek_eq_some (h : copyQueuePeek queue = some (code, out)) :
    (code = .errEmpty ∧ out = none) ∨ code = .errNone := by
  rw [copyQueuePeek] at h
  by_cases hempty : copyQueueGetSize queue = 0
  · rw [if_pos hempty] at h
    obtain ⟨rfl, rfl⟩ := Prod.mk.inj (Option.some.inj h)
    exact Or.inl ⟨rfl, rfl⟩
  · rw [if_neg hempty] at h
    obtain ⟨_, -, h₁⟩ := Option.bind_eq_some_iff.mp h
    obtain ⟨_, -, h₂⟩ := Option.bind_eq_some_iff.mp h₁
    exact Or.inr (Prod.mk.inj (Option.some.inj h₂)).1.symm

/-- A call that is refused changes nothing and hands nothing out. -/
theorem step_refused {n : Nat} {op : CopyQueueOp n}
    (h : copyQueueStep queue op = some ((code, out), queue')) (hcode : code ≠ .errNone) :
    queue' = queue ∧ out = none := by
  cases op with
  | enqueue element =>
      obtain ⟨⟨code', queue₁⟩, henqueue, heq⟩ := Option.map_eq_some_iff.mp h
      obtain ⟨hanswer, rfl⟩ := Prod.mk.inj heq
      obtain ⟨rfl, rfl⟩ := Prod.mk.inj hanswer
      rcases enqueue_eq_some henqueue with ⟨-, -, hsame⟩ | ⟨-, hnone, -⟩
      · exact ⟨hsame, rfl⟩
      · exact absurd hnone hcode
  | dequeue =>
      obtain ⟨⟨code', out', queue₁⟩, hdequeue, heq⟩ := Option.map_eq_some_iff.mp h
      obtain ⟨hanswer, rfl⟩ := Prod.mk.inj heq
      obtain ⟨rfl, rfl⟩ := Prod.mk.inj hanswer
      rcases dequeue_eq_some hdequeue with ⟨-, hout, hsame⟩ | hnone
      · exact ⟨hsame, hout⟩
      · exact absurd hnone hcode
  | peek =>
      obtain ⟨⟨code', out'⟩, hpeek, heq⟩ := Option.map_eq_some_iff.mp h
      obtain ⟨hanswer, rfl⟩ := Prod.mk.inj heq
      obtain ⟨rfl, rfl⟩ := Prod.mk.inj hanswer
      rcases peek_eq_some hpeek with ⟨-, hout⟩ | hnone
      · exact ⟨rfl, hout⟩
      · exact absurd hnone hcode

end Inversion

/-! ## The simulation -/

/-- The bytes of a list of elements, one after the other. -/
def bytesOf {n : Nat} (held : List (Element n)) : List UInt8 :=
  (held.map Subtype.val).flatten

theorem length_bytesOf {n : Nat} (held : List (Element n)) :
    (bytesOf held).length = held.length * n := by
  induction held with
  | nil => simp [bytesOf]
  | cons x held ih =>
      have hx : x.val.length = n := x.property
      rw [bytesOf, List.map_cons, List.flatten_cons, List.length_append, hx,
        List.length_cons, Nat.succ_mul, Nat.add_comm]
      exact congrArg (· + n) ih

theorem bytesOf_append {n : Nat} (held : List (Element n)) (x : Element n) :
    bytesOf (held ++ [x]) = bytesOf held ++ x.val := by
  simp [bytesOf]

/-- The queue holds the elements `held`: between the two offsets lie their
    bytes, in order, and the tail has not left the buffer. -/
structure Holds (config : CopyQueueConfig w) (n : Nat) (queue : CopyQueue w)
    (held : List (Element n)) (buffer : Block UInt8) : Prop where
  maxSize : queue.maxSize = config.elementCount
  elementSize : queue.elementSize = config.elementSize
  buffer_eq : queue.buffer = some buffer
  size : buffer.size = config.queueSize.toNat
  count : queue.count.toNat = held.length
  count_le : held.length ≤ config.elementCount.toNat
  tail : queue.tailIdx.toNat = queue.headIdx.toNat + held.length * n
  tail_le : queue.tailIdx.toNat ≤ config.queueSize.toNat
  bytes : buffer.slice queue.headIdx.toNat (held.length * n) = bytesOf held

/-- The simulation relation. -/
def Simulated (config : CopyQueueConfig w) (n : Nat) (queue : CopyQueue w)
    (held : List (Element n)) : Prop :=
  ∃ buffer, Holds config n queue held buffer

section Simulation

variable {config : CopyQueueConfig w} {queue : CopyQueue w}
  {held : List (Element config.elementSize.toNat)} {buffer : Block UInt8}

/-- The free places are exactly counted: `max_size - count` does not wrap. -/
theorem Holds.remaining (h : Holds config config.elementSize.toNat queue held buffer) :
    copyQueueGetRemaining queue = 0 ↔ held.length = config.elementCount.toNat := by
  have hle : queue.count.toNat ≤ queue.maxSize.toNat := by
    rw [h.count, h.maxSize]
    exact h.count_le
  rw [copyQueueGetRemaining, ← SizeT.toNat_eq_zero, SizeT.toNat_sub_of_le hle, h.count,
    h.maxSize]
  have hcount := h.count_le
  omega

theorem Holds.empty_iff (h : Holds config config.elementSize.toNat queue held buffer) :
    copyQueueGetSize queue = 0 ↔ held = [] := by
  rw [copyQueueGetSize, ← SizeT.toNat_eq_zero, h.count, List.length_eq_zero_iff]

/-- An enqueue that fits appends the element behind the others. -/
theorem Holds.enqueue (h : Holds config config.elementSize.toNat queue held buffer)
    (x : Element config.elementSize.toNat)
    (hroom : held.length ≠ config.elementCount.toNat)
    (hfit : queue.tailIdx.toNat + queue.elementSize.toNat ≤ config.queueSize.toNat) :
    ∃ queue', copyQueueEnqueue queue x.val = some (.errNone, queue') ∧
      Holds config config.elementSize.toNat queue' (held ++ [x])
        (buffer.overwrite queue.tailIdx.toNat x.val) := by
  have hx : x.val.length = config.elementSize.toNat := x.property
  have hes : queue.elementSize.toNat = config.elementSize.toNat := by rw [h.elementSize]
  have hlt : held.length < config.elementCount.toNat :=
    Nat.lt_of_le_of_ne h.count_le hroom
  have hcountLt := config.elementCount.isLt
  have hsizeLt := config.queueSize.isLt
  have hone : (1 : SizeT w).toNat = 1 :=
    SizeT.toNat_one (SizeT.width_pos (a := queue.count) (b := config.elementCount)
      (by rw [h.count]; exact hlt))
  have hcopy : buffer.copyIn queue.tailIdx.toNat x.val
      = some (buffer.overwrite queue.tailIdx.toNat x.val) :=
    Block.copyIn_of_le (by rw [h.size, hx, ← hes]; exact hfit)
  have htake : x.val.take queue.elementSize.toNat = x.val :=
    List.take_of_length_le (by omega)
  have hlen : (held ++ [x]).length * config.elementSize.toNat
      = held.length * config.elementSize.toNat + x.val.length := by
    rw [List.length_append, List.length_singleton, Nat.add_mul, Nat.one_mul, hx]
  refine ⟨{ queue with
      buffer := some (buffer.overwrite queue.tailIdx.toNat x.val)
      tailIdx := queue.tailIdx + queue.elementSize
      count := queue.count + 1 },
    ?_, h.maxSize, h.elementSize, rfl, h.size, ?_, ?_, ?_, ?_, ?_⟩
  · rw [copyQueueEnqueue, if_neg (mt h.remaining.mp hroom), if_neg (by omega), htake]
    simp only [h.buffer_eq, hcopy, Option.bind_eq_bind, Option.bind_some]
  · show (queue.count + 1).toNat = (held ++ [x]).length
    rw [SizeT.toNat_add_of_lt (by rw [h.count, hone]; omega), h.count, hone,
      List.length_append, List.length_singleton]
  · rw [List.length_append, List.length_singleton]
    exact hlt
  · show (queue.tailIdx + queue.elementSize).toNat
      = queue.headIdx.toNat + (held ++ [x]).length * config.elementSize.toNat
    rw [SizeT.toNat_add_of_lt (by omega), hlen, hx, h.tail, hes]
    omega
  · show (queue.tailIdx + queue.elementSize).toNat ≤ config.queueSize.toNat
    rw [SizeT.toNat_add_of_lt (by omega)]
    exact hfit
  · show (buffer.overwrite queue.tailIdx.toNat x.val).slice queue.headIdx.toNat
        ((held ++ [x]).length * config.elementSize.toNat) = bytesOf (held ++ [x])
    rw [hlen, Block.slice_add, ← h.tail, Block.slice_overwrite_same,
      Block.slice_overwrite_disjoint _ _ (Or.inl (by rw [h.tail])), h.bytes, bytesOf_append]

/-- What lies at the head is the oldest element. -/
theorem Holds.head {x : Element config.elementSize.toNat}
    (h : Holds config config.elementSize.toNat queue (x :: held) buffer) :
    buffer.copyOut queue.headIdx.toNat queue.elementSize.toNat = some x.val ∧
      buffer.slice (queue.headIdx.toNat + config.elementSize.toNat)
        (held.length * config.elementSize.toNat) = bytesOf held := by
  have hx : x.val.length = config.elementSize.toNat := x.property
  have hbytes : buffer.slice queue.headIdx.toNat config.elementSize.toNat
      ++ buffer.slice (queue.headIdx.toNat + config.elementSize.toNat)
        (held.length * config.elementSize.toNat) = x.val ++ bytesOf held := by
    rw [← Block.slice_add]
    have hall := h.bytes
    rw [List.length_cons, Nat.succ_mul, Nat.add_comm] at hall
    exact hall
  -- the first `element_size` bytes are the element, the rest those behind it
  obtain ⟨hfirst, hrest⟩ := List.append_inj hbytes (by rw [Block.length_slice, hx])
  have htail := h.tail
  have htail_le := h.tail_le
  rw [List.length_cons, Nat.succ_mul] at htail
  have hin : queue.headIdx.toNat + config.elementSize.toNat ≤ buffer.size := by
    rw [h.size]
    omega
  rw [h.elementSize, Block.copyOut_of_le hin, hfirst]
  exact ⟨rfl, hrest⟩

/-- A dequeue hands out the oldest element and moves the head past it. -/
theorem Holds.dequeue {x : Element config.elementSize.toNat}
    (h : Holds config config.elementSize.toNat queue (x :: held) buffer) :
    ∃ queue', copyQueueDequeue queue = some (.errNone, some x.val, queue') ∧
      Holds config config.elementSize.toNat queue' held buffer := by
  obtain ⟨hout, hrest⟩ := h.head
  have hes : queue.elementSize.toNat = config.elementSize.toNat := by rw [h.elementSize]
  have htail := h.tail
  have htail_le := h.tail_le
  rw [List.length_cons, Nat.succ_mul] at htail
  have hcount := h.count
  have hcount_le := h.count_le
  rw [List.length_cons] at hcount hcount_le
  have hsizeLt := config.queueSize.isLt
  have hone : (1 : SizeT w).toNat = 1 :=
    SizeT.toNat_one (SizeT.width_pos (a := (0 : SizeT w)) (b := queue.count) (by simp [hcount]))
  have hne : ¬ copyQueueGetSize queue = 0 := mt h.empty_iff.mp (List.cons_ne_nil _ _)
  have hhead : (queue.headIdx + queue.elementSize).toNat
      = queue.headIdx.toNat + config.elementSize.toNat := by
    rw [SizeT.toNat_add_of_lt (by omega), hes]
  refine ⟨{ queue with
      buffer := some buffer
      headIdx := queue.headIdx + queue.elementSize
      count := queue.count - 1 },
    ?_, h.maxSize, h.elementSize, rfl, h.size, ?_, ?_, ?_, h.tail_le, ?_⟩
  · rw [copyQueueDequeue, if_neg hne]
    simp only [h.buffer_eq, hout, Option.bind_eq_bind, Option.bind_some]
  · show (queue.count - 1).toNat = held.length
    rw [SizeT.toNat_sub_of_le (by rw [hone, hcount]; omega), hone, hcount]
    omega
  · omega
  · show queue.tailIdx.toNat = (queue.headIdx + queue.elementSize).toNat
      + held.length * config.elementSize.toNat
    rw [hhead, htail]
    omega
  · show buffer.slice (queue.headIdx + queue.elementSize).toNat _ = _
    rw [hhead]
    exact hrest

/-- A peek shows the oldest element. -/
theorem Holds.peek {x : Element config.elementSize.toNat}
    (h : Holds config config.elementSize.toNat queue (x :: held) buffer) :
    copyQueuePeek queue = some (.errNone, some x.val) := by
  have hne : ¬ copyQueueGetSize queue = 0 := mt h.empty_iff.mp (List.cons_ne_nil _ _)
  rw [copyQueuePeek, if_neg hne]
  simp only [h.buffer_eq, h.head.1, Option.bind_eq_bind, Option.bind_some]

end Simulation

/-- **ONE CALL THAT FITS** answers as the bounded FIFO does. -/
theorem step_simulates {config : CopyQueueConfig w} (queue : CopyQueue w)
    (held : List (Element config.elementSize.toNat))
    (op : CopyQueueOp config.elementSize.toNat)
    (h : Simulated config config.elementSize.toNat queue held)
    (hfit : EnqueueFits config.queueSize.toNat queue op) :
    ∃ queue', copyQueueStep queue op
        = some ((boundedFifo config.elementCount.toNat held op).1, queue') ∧
      Simulated config config.elementSize.toNat queue'
        (boundedFifo config.elementCount.toNat held op).2 := by
  obtain ⟨buffer, h⟩ := h
  cases op with
  | enqueue x =>
      by_cases hfull : held.length = config.elementCount.toNat
      · refine ⟨queue, ?_, ?_⟩
        · rw [copyQueueStep, copyQueueEnqueue, if_pos (h.remaining.mpr hfull), boundedFifo,
            if_pos hfull]
          rfl
        · rw [boundedFifo, if_pos hfull]
          exact ⟨buffer, h⟩
      · obtain ⟨queue', henq, h'⟩ := h.enqueue x hfull (hfit (mt h.remaining.mp hfull))
        refine ⟨queue', ?_, ?_⟩
        · rw [copyQueueStep, henq, boundedFifo, if_neg hfull]
          rfl
        · rw [boundedFifo, if_neg hfull]
          exact ⟨_, h'⟩
  | dequeue =>
      cases held with
      | nil =>
          refine ⟨queue, ?_, buffer, h⟩
          rw [copyQueueStep, copyQueueDequeue, if_pos (h.empty_iff.mpr rfl)]
          rfl
      | cons x held =>
          obtain ⟨queue', hdeq, h'⟩ := h.dequeue
          refine ⟨queue', ?_, buffer, h'⟩
          rw [copyQueueStep, hdeq]
          rfl
  | peek =>
      cases held with
      | nil =>
          refine ⟨queue, ?_, buffer, h⟩
          rw [copyQueueStep, copyQueuePeek, if_pos (h.empty_iff.mpr rfl)]
          rfl
      | cons x held =>
          refine ⟨queue, ?_, buffer, h⟩
          rw [copyQueueStep, h.peek]
          rfl

/-- A defined call fits: an enqueue past the end of the buffer is undefined. -/
theorem fits_of_step {config : CopyQueueConfig w} {queue queue' : CopyQueue w}
    {held : List (Element config.elementSize.toNat)}
    {op : CopyQueueOp config.elementSize.toNat} {r : ErrorCode × Option (List UInt8)}
    (h : Simulated config config.elementSize.toNat queue held)
    (hstep : copyQueueStep queue op = some (r, queue')) :
    EnqueueFits config.queueSize.toNat queue op := by
  obtain ⟨buffer, h⟩ := h
  cases op with
  | dequeue => exact trivial
  | peek => exact trivial
  | enqueue x =>
      intro hroom
      have hx : x.val.length = queue.elementSize.toNat := by
        rw [h.elementSize]
        exact x.property
      by_contra hover
      -- the source does not compare `tail_idx` with the end of the buffer
      have hnone : buffer.copyIn queue.tailIdx.toNat x.val = none :=
        Block.copyIn_eq_none (by rw [h.size, hx]; omega)
      have hundef : copyQueueEnqueue queue x.val = none := by
        rw [copyQueueEnqueue, if_neg hroom, if_neg (by omega),
          List.take_of_length_le (by omega), h.buffer_eq]
        simp only [hnone, Option.bind_eq_bind, Option.bind_some, Option.bind_none]
      rw [copyQueueStep, hundef] at hstep
      exact nomatch hstep

/-- A fresh queue holds nothing and starts where its buffer does. -/
theorem fresh_holds {config : CopyQueueConfig w} {queue queue₀ : CopyQueue w}
    (hbuffer : config.queueBuffer.size = config.queueSize.toNat)
    (hinit : copyQueueInit queue config = (.errNone, queue₀)) :
    queue₀.headIdx = 0 ∧
      Holds config config.elementSize.toNat queue₀ [] config.queueBuffer := by
  rw [copyQueueInit] at hinit
  split at hinit
  · obtain ⟨-, rfl⟩ := Prod.mk.inj hinit
    refine ⟨rfl, rfl, rfl, rfl, hbuffer, ?_, Nat.zero_le _, ?_, ?_, ?_⟩
    · simp
    · simp
    · simp
    · simp [bytesOf, Block.slice]
  · next hinvalid => exact absurd (Prod.mk.inj hinit).1 hinvalid

/-- A config whose elements fit is accepted, and the fresh queue holds none. -/
theorem init_simulated {config : CopyQueueConfig w} (queue : CopyQueue w)
    (hbuffer : config.queueBuffer.size = config.queueSize.toNat)
    (hcount : 1 ≤ config.elementCount.toNat) (hsize : 1 ≤ config.elementSize.toNat)
    (hfit : config.elementCount.toNat * config.elementSize.toNat ≤ config.queueSize.toNat) :
    ∃ queue₀, copyQueueInit queue config = (.errNone, queue₀) ∧
      Simulated config config.elementSize.toNat queue₀ [] := by
  have hpos : 1 ≤ config.elementCount.toNat * config.elementSize.toNat :=
    Nat.mul_le_mul hcount hsize
  have hprod : (config.elementCount * config.elementSize).toNat
      = config.elementCount.toNat * config.elementSize.toNat :=
    SizeT.toNat_mul_of_lt (Nat.lt_of_le_of_lt hfit config.queueSize.isLt)
  have hvalid : copyQueueValidateConfig config = .errNone := by
    rw [copyQueueValidateConfig, if_neg (by rw [← SizeT.toNat_eq_zero]; omega),
      if_neg (by rw [← SizeT.toNat_eq_zero]; omega),
      if_neg (by rw [← SizeT.toNat_eq_zero]; omega),
      if_neg (by rw [BitVec.lt_def, hprod]; omega)]
  obtain ⟨queue₀, hinit⟩ : ∃ queue₀, copyQueueInit queue config = (.errNone, queue₀) :=
    ⟨_, by rw [copyQueueInit, hvalid]⟩
  exact ⟨queue₀, hinit, _, (fresh_holds hbuffer hinit).2⟩

end CembCopyQueue
