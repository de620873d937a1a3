import CEmbeddedUtils.BoundedHeapProofs
import CEmbeddedUtils.CopyQueueProofs
import CEmbeddedUtils.FastCircularBufferProofs
import CEmbeddedUtils.PtrStackLifoProofs
import CEmbeddedUtils.StaticPoolMisuseProofs

/-! # After deinit — closed containers, and one that still counts

    Deinit resets the few fields from which a container derives that it is full and
    that it is empty, and lets go of nothing else.  A container is CLOSED when every
    call is refused from then on, nothing is counted any more, and nothing changes.
    The storage plays no part: it may be any block, the container's own or an empty
    one, in which every access would be undefined.

    Five containers are closed by their deinit, whatever state they were in.  The
    sixth, the static pool, resets its free stack but not its own config, and from
    the config it takes the number it counts down from: it goes on announcing
    `object_count` slots of which it hands out none. -/

namespace CembDeinit

open CembByteBuffer CembCircularBuffer CembFastCircularBuffer CembCopyQueue
open CembBoundedHeap CembPtrStack CembStaticPool
open Memory Transducer

variable {w : Nat} {α β σ Op Res : Type}

/-- With any storage in place, every sequence of calls gets these answers and leaves
    the state as it is. -/
def Closed (step : Step σ Op Res) (answer : Op → Res) (state : Block β → σ) : Prop :=
  ∀ storage ops, run step (state storage) ops = some (ops.map answer, state storage)

/-- Being closed is a matter of single calls. -/
theorem closed_iff {step : Step σ Op Res} {answer : Op → Res} {state : Block β → σ} :
    Closed step answer state ↔
      ∀ storage op, step (state storage) op = some (answer op, state storage) :=
  forall_congr' fun _ => run_inert_iff

/-- The count queries of the copy queue and of the heap. -/
inductive SizeQuery where
  | getRemaining
  | getSize

/-! ## The byte buffers -/

/-- A closed byte buffer. -/
def closedByteBuffer : ByteBufferOp → ByteBufferResponse
  | .pushByte _ => .pushed .errNoMem
  | .popByte => .popped .errEmpty none
  | .getCount => .counted 0

/-- A circular buffer after deinit, over this block. -/
def deinitedCircularBuffer (buffer : CircularBuffer w) (storage : Block UInt8) :
    CircularBuffer w :=
  { circularBufferDeinit buffer with buffer := storage }

theorem circularBufferDeinit_closed (buffer : CircularBuffer w) :
    Closed circularBufferStep closedByteBuffer (deinitedCircularBuffer buffer) := by
  rw [closed_iff]
  intro storage op
  have hcount : circularBufferGetCount (deinitedCircularBuffer buffer storage) = 0 := by
    simp [circularBufferGetCount, deinitedCircularBuffer, circularBufferDeinit]
  cases op with
  | pushByte byte => rfl
  | popByte =>
      rw [circularBufferStep, circularBufferPopByte, if_pos hcount]
      rfl
  | getCount =>
      rw [circularBufferStep, hcount, SizeT.toNat_eq_zero.mpr rfl]
      rfl

/-- A fast circular buffer after deinit, over this block. -/
def deinitedFastCircularBuffer (buffer : FastCircularBuffer w) (storage : Block UInt8) :
    FastCircularBuffer w :=
  { fastCircularBufferDeinit buffer with buffer := storage }

theorem fastCircularBufferDeinit_closed (buffer : FastCircularBuffer w) :
    Closed fastCircularBufferStep closedByteBuffer (deinitedFastCircularBuffer buffer) := by
  rw [closed_iff]
  intro storage op
  have hcount : fastCircularBufferGetCount (deinitedFastCircularBuffer buffer storage) = 0 :=
    BitVec.sub_self 0
  cases op with
  | pushByte byte => rfl
  | popByte =>
      rw [fastCircularBufferStep, fastCircularBufferPopByte, if_pos hcount]
      rfl
  | getCount =>
      rw [fastCircularBufferStep, hcount, SizeT.toNat_eq_zero.mpr rfl]
      rfl

/-! ## The copy queue -/

/-- A call with elements of any size. -/
abbrev AnyCopyQueueOp := Σ n, CopyQueueOp n

/-- The counts of the copy queue. -/
def copyQueueSizes (queue : CopyQueue w) : SizeQuery → Nat
  | .getRemaining => (copyQueueGetRemaining queue).toNat
  | .getSize => (copyQueueGetSize queue).toNat

/-- All calls of the copy queue. -/
def copyQueueCalls : Step (CopyQueue w) (AnyCopyQueueOp ⊕ SizeQuery)
    ((ErrorCode × Option (List UInt8)) ⊕ Nat) :=
  withQueries (fun queue op => copyQueueStep queue op.2) copyQueueSizes

/-- A closed copy queue. -/
def closedCopyQueue : AnyCopyQueueOp → ErrorCode × Option (List UInt8)
  | ⟨_, .enqueue _⟩ => (.errNoMem, none)
  | ⟨_, .dequeue⟩ => (.errEmpty, none)
  | ⟨_, .peek⟩ => (.errEmpty, none)

/-- The queue forgets its buffer, so there is no block that it could touch. -/
theorem copyQueueDeinit_closed (queue : CopyQueue w) :
    Closed copyQueueCalls (Sum.map closedCopyQueue fun _ => 0)
      fun _ : Block UInt8 => copyQueueDeinit queue := by
  rw [closed_iff]
  intro _
  have hremaining : copyQueueGetRemaining (copyQueueDeinit queue) = 0 := BitVec.sub_self 0
  have hsize : copyQueueGetSize (copyQueueDeinit queue) = 0 := rfl
  refine withQueries_inert ?_ ?_
  · rintro ⟨n, element | _ | _⟩
    · rw [copyQueueStep, copyQueueEnqueue, if_pos hremaining]
      rfl
    · rw [copyQueueStep, copyQueueDequeue, if_pos hsize]
      rfl
    · rw [copyQueueStep, copyQueuePeek, if_pos hsize]
      rfl
  · rintro (_ | _)
    · rw [copyQueueSizes, hremaining, SizeT.toNat_eq_zero.mpr rfl]
    · rw [copyQueueSizes, hsize, SizeT.toNat_eq_zero.mpr rfl]

/-! ## The heap -/

/-- The counts of the heap. -/
def boundedHeapSizes (heap : BoundedHeap α) : SizeQuery → Nat
  | .getRemaining => boundedHeapGetRemaining heap
  | .getSize => boundedHeapGetSize heap

/-- All calls of the heap. -/
def boundedHeapCalls : Step (BoundedHeap α) (BoundedHeapOp α ⊕ SizeQuery)
    ((ErrorCode × Option α) ⊕ Nat) :=
  withQueries boundedHeapStep boundedHeapSizes

/-- A closed heap. -/
def closedBoundedHeap : BoundedHeapOp α → ErrorCode × Option α
  | .push _ => (.errNoMem, none)
  | .pop => (.errEmpty, none)
  | .peek => (.errEmpty, none)

/-- A heap after deinit, over this block. -/
def deinitedBoundedHeap (heap : BoundedHeap α) (storage : Block α) : BoundedHeap α :=
  { boundedHeapDeinit heap with config := { heap.config with heapStorage := storage } }

theorem boundedHeapDeinit_closed (heap : BoundedHeap α) :
    Closed boundedHeapCalls (Sum.map closedBoundedHeap fun _ => 0)
      (deinitedBoundedHeap heap) := by
  rw [closed_iff]
  intro storage
  refine withQueries_inert ?_ ?_
  · rintro (heapItem | _ | _) <;> rfl
  · rintro (_ | _) <;> rfl

/-! ## The pointer stack -/

/-- A closed pointer stack. -/
def closedPtrStack : PtrStackOp α → PtrStackResponse α
  | .push _ => .pushed .errNoMem
  | .pop => .popped .errEmpty none
  | .getRemainingCount => .remaining 0

/-- A pointer stack after deinit, over this block. -/
def deinitedPtrStack (stack : PtrStack w α) (storage : Block α) : PtrStack w α :=
  { ptrStackDeinit stack with stack := storage }

/-- A stack with no slots and nothing on it has none left. -/
theorem remaining_deinitedPtrStack (stack : PtrStack w α) (storage : Block α) :
    ptrStackGetRemainingCount (deinitedPtrStack stack storage) = 0 :=
  BitVec.sub_self 0

theorem push_deinitedPtrStack (stack : PtrStack w α) (storage : Block α) (value : α) :
    ptrStackPush (deinitedPtrStack stack storage) value
      = some (.errNoMem, deinitedPtrStack stack storage) :=
  if_pos (remaining_deinitedPtrStack stack storage)

theorem pop_deinitedPtrStack (stack : PtrStack w α) (storage : Block α) :
    ptrStackPop (deinitedPtrStack stack storage)
      = some (.errEmpty, none, deinitedPtrStack stack storage) :=
  if_pos (remaining_deinitedPtrStack stack storage)

theorem ptrStackDeinit_closed (stack : PtrStack w α) :
    Closed ptrStackStep closedPtrStack (deinitedPtrStack stack) := by
  rw [closed_iff]
  intro storage op
  cases op with
  | push value =>
      rw [ptrStackStep, push_deinitedPtrStack]
      rfl
  | pop =>
      rw [ptrStackStep, pop_deinitedPtrStack]
      rfl
  | getRemainingCount =>
      rw [ptrStackStep, remaining_deinitedPtrStack, SizeT.toNat_eq_zero.mpr rfl]
      rfl

/-! ## The static pool -/

/-- The count query of the pool. -/
inductive PoolQuery where
  | getAvailableCount

/-- The count of the pool. -/
def staticPoolCount (pool : StaticPool w) : PoolQuery → Nat
  | .getAvailableCount => (staticPoolGetAvailableCount pool).toNat

/-- All calls of the pool, with any pointers. -/
def staticPoolCalls : Step (StaticPool w) (StaticPoolOp ⊕ PoolQuery)
    ((ErrorCode × Option Nat) ⊕ Nat) :=
  withQueries poolStep staticPoolCount

/-- A closed pool.  A pointer that is given back is set to `NULL`, as always, though
    the pool does not take it. -/
def closedStaticPool : StaticPoolOp → ErrorCode × Option Nat
  | .allocate => (.errNoMem, none)
  | .deallocate object =>
      if object = null then (.errOutOfBounds, none) else (.errNone, some null)

/-- A pool after deinit, with this block for its free stack. -/
def deinitedStaticPool (pool : StaticPool w) (storage : Block Nat) : StaticPool w :=
  { staticPoolDeinit pool with freeStack := deinitedPtrStack pool.freeStack storage }

theorem poolStep_deinitedStaticPool (pool : StaticPool w) (storage : Block Nat)
    (op : StaticPoolOp) :
    poolStep (deinitedStaticPool pool storage) op
      = some (closedStaticPool op, deinitedStaticPool pool storage) := by
  have hstack : (deinitedStaticPool pool storage).freeStack
      = deinitedPtrStack pool.freeStack storage := rfl
  cases op with
  | allocate =>
      rw [poolStep, staticPoolAllocate, hstack, pop_deinitedPtrStack]
      rfl
  | deallocate object =>
      by_cases hnull : object = null
      · rw [hnull, poolStep_null]
        rfl
      · rw [poolStep, staticPoolDeallocate, if_neg hnull, hstack, push_deinitedPtrStack,
          closedStaticPool, if_neg hnull]
        rfl

/-- A pool after deinit is closed, but counts the objects of its config. -/
theorem staticPoolDeinit_closed (pool : StaticPool w) :
    Closed staticPoolCalls
      (Sum.map closedStaticPool fun _ => pool.config.objectCount.toNat)
      (deinitedStaticPool pool) := by
  rw [closed_iff]
  intro storage
  refine withQueries_inert (poolStep_deinitedStaticPool pool storage) ?_
  rintro ⟨⟩
  -- the config is as it was, and the free stack has no free place to take off
  show (pool.config.objectCount
    - ptrStackGetRemainingCount (deinitedPtrStack pool.freeStack storage)).toNat = _
  rw [remaining_deinitedPtrStack]
  exact congrArg BitVec.toNat (BitVec.sub_zero _)

/-- So the pool is closed in every respect exactly when it has no objects. -/
theorem staticPoolDeinit_closed_iff (pool : StaticPool w) :
    Closed staticPoolCalls (Sum.map closedStaticPool fun _ => 0) (deinitedStaticPool pool) ↔
      pool.config.objectCount = 0 := by
  constructor
  · intro hclosed
    have hcount := closed_iff.mp (staticPoolDeinit_closed pool) ⟨0, fun _ => 0⟩
      (.inr .getAvailableCount)
    rw [closed_iff.mp hclosed] at hcount
    have hanswer : (Sum.inr 0 : (ErrorCode × Option Nat) ⊕ Nat)
        = Sum.inr pool.config.objectCount.toNat := (Prod.mk.inj (Option.some.inj hcount)).1
    exact SizeT.toNat_eq_zero.mp (Sum.inr.inj hanswer).symm
  · intro hzero
    have hclosed := staticPoolDeinit_closed pool
    rw [SizeT.toNat_eq_zero.mpr hzero] at hclosed
    exact hclosed

/-- An accepted init stores the config. -/
theorem config_of_init {pool pool₀ : StaticPool w} {config : StaticPoolConfig w}
    (hinit : staticPoolInit pool config = some (.errNone, pool₀)) : pool₀.config = config := by
  unfold staticPoolInit staticPoolValidateConfig at hinit
  by_cases hsize : config.bufferSize < config.objectSize * config.objectCount
  · rw [if_pos hsize] at hinit
    cases hinit
  · rw [if_neg hsize] at hinit
    obtain ⟨freeStack, -, heq⟩ := Option.bind_eq_some_iff.mp hinit
    obtain ⟨-, rfl⟩ := Prod.mk.inj (Option.some.inj heq)
    rfl

/-- No call changes the config. -/
theorem config_of_step {pool pool' : StaticPool w} {op : StaticPoolOp}
    {r : ErrorCode × Option Nat} (hstep : poolStep pool op = some (r, pool')) :
    pool'.config = pool.config := by
  cases op with
  | allocate =>
      obtain ⟨⟨code, stored, pool₁⟩, hallocate, heq⟩ := Option.map_eq_some_iff.mp hstep
      obtain ⟨-, rfl⟩ := Prod.mk.inj heq
      obtain ⟨⟨ret, token, freeStack⟩, -, hrest⟩ := Option.bind_eq_some_iff.mp hallocate
      dsimp only at hrest
      split at hrest
      · obtain ⟨-, -, rfl⟩ := hrest
        rfl
      · obtain ⟨-, -, rfl⟩ := hrest
        rfl
  | deallocate object =>
      obtain ⟨⟨code, stored, pool₁⟩, hdeallocate, heq⟩ := Option.map_eq_some_iff.mp hstep
      obtain ⟨-, rfl⟩ := Prod.mk.inj heq
      rw [staticPoolDeallocate] at hdeallocate
      split at hdeallocate
      · obtain ⟨-, -, rfl⟩ := hdeallocate
        rfl
      · obtain ⟨⟨ret, freeStack⟩, -, hrest⟩ := Option.bind_eq_some_iff.mp hdeallocate
        obtain ⟨-, -, rfl⟩ := hrest
        rfl

/-- So the config is that of init after every run. -/
theorem config_of_run {pool pool₀ pool₁ : StaticPool w} {config : StaticPoolConfig w}
    {ops : List StaticPoolOp} {responses : List (ErrorCode × Option Nat)}
    (hinit : staticPoolInit pool config = some (.errNone, pool₀))
    (hrun : run poolStep pool₀ ops = some (responses, pool₁)) : pool₁.config = config := by
  refine run_keeps (I := fun pool => pool.config = config) ?_ ops pool₀
    (config_of_init hinit) hrun
  intro pool op r pool' hpool hstep
  rw [config_of_step hstep]
  exact hpool

/-- **DEINIT CLOSES FIVE CONTAINERS, AND A POOL WITHOUT OBJECTS**: from any state of
    the other five, and for a pool from any state that a run after an accepted init
    reaches, every sequence of calls after deinit is refused, counts nothing and
    touches no storage; but a pool counts `object_count` slots, so that it is closed
    exactly when that number is 0. -/
theorem deinit_closes_iff :
    (∀ buffer : CircularBuffer w,
      Closed circularBufferStep closedByteBuffer (deinitedCircularBuffer buffer)) ∧
    (∀ buffer : FastCircularBuffer w,
      Closed fastCircularBufferStep closedByteBuffer (deinitedFastCircularBuffer buffer)) ∧
    (∀ queue : CopyQueue w, Closed copyQueueCalls (Sum.map closedCopyQueue fun _ => 0)
      fun _ : Block UInt8 => copyQueueDeinit queue) ∧
    (∀ heap : BoundedHeap α, Closed boundedHeapCalls (Sum.map closedBoundedHeap fun _ => 0)
      (deinitedBoundedHeap heap)) ∧
    (∀ stack : PtrStack w α, Closed ptrStackStep closedPtrStack (deinitedPtrStack stack)) ∧
    ∀ (pool pool₀ pool₁ : StaticPool w) (config : StaticPoolConfig w) ops responses,
      staticPoolInit pool config = some (.errNone, pool₀) →
      run poolStep pool₀ ops = some (responses, pool₁) →
        Closed staticPoolCalls
          (Sum.map closedStaticPool fun _ => config.objectCount.toNat)
          (deinitedStaticPool pool₁) ∧
        (Closed staticPoolCalls (Sum.map closedStaticPool fun _ => 0)
          (deinitedStaticPool pool₁) ↔ config.objectCount = 0) := by
  refine ⟨circularBufferDeinit_closed, fastCircularBufferDeinit_closed,
    copyQueueDeinit_closed, boundedHeapDeinit_closed, ptrStackDeinit_closed, ?_⟩
  intro pool pool₀ pool₁ config ops responses hinit hrun
  have hconfig := config_of_run hinit hrun
  constructor
  · rw [← hconfig]
    exact staticPoolDeinit_closed pool₁
  · rw [← hconfig]
    exact staticPoolDeinit_closed_iff pool₁

/-- The law for the pool of one object, after the object was handed out. -/
theorem deinit_closes_iff_one_object :
    ∃ pool₁, run poolStep oneObjectPool [.allocate] = some ([(.errNone, some 100)], pool₁) ∧
      (Closed staticPoolCalls (Sum.map closedStaticPool fun _ => 0)
        (deinitedStaticPool pool₁) ↔ oneObjectConfig.objectCount = 0) := by
  have hinit : staticPoolInit oneObjectPool oneObjectConfig = some (.errNone, oneObjectPool) := rfl
  obtain ⟨-, -, -, -, -, hpool⟩ := deinit_closes_iff (w := 8) (α := Nat)
  exact ⟨_, rfl, (hpool oneObjectPool oneObjectPool _ oneObjectConfig [.allocate] _ hinit rfl).2⟩

/-- **A POOL THAT STILL COUNTS**: init, deinit, and the pool of one object announces
    one slot of which an allocate is refused. -/
theorem static_pool_counts_after_deinit :
    staticPoolInit oneObjectPool oneObjectConfig = some (.errNone, oneObjectPool) ∧
      run staticPoolCalls (staticPoolDeinit oneObjectPool)
          [.inr .getAvailableCount, .inl .allocate]
        = some ([.inr 1, .inl (.errNoMem, none)], staticPoolDeinit oneObjectPool) ∧
      ¬ Closed staticPoolCalls (Sum.map closedStaticPool fun _ => 0)
        (deinitedStaticPool oneObjectPool) := by
  refine ⟨rfl, rfl, ?_⟩
  rw [staticPoolDeinit_closed_iff]
  decide

end CembDeinit
