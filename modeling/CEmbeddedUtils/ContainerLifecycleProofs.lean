import CEmbeddedUtils.DeinitProofs
import CEmbeddedUtils.LifecycleProofs

/-! # Containers over their lifecycles

    A container can be taken down and set up again, with another block and another
    size, any number of times and in any state.  Nothing of its former life is left
    then: over all inits, deinits and calls in between, the circular buffers are the
    overwriting FIFO, and the pointer stack is the bounded LIFO, of the last size
    accepted, and closed after a deinit.

    The two circular buffers differ only in the sizes that they accept. -/

namespace CembDeinit

open CembByteBuffer CembCircularBuffer CembFastCircularBuffer CembPtrStack
open Memory Transducer

variable {w : Nat} {α : Type}

/-! ## The circular buffers -/

/-- A block of bytes, as large as it is said to be. -/
structure ByteStorage (w : Nat) where
  buffer : Block UInt8
  bufferSize : SizeT w
  size_eq : buffer.size = bufferSize.toNat

/-- The calls on a circular buffer, of either kind. -/
abbrev RingOp (w : Nat) := LifecycleOp (ByteStorage w) ByteBufferOp

/-- What they answer. -/
abbrev RingRes := LifecycleRes ErrorCode ByteBufferResponse

def circularBufferLifecycle : Step (CircularBuffer w) (RingOp w) RingRes :=
  lifecycle (fun buffer storage => circularBufferInit buffer ⟨storage.buffer, storage.bufferSize⟩)
    circularBufferDeinit circularBufferStep

def fastCircularBufferLifecycle : Step (FastCircularBuffer w) (RingOp w) RingRes :=
  lifecycle
    (fun buffer storage => fastCircularBufferInit buffer ⟨storage.buffer, storage.bufferSize⟩)
    fastCircularBufferDeinit fastCircularBufferStep

/-- The sizes that the circular buffer accepts. -/
def PlainSize (size : Nat) : Prop := 1 ≤ size

/-- The sizes that the fast circular buffer accepts. -/
def FastSize (size : Nat) : Prop := ∃ k, 1 ≤ k ∧ size = 2 ^ k

open Classical in
/-- The purpose of the two: the overwriting FIFO of the last size accepted, or closed. -/
noncomputable def ringLifecycle (accepts : Nat → Prop) :
    Spec (Option (Nat × List UInt8)) (RingOp w) RingRes :=
  lifecycleSpec
    (fun storage => if accepts storage.bufferSize.toNat then some (storage.bufferSize.toNat, [])
      else none)
    .errNone .errInvalidArg (sized overwritingFifo) closedByteBuffer

/-- The buffer holds these bytes of at most `n`. -/
def HoldsOf (n : Nat) (buffer : CircularBuffer w) (held : List UInt8) : Prop :=
  ∃ size, size.toNat = n ∧ Represents size buffer held

/-- The fast buffer holds these bytes of at most `n`. -/
def FastHoldsOf (n : Nat) (buffer : FastCircularBuffer w) (held : List UInt8) : Prop :=
  ∃ size : SizeT w, size.toNat = n ∧ FastSize n ∧ FastRepresents size buffer held

theorem holdsOf_simulates (n : Nat) :
    Simulates circularBufferStep (overwritingFifo n) (HoldsOf (w := w) n) := by
  rintro buffer held op ⟨size, rfl, h⟩
  obtain ⟨buffer', hstep, h'⟩ := represents_simulates size buffer held op h
  exact ⟨buffer', hstep, size, rfl, h'⟩

theorem fastHoldsOf_simulates (n : Nat) :
    Simulates fastCircularBufferStep (overwritingFifo n) (FastHoldsOf (w := w) n) := by
  rintro buffer held op ⟨size, rfl, ⟨k, hk, hpow⟩, h⟩
  have h2 : 2 ≤ size.toNat := by
    rw [hpow]
    exact Nat.pow_le_pow_right Nat.two_pos hk
  obtain ⟨buffer', hstep, h'⟩ := fastRepresents_simulates hpow h2 buffer held op h
  exact ⟨buffer', hstep, size, rfl, ⟨k, hk, hpow⟩, h'⟩

/-- A circular buffer that a deinit has left. -/
def IsDeinited (buffer : CircularBuffer w) : Prop :=
  ∃ before storage, buffer = deinitedCircularBuffer before storage

/-- A fast circular buffer that a deinit has left. -/
def IsFastDeinited (buffer : FastCircularBuffer w) : Prop :=
  ∃ before storage, buffer = deinitedFastCircularBuffer before storage

/-- **ONE CALL** of a circular buffer's lifecycle. -/
theorem circularBufferLifecycle_simulates :
    Simulates circularBufferLifecycle (ringLifecycle PlainSize)
      (LifecycleRel IsDeinited fun (buffer : CircularBuffer w) (t : Nat × List UInt8) =>
        HoldsOf t.1 buffer t.2) := by
  refine lifecycle_simulates ?_ ?_ ?_ ?_ (sized_simulates holdsOf_simulates)
  · intro buffer storage t ht
    by_cases hsize : PlainSize storage.bufferSize.toNat
    · rw [if_pos hsize] at ht
      obtain rfl := Option.some.inj ht
      let config : CircularBufferConfig w := ⟨storage.buffer, storage.bufferSize⟩
      have hblock : config.buffer.size = config.bufferSize.toNat := storage.size_eq
      obtain ⟨buffer₀, hinit, h₀⟩ := init_represents buffer hblock hsize
      exact ⟨buffer₀, hinit, _, rfl, h₀⟩
    · rw [if_neg hsize] at ht
      cases ht
  · intro buffer storage ht
    by_cases hsize : PlainSize storage.bufferSize.toNat
    · rw [if_pos hsize] at ht
      cases ht
    · have hzero : storage.bufferSize = 0 := by
        rw [← SizeT.toNat_eq_zero]
        exact Nat.eq_zero_of_not_pos hsize
      simp only [circularBufferInit, circularBufferValidateConfig, if_pos hzero]
  · intro buffer
    exact ⟨buffer, buffer.buffer, rfl⟩
  · rintro _ op ⟨before, storage, rfl⟩
    exact closed_iff.mp (circularBufferDeinit_closed before) storage op

/-- **ONE CALL** of a fast circular buffer's lifecycle. -/
theorem fastCircularBufferLifecycle_simulates :
    Simulates fastCircularBufferLifecycle (ringLifecycle FastSize)
      (LifecycleRel IsFastDeinited fun (buffer : FastCircularBuffer w) (t : Nat × List UInt8) =>
        FastHoldsOf t.1 buffer t.2) := by
  refine lifecycle_simulates ?_ ?_ ?_ ?_ (sized_simulates fastHoldsOf_simulates)
  · intro buffer storage t ht
    by_cases hsize : FastSize storage.bufferSize.toNat
    · rw [if_pos hsize] at ht
      obtain rfl := Option.some.inj ht
      obtain ⟨k, hk, hpow⟩ := hsize
      have h2 : 2 ≤ storage.bufferSize.toNat := by
        rw [hpow]
        exact Nat.pow_le_pow_right Nat.two_pos hk
      let config : FastCircularBufferConfig w := ⟨storage.buffer, storage.bufferSize⟩
      have hblock : config.buffer.size = config.bufferSize.toNat := storage.size_eq
      obtain ⟨buffer₀, hinit, h₀⟩ := init_fastRepresents buffer hblock hpow h2
      exact ⟨buffer₀, hinit, _, rfl, ⟨k, hk, hpow⟩, h₀⟩
    · rw [if_neg hsize] at ht
      cases ht
  · intro buffer storage ht
    by_cases hsize : FastSize storage.bufferSize.toNat
    · rw [if_pos hsize] at ht
      cases ht
    · rcases init_cases buffer ⟨storage.buffer, storage.bufferSize⟩ with
        ⟨hvalid, -⟩ | ⟨-, hinit⟩
      · exact absurd (validateConfig_eq_errNone_iff.mp hvalid) hsize
      · exact hinit
  · intro buffer
    exact ⟨buffer, buffer.buffer, rfl⟩
  · rintro _ op ⟨before, storage, rfl⟩
    exact closed_iff.mp (fastCircularBufferDeinit_closed before) storage op

/-- **BOTH RINGS OVER THEIR LIFECYCLES.**  From a buffer that has been taken down, any
    inits, deinits, pushes, pops and counts in any order are defined and answered as by
    the overwriting FIFO of the last size accepted, or by a closed buffer; the fast
    buffer accepts powers of two only.  Where no other size is asked for, the two
    cannot be told apart. -/
theorem ring_buffers_refine_lifecycle (plain : CircularBuffer w) (fast : FastCircularBuffer w)
    (calls : List (RingOp w)) :
    ∃ answers plain' fastAnswers fast',
      run circularBufferLifecycle (circularBufferDeinit plain) calls = some (answers, plain') ∧
      run fastCircularBufferLifecycle (fastCircularBufferDeinit fast) calls
        = some (fastAnswers, fast') ∧
      answers = (runSpec (ringLifecycle PlainSize) none calls).1 ∧
      fastAnswers = (runSpec (ringLifecycle FastSize) none calls).1 ∧
      ((∀ storage, .init storage ∈ calls →
        storage.bufferSize = 0 ∨ FastSize storage.bufferSize.toNat) → fastAnswers = answers) := by
  obtain ⟨plain', hplain, -⟩ := run_refines circularBufferLifecycle_simulates calls
    (circularBufferDeinit plain) none ⟨plain, plain.buffer, rfl⟩
  obtain ⟨fast', hfast, -⟩ := run_refines fastCircularBufferLifecycle_simulates calls
    (fastCircularBufferDeinit fast) none ⟨fast, fast.buffer, rfl⟩
  refine ⟨_, plain', _, fast', hplain, hfast, rfl, rfl, ?_⟩
  intro hsizes
  refine congrArg Prod.fst (runSpec_congr ?_ none)
  intro op hop t
  cases op with
  | init storage =>
      -- a size that one of the two accepts and the other does not is not asked for
      have hsame : FastSize storage.bufferSize.toNat ↔ PlainSize storage.bufferSize.toNat := by
        constructor
        · rintro ⟨k, -, hpow⟩
          show 1 ≤ storage.bufferSize.toNat
          rw [hpow]
          exact Nat.one_le_two_pow
        · intro hpos
          refine (hsizes storage hop).resolve_left ?_
          intro hzero
          rw [← SizeT.toNat_eq_zero] at hzero
          exact absurd hpos (by rw [PlainSize, hzero]; exact Nat.not_succ_le_zero 0)
      by_cases hsize : PlainSize storage.bufferSize.toNat
      · simp only [ringLifecycle, lifecycleSpec, if_pos hsize, if_pos (hsame.mpr hsize)]
      · simp only [ringLifecycle, lifecycleSpec, if_neg hsize, if_neg (mt hsame.mp hsize)]
  | deinit => cases t <;> rfl
  | call op => cases t <;> rfl

/-- Two lives of a buffer: two of four bytes are used, and after a deinit there are two
    bytes, to which three are pushed.  An init with no bytes in between is refused. -/
def twoRingLives : List (RingOp 8) :=
  [.init ⟨⟨4, fun _ => 0⟩, 4, rfl⟩, .call (.pushByte 1), .call (.pushByte 2), .deinit,
    .call .popByte, .init ⟨⟨2, fun _ => 0⟩, 2, rfl⟩, .call (.pushByte 3), .call (.pushByte 4),
    .init ⟨⟨0, fun _ => 0⟩, 0, rfl⟩, .call (.pushByte 5), .call .popByte, .call .getCount]

/-- Both rings give the same answers over the two lives, and no byte of the first comes up
    in the second. -/
theorem ring_buffers_refine_lifecycle_two_lives :
    ∃ answers plain' fast',
      run circularBufferLifecycle (circularBufferDeinit ⟨⟨0, fun _ => 0⟩, 0, 0, 0, true⟩)
        twoRingLives = some (answers, plain') ∧
      run fastCircularBufferLifecycle (fastCircularBufferDeinit ⟨⟨0, fun _ => 0⟩, 0, 0, 0⟩)
        twoRingLives = some (answers, fast') ∧
      answers = (runSpec (ringLifecycle PlainSize) none twoRingLives).1 ∧
      answers = [.inited .errNone, .answered (.pushed .errNone), .answered (.pushed .errNone),
        .deinited, .answered (.popped .errEmpty none), .inited .errNone,
        .answered (.pushed .errNone), .answered (.pushed .errNone), .inited .errInvalidArg,
        .answered (.pushed .errNone), .answered (.popped .errNone (some 4)),
        .answered (.counted 1)] := by
  obtain ⟨answers, plain', fastAnswers, fast', hplain, hfast, hspec, -, hsame⟩ :=
    ring_buffers_refine_lifecycle (⟨⟨0, fun _ => 0⟩, 0, 0, 0, true⟩ : CircularBuffer 8)
      (⟨⟨0, fun _ => 0⟩, 0, 0, 0⟩ : FastCircularBuffer 8) twoRingLives
  have hsizes : ∀ storage, .init storage ∈ twoRingLives →
      storage.bufferSize = 0 ∨ FastSize storage.bufferSize.toNat := by
    intro storage hmem
    simp only [twoRingLives, List.mem_cons, LifecycleOp.init.injEq, reduceCtorEq, false_or,
      List.not_mem_nil, or_false] at hmem
    rcases hmem with rfl | rfl | rfl
    · exact .inr ⟨2, by decide, rfl⟩
    · exact .inr ⟨1, by decide, rfl⟩
    · exact .inl rfl
  obtain rfl := hsame hsizes
  have hanswers : (run circularBufferLifecycle
      (circularBufferDeinit ⟨⟨0, fun _ => 0⟩, 0, 0, 0, true⟩) twoRingLives).map Prod.fst
      = some [.inited .errNone, .answered (.pushed .errNone), .answered (.pushed .errNone),
        .deinited, .answered (.popped .errEmpty none), .inited .errNone,
        .answered (.pushed .errNone), .answered (.pushed .errNone), .inited .errInvalidArg,
        .answered (.pushed .errNone), .answered (.popped .errNone (some 4)),
        .answered (.counted 1)] := rfl
  rw [hplain] at hanswers
  exact ⟨_, plain', fast', hplain, hfast, hspec, Option.some.inj hanswers⟩

/-! ## The pointer stack -/

/-- An array of pointers, at least as long as it is said to be. -/
structure PtrStorage (w : Nat) (α : Type) where
  stackBuffer : Block α
  stackItemCount : SizeT w
  fits : stackItemCount.toNat ≤ stackBuffer.size

def ptrStackLifecycle : Step (PtrStack w α) (LifecycleOp (PtrStorage w α) (PtrStackOp α))
    (LifecycleRes ErrorCode (PtrStackResponse α)) :=
  lifecycle (fun stack storage => ptrStackInit stack storage.stackBuffer storage.stackItemCount)
    ptrStackDeinit ptrStackStep

/-- The purpose of the stack: the LIFO of the last size accepted, or closed. -/
def stackLifecycle : Spec (Option (Nat × List α)) (LifecycleOp (PtrStorage w α) (PtrStackOp α))
    (LifecycleRes ErrorCode (PtrStackResponse α)) :=
  lifecycleSpec
    (fun storage => if storage.stackItemCount = 0 then none
      else some (storage.stackItemCount.toNat, []))
    .errNone .errInvalidArg (sized boundedLifo) closedPtrStack

/-- The stack holds these values of at most `n`. -/
def StackHoldsOf (n : Nat) (stack : PtrStack w α) (values : List α) : Prop :=
  ∃ capacity, capacity.toNat = n ∧ StackHolds capacity stack values

theorem stackHoldsOf_simulates (n : Nat) :
    Simulates ptrStackStep (boundedLifo n) (StackHoldsOf (w := w) (α := α) n) := by
  rintro stack values op ⟨capacity, rfl, h⟩
  obtain ⟨stack', hstep, h'⟩ := stackHolds_simulates capacity stack values op h
  exact ⟨stack', hstep, capacity, rfl, h'⟩

/-- **ONE CALL** of a pointer stack's lifecycle. -/
theorem ptrStackLifecycle_simulates :
    Simulates ptrStackLifecycle stackLifecycle
      (LifecycleRel (fun stack : PtrStack w α =>
          ∃ before storage, stack = deinitedPtrStack before storage)
        fun stack (t : Nat × List α) => StackHoldsOf t.1 stack t.2) := by
  refine lifecycle_simulates ?_ ?_ ?_ ?_ (sized_simulates stackHoldsOf_simulates)
  · intro stack storage t ht
    by_cases hzero : storage.stackItemCount = 0
    · rw [if_pos hzero] at ht
      cases ht
    · rw [if_neg hzero] at ht
      obtain rfl := Option.some.inj ht
      have hcount : 1 ≤ storage.stackItemCount.toNat :=
        Nat.pos_of_ne_zero (mt SizeT.toNat_eq_zero.mp hzero)
      obtain ⟨stack₀, hinit, h₀⟩ := init_stackHolds stack hcount storage.fits
      exact ⟨stack₀, hinit, _, rfl, h₀⟩
  · intro stack storage ht
    by_cases hzero : storage.stackItemCount = 0
    · exact if_pos hzero
    · rw [if_neg hzero] at ht
      cases ht
  · intro stack
    exact ⟨stack, stack.stack, rfl⟩
  · rintro _ op ⟨before, storage, rfl⟩
    exact closed_iff.mp (ptrStackDeinit_closed before) storage op

/-- **THE POINTER STACK OVER ITS LIFECYCLE**: from a stack that has been taken down, any
    inits, deinits and calls in any order are defined and answered as by the LIFO of the
    last size accepted, or by a closed stack; no value of a former life comes back. -/
theorem ptr_stack_refines_lifecycle (stack : PtrStack w α)
    (calls : List (LifecycleOp (PtrStorage w α) (PtrStackOp α))) :
    ∃ stack', run ptrStackLifecycle (ptrStackDeinit stack) calls
      = some ((runSpec stackLifecycle none calls).1, stack') := by
  obtain ⟨stack', hrun, -⟩ := run_refines ptrStackLifecycle_simulates calls
    (ptrStackDeinit stack) none ⟨stack, stack.stack, rfl⟩
  exact ⟨stack', hrun⟩

/-- Two lives of a stack of numbers: two are pushed in a place for three, and after a
    deinit there is place for one.  An init with no place in between is refused. -/
def twoStackLives : List (LifecycleOp (PtrStorage 8 Nat) (PtrStackOp Nat)) :=
  [.init ⟨⟨3, fun _ => 0⟩, 3, by decide⟩, .call (.push 1), .call (.push 2), .deinit, .call .pop,
    .init ⟨⟨1, fun _ => 0⟩, 1, by decide⟩, .call .pop, .call (.push 3),
    .init ⟨⟨1, fun _ => 0⟩, 0, by decide⟩, .call (.push 4), .call .pop, .call .getRemainingCount]

/-- No value of the first life is popped in the second, which is full with one. -/
theorem ptr_stack_refines_lifecycle_two_lives :
    ∃ stack', run ptrStackLifecycle (ptrStackDeinit ⟨⟨0, fun _ => 0⟩, 0, 0⟩) twoStackLives
        = some ([.inited .errNone, .answered (.pushed .errNone), .answered (.pushed .errNone),
          .deinited, .answered (.popped .errEmpty none), .inited .errNone,
          .answered (.popped .errEmpty none), .answered (.pushed .errNone),
          .inited .errInvalidArg, .answered (.pushed .errNoMem),
          .answered (.popped .errNone (some 3)), .answered (.remaining 1)], stack') :=
  ptr_stack_refines_lifecycle ⟨⟨0, fun _ => 0⟩, 0, 0⟩ twoStackLives

end CembDeinit
