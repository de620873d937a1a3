import CEmbeddedUtils.ByteBufferConcurrencyProofs
import CEmbeddedUtils.CircularBufferInterruptProofs

/-! # A ring between a main loop and an interrupt

    One interrupt inside one call has the effect of one of the two orders, or it
    has not; the conditions of `PopSafe` and `PushSafe` say which.  Here the main
    loop goes on: any number of calls, any of which may be interrupted by a
    complete call of the other side, after any of its statements.

    An interrupted call leaves a sound buffer also where it does not have the
    effect of an order: every way through the statements ends with a flag that
    agrees with the indices (`interruptedPop_sound`, `interruptedPush_sound`).  So
    a run whose interrupts all meet the condition is LINEARIZABLE: the calls can
    be put one after the other, each interrupt before or after the call that it
    came in, such that the FIFO gives the same answers and holds the same bytes
    at the end (`circular_buffer_runs_linearizable`). -/

namespace CembCircularBuffer

open CembByteBuffer Interrupt Memory Transducer

variable {w : Nat} {size : SizeT w} {buffer : CircularBuffer w}

/-! ## What every statement keeps -/

/-- The indices are in the block. -/
structure Indexed (size : SizeT w) (buffer : CircularBuffer w) : Prop where
  maxSize : buffer.bufferMaxSize = size
  block : buffer.buffer.size = size.toNat
  read_lt : buffer.readIndex.toNat < size.toNat
  write_lt : buffer.writeIndex.toNat < size.toNat

/-- The flag says empty only where the indices coincide. -/
def Flagged (buffer : CircularBuffer w) : Prop :=
  buffer.bufferIsEmpty = true → buffer.readIndex = buffer.writeIndex

theorem flagged_of_clear (h : buffer.bufferIsEmpty = false) : Flagged buffer := by
  intro hflag
  rw [h] at hflag
  cases hflag

theorem flagged_computeEmpty (buffer : CircularBuffer w) : Flagged (computeEmpty buffer) :=
  of_decide_eq_true

theorem Represents.indexed {held : List UInt8} (h : Represents size buffer held) :
    Indexed size buffer ∧ Flagged buffer := by
  refine ⟨⟨h.maxSize, h.block, h.read_lt, h.shows.write_lt⟩, ?_⟩
  intro hflag
  apply BitVec.eq_of_toNat_eq
  rw [h.write, h.empty.mp hflag, List.length_nil, Nat.add_zero, Nat.mod_eq_of_lt h.read_lt]

theorem Indexed.stored (h : Indexed size buffer) (byte : UInt8) :
    Indexed size (storeByte buffer byte) := ⟨h.maxSize, h.block, h.read_lt, h.write_lt⟩

theorem Indexed.cleared (h : Indexed size buffer) : Indexed size (clearEmpty buffer) :=
  ⟨h.maxSize, h.block, h.read_lt, h.write_lt⟩

theorem Indexed.computed (h : Indexed size buffer) : Indexed size (computeEmpty buffer) :=
  ⟨h.maxSize, h.block, h.read_lt, h.write_lt⟩

theorem Indexed.readAdvanced (h : Indexed size buffer) : Indexed size (advanceRead buffer) := by
  refine ⟨h.maxSize, h.block, ?_, h.write_lt⟩
  show ((buffer.readIndex + 1) % buffer.bufferMaxSize).toNat < size.toNat
  rw [h.maxSize, next_index h.read_lt]
  exact Nat.mod_lt _ (Nat.zero_lt_of_lt h.read_lt)

theorem Indexed.writeAdvanced (h : Indexed size buffer) : Indexed size (advanceWrite buffer) := by
  refine ⟨h.maxSize, h.block, h.read_lt, ?_⟩
  show ((buffer.writeIndex + 1) % buffer.bufferMaxSize).toNat < size.toNat
  rw [h.maxSize, next_index h.write_lt]
  exact Nat.mod_lt _ (Nat.zero_lt_of_lt h.write_lt)

/-- **A SOUND BUFFER** represents its contents: with indices in the block, and a
    flag that agrees with them, nothing else can be wrong. -/
theorem Indexed.represents (h : Indexed size buffer) (hflag : Flagged buffer) :
    Represents size buffer (contents buffer) := by
  have hread := h.read_lt
  have hwrite := h.write_lt
  have hsize := size.isLt
  have hlength : (contents buffer).length = (circularBufferGetCount buffer).toNat := by
    rw [contents, List.length_map, List.length_range]
  have hcount : (circularBufferGetCount buffer).toNat ≤ size.toNat ∧
      buffer.writeIndex.toNat
        = (buffer.readIndex.toNat + (circularBufferGetCount buffer).toNat) % size.toNat ∧
      (buffer.bufferIsEmpty = true ↔ (circularBufferGetCount buffer).toNat = 0) := by
    unfold circularBufferGetCount
    by_cases hgt : buffer.writeIndex > buffer.readIndex
    · have hgt' : buffer.readIndex.toNat < buffer.writeIndex.toNat := BitVec.lt_def.mp hgt
      rw [if_pos hgt, SizeT.toNat_sub_of_le (Nat.le_of_lt hgt')]
      refine ⟨by omega, ?_, iff_of_false ?_ (by omega)⟩
      · rw [Nat.add_sub_cancel' (Nat.le_of_lt hgt'), Nat.mod_eq_of_lt hwrite]
      · intro htrue
        rw [hflag htrue] at hgt'
        exact Nat.lt_irrefl _ hgt'
    · rw [if_neg hgt]
      have hle : buffer.writeIndex.toNat ≤ buffer.readIndex.toNat :=
        Nat.le_of_not_lt (mt BitVec.lt_def.mpr hgt)
      by_cases hlt : buffer.writeIndex < buffer.readIndex
      · have hlt' : buffer.writeIndex.toNat < buffer.readIndex.toNat := BitVec.lt_def.mp hlt
        have hsub : (buffer.bufferMaxSize - buffer.readIndex).toNat
            = size.toNat - buffer.readIndex.toNat := by
          rw [h.maxSize, SizeT.toNat_sub_of_le (Nat.le_of_lt hread)]
        have hsum : buffer.readIndex.toNat
            + (size.toNat - buffer.readIndex.toNat + buffer.writeIndex.toNat)
            = buffer.writeIndex.toNat + size.toNat := by omega
        rw [if_pos hlt, SizeT.toNat_add_of_lt (by omega), hsub, hsum]
        refine ⟨by omega, ?_, iff_of_false ?_ (by omega)⟩
        · rw [Nat.add_mod_right, Nat.mod_eq_of_lt hwrite]
        · intro htrue
          rw [hflag htrue] at hlt'
          exact Nat.lt_irrefl _ hlt'
      · have heq : buffer.writeIndex.toNat = buffer.readIndex.toNat :=
          Nat.le_antisymm hle (Nat.le_of_not_lt (mt BitVec.lt_def.mpr hlt))
        rw [if_neg hlt]
        cases hcase : buffer.bufferIsEmpty with
        | true =>
            rw [if_pos rfl, SizeT.toNat_eq_zero.mpr rfl, Nat.add_zero, heq,
              Nat.mod_eq_of_lt hread]
            exact ⟨Nat.zero_le _, rfl, iff_of_true rfl rfl⟩
        | false =>
            rw [if_neg Bool.false_ne_true, h.maxSize, Nat.add_mod_right, heq,
              Nat.mod_eq_of_lt hread]
            refine ⟨Nat.le_refl _, rfl, iff_of_false Bool.false_ne_true ?_⟩
            omega
  obtain ⟨hle, hindex, hempty⟩ := hcount
  refine ⟨h.maxSize, h.block, hread, hlength ▸ hle, by rw [hlength]; exact hindex, ?_, ?_⟩
  · rw [hempty, ← hlength, List.length_eq_zero_iff]
  · intro i hi
    simp [contents, h.maxSize]

/-! ## What a complete call leaves -/

theorem Indexed.maxSize_ne_zero (h : Indexed size buffer) : ¬ buffer.bufferMaxSize = 0 := by
  rw [h.maxSize, ← SizeT.toNat_eq_zero]
  exact Nat.ne_of_gt (Nat.zero_lt_of_lt h.read_lt)

theorem Indexed.store (h : Indexed size buffer) (byte : UInt8) :
    buffer.buffer.store buffer.writeIndex.toNat byte = some (storeByte buffer byte).buffer := by
  refine Block.store_of_lt ?_ byte
  rw [h.block]
  exact h.write_lt

/-- The oldest byte may have been dropped. -/
theorem Indexed.moved (h : Indexed size buffer) (full : Bool) :
    Indexed size (if full then advanceRead buffer else buffer) := by
  cases full with
  | true => exact h.readAdvanced
  | false => exact h

theorem Indexed.push_sound (h : Indexed size buffer) (byte : UInt8) :
    ∃ buffer', pushCall byte buffer = some (.errNone, buffer') ∧ Indexed size buffer' ∧
      buffer'.bufferIsEmpty = false := by
  have hstored := h.stored byte
  by_cases hfull : buffer.writeIndex = buffer.readIndex ∧ buffer.bufferIsEmpty = false
  · refine ⟨clearEmpty (advanceWrite (advanceRead (storeByte buffer byte))), ?_,
      hstored.readAdvanced.writeAdvanced.cleared, rfl⟩
    rw [pushCall, circularBufferPushByte, if_neg h.maxSize_ne_zero, h.store, if_pos hfull]
    rfl
  · refine ⟨clearEmpty (advanceWrite (storeByte buffer byte)), ?_,
      hstored.writeAdvanced.cleared, rfl⟩
    rw [pushCall, circularBufferPushByte, if_neg h.maxSize_ne_zero, h.store, if_neg hfull]
    rfl

theorem Indexed.load (h : Indexed size buffer) :
    buffer.buffer.load buffer.readIndex.toNat
      = some (buffer.buffer.cell buffer.readIndex.toNat) := by
  refine Block.load_of_lt ?_
  rw [h.block]
  exact h.read_lt

theorem Indexed.pop_sound (h : Indexed size buffer) :
    ∃ answer buffer', popCall buffer = some (answer, buffer') ∧ Indexed size buffer' ∧
      (Flagged buffer → Flagged buffer') := by
  by_cases hcount : circularBufferGetCount buffer = 0
  · refine ⟨(.errEmpty, none), buffer, ?_, h, id⟩
    rw [popCall, circularBufferPopByte, if_pos hcount]
    rfl
  · refine ⟨(.errNone, some (buffer.buffer.cell buffer.readIndex.toNat)),
      computeEmpty (advanceRead buffer), ?_, h.readAdvanced.computed,
      fun _ => flagged_computeEmpty _⟩
    rw [popCall, circularBufferPopByte, if_neg hcount, h.load]
    rfl

/-! ## What an interrupted call leaves -/

/-- **A POP WITH A PUSH INSIDE** ends with a sound buffer, wherever the push is: the
    last of the two to write the flag writes it in agreement with the indices. -/
theorem interruptedPop_sound (h : Indexed size buffer) (k : Nat) (byte : UInt8) :
    ∃ answer code buffer', interrupted (pushCall byte) k popByteBody none buffer
        = some (answer, code, buffer') ∧ Indexed size buffer' ∧ Flagged buffer' := by
  cases k with
  | zero =>
      obtain ⟨buffer₁, hpush, h₁, hclear⟩ := h.push_sound byte
      obtain ⟨answer, buffer', hpop, h', hflag'⟩ := h₁.pop_sound
      refine ⟨answer, .errNone, buffer', ?_, h', hflag' (flagged_of_clear hclear)⟩
      rw [interrupted_zero hpush, exec_popByteBody, hpop]
      rfl
  | succ k =>
      by_cases hcount : circularBufferGetCount buffer = 0
      · -- the pop returns at its first statement
        obtain ⟨buffer', hpush, h', hclear⟩ := h.push_sound byte
        refine ⟨(.errEmpty, none), .errNone, buffer', ?_, h', flagged_of_clear hclear⟩
        simp only [popByteBody, interrupted, if_pos hcount, hpush, Option.bind_eq_bind,
          Option.bind_some]
      · rcases (by omega : k = 0 ∨ k = 1 ∨ k = 2 ∨ k = 3 ∨ 4 ≤ k) with rfl | rfl | rfl | rfl | hk
        · obtain ⟨buffer₁, hpush, h₁, -⟩ := h.push_sound byte
          refine ⟨(.errNone, some (buffer₁.buffer.cell buffer₁.readIndex.toNat)), .errNone,
            computeEmpty (advanceRead buffer₁), ?_, h₁.readAdvanced.computed,
            flagged_computeEmpty _⟩
          simp only [popByteBody, interrupted, if_neg hcount, hpush, Option.bind_eq_bind,
            Option.bind_some, exec, h₁.load, Option.map_some]
        · obtain ⟨buffer₁, hpush, h₁, -⟩ := h.push_sound byte
          refine ⟨(.errNone, some (buffer.buffer.cell buffer.readIndex.toNat)), .errNone,
            computeEmpty (advanceRead buffer₁), ?_, h₁.readAdvanced.computed,
            flagged_computeEmpty _⟩
          simp only [popByteBody, interrupted, if_neg hcount, h.load, hpush, Option.bind_eq_bind,
            Option.bind_some, exec, Option.map_some]
        · obtain ⟨buffer₁, hpush, h₁, -⟩ := h.readAdvanced.push_sound byte
          refine ⟨(.errNone, some (buffer.buffer.cell buffer.readIndex.toNat)), .errNone,
            computeEmpty buffer₁, ?_, h₁.computed, flagged_computeEmpty _⟩
          simp only [popByteBody, interrupted, if_neg hcount, h.load, hpush, Option.bind_eq_bind,
            Option.bind_some, exec, Option.map_some]
        · obtain ⟨buffer₁, hpush, h₁, hclear⟩ := h.readAdvanced.computed.push_sound byte
          refine ⟨(.errNone, some (buffer.buffer.cell buffer.readIndex.toNat)), .errNone,
            buffer₁, ?_, h₁, flagged_of_clear hclear⟩
          simp only [popByteBody, interrupted, if_neg hcount, h.load, hpush, Option.bind_eq_bind,
            Option.bind_some, exec, Option.map_some]
        · obtain ⟨answer, popped, hpop, hpopped, -⟩ := h.pop_sound
          obtain ⟨buffer₁, hpush, h₁, hclear⟩ := hpopped.push_sound byte
          have hexec : exec popByteBody none buffer = some (answer, popped) := by
            rw [exec_popByteBody, hpop]
          refine ⟨answer, .errNone, buffer₁, ?_, h₁, flagged_of_clear hclear⟩
          rw [interrupted_of_length_le (Nat.succ_le_succ hk) hexec, hpush]
          rfl

/-- The statements of a push after the store, from any of the first four on, clear
    the flag. -/
theorem exec_pushByteRest_sound (h : Indexed size buffer) (full : Bool) {i : Nat} (hi : i ≤ 3) :
    ∃ buffer', exec (pushByteRest.drop i) full buffer = some (.errNone, buffer') ∧
      Indexed size buffer' ∧ buffer'.bufferIsEmpty = false := by
  match i with
  | 0 => exact ⟨_, rfl, (h.moved _).writeAdvanced.cleared, rfl⟩
  | 1 => exact ⟨_, rfl, (h.moved full).writeAdvanced.cleared, rfl⟩
  | 2 => exact ⟨_, rfl, h.writeAdvanced.cleared, rfl⟩
  | 3 => exact ⟨_, rfl, h.cleared, rfl⟩

/-- **A PUSH WITH A POP INSIDE** ends with a sound buffer, wherever the pop is. -/
theorem interruptedPush_sound (h : Indexed size buffer) (k : Nat) (byte : UInt8) :
    ∃ code answer buffer', interrupted popCall k (pushByteBody byte) false buffer
        = some (code, answer, buffer') ∧ Indexed size buffer' ∧ Flagged buffer' := by
  have hstored := h.stored byte
  have hrest : ∀ k, interrupted popCall (k + 2) (pushByteBody byte) false buffer
      = interrupted popCall k pushByteRest false (storeByte buffer byte) := by
    intro k
    simp only [pushByteBody, interrupted, if_neg h.maxSize_ne_zero, h.store, Option.map_some]
    rfl
  -- from a pop at a place of the rest, the rest goes on to the clear flag
  have hfinish : ∀ {buffer₁ : CircularBuffer w} (full : Bool) (k : Nat), k ≤ 3 →
      Indexed size buffer₁ →
      (∀ {answer buffer₂}, popCall buffer₁ = some (answer, buffer₂) →
        interrupted popCall k pushByteRest false (storeByte buffer byte)
          = (exec (pushByteRest.drop k) full buffer₂).map fun p => (p.1, answer, p.2)) →
      ∃ code answer buffer', interrupted popCall (k + 2) (pushByteBody byte) false buffer
        = some (code, answer, buffer') ∧ Indexed size buffer' ∧ Flagged buffer' := by
    intro buffer₁ full k hk h₁ heq
    obtain ⟨answer, buffer₂, hpop, h₂, -⟩ := h₁.pop_sound
    obtain ⟨buffer', hexec, h', hclear⟩ := exec_pushByteRest_sound h₂ full hk
    refine ⟨.errNone, answer, buffer', ?_, h', flagged_of_clear hclear⟩
    rw [hrest, heq hpop, hexec]
    rfl
  rcases (by omega : k = 0 ∨ k = 1 ∨ k = 2 ∨ k = 3 ∨ k = 4 ∨ k = 5 ∨ k = 6 ∨ 7 ≤ k) with
    rfl | rfl | rfl | rfl | rfl | rfl | rfl | hk
  · obtain ⟨answer, buffer₁, hpop, h₁, -⟩ := h.pop_sound
    obtain ⟨buffer', hpush, h', hclear⟩ := h₁.push_sound byte
    refine ⟨.errNone, answer, buffer', ?_, h', flagged_of_clear hclear⟩
    rw [interrupted_zero hpop, exec_pushByteBody, hpush]
    rfl
  · obtain ⟨answer, buffer₁, hpop, h₁, -⟩ := h.pop_sound
    obtain ⟨buffer', hexec, h', hclear⟩ :=
      exec_pushByteRest_sound (h₁.stored byte) false (Nat.zero_le 3)
    refine ⟨.errNone, answer, buffer', ?_, h', flagged_of_clear hclear⟩
    have htail : exec (pushByteBody byte).tail false buffer₁
        = exec pushByteRest false (storeByte buffer₁ byte) := by
      simp only [pushByteBody, List.tail_cons, exec, h₁.store, Option.map_some]
      rfl
    have hcheck : interrupted popCall 1 (pushByteBody byte) false buffer
        = interrupted popCall 0 (pushByteBody byte).tail false buffer := by
      simp only [pushByteBody, interrupted, if_neg h.maxSize_ne_zero, List.tail_cons]
    rw [hcheck, interrupted_zero hpop, htail]
    rw [List.drop_zero] at hexec
    rw [hexec]
    rfl
  · exact hfinish false 0 (by omega) hstored fun hpop => interrupted_zero hpop
  · exact hfinish _ 1 (by omega) hstored fun hpop => interrupted_zero hpop
  · exact hfinish _ 2 (by omega) (hstored.moved _) fun hpop => interrupted_zero hpop
  · exact hfinish _ 3 (by omega) (hstored.moved _).writeAdvanced fun hpop => interrupted_zero hpop
  · obtain ⟨answer, buffer', hpop, h', hflag'⟩ := (hstored.moved _).writeAdvanced.cleared.pop_sound
    refine ⟨.errNone, answer, buffer', ?_, h', hflag' (flagged_of_clear rfl)⟩
    rw [hrest]
    exact interrupted_zero hpop
  · obtain ⟨buffer₁, hpush, h₁, hclear⟩ := h.push_sound byte
    obtain ⟨answer, buffer', hpop, h', hflag'⟩ := h₁.pop_sound
    have hexec : exec (pushByteBody byte) false buffer = some (.errNone, buffer₁) := by
      rw [exec_pushByteBody, hpush]
    refine ⟨.errNone, answer, buffer', ?_, h', hflag' (flagged_of_clear hclear)⟩
    rw [interrupted_of_length_le hk hexec, hpop]
    rfl

/-! ## Runs with interrupts -/

/-- What the main loop does. -/
def concurrentStep : Step (CircularBuffer w) ConcurrentOp ConcurrentResponse
  | buffer, .call op =>
      (circularBufferStep buffer op).map fun (response, buffer') => (.answered response, buffer')
  | buffer, .interrupted .pushInPop k byte =>
      (interrupted (pushCall byte) k popByteBody none buffer).map
        fun (answer, code, buffer') => (.both (.popped answer.1 answer.2) (.pushed code), buffer')
  | buffer, .interrupted .popInPush k byte =>
      (interrupted popCall k (pushByteBody byte) false buffer).map
        fun (code, answer, buffer') => (.both (.popped answer.1 answer.2) (.pushed code), buffer')

/-- The condition on the contents for the place of an interrupt. -/
def InterruptSafe (size : SizeT w) (buffer : CircularBuffer w) : ConcurrentOp → Prop
  | .call _ => True
  | .interrupted .pushInPop k byte => PopSafe size.toNat (contents buffer) byte k
  | .interrupted .popInPush k byte => PushSafe size.toNat (contents buffer) byte k

section Runs

variable {held : List UInt8}

/-- The answer of a pop is its code and what it stores. -/
theorem popResponse_eq (held : List UInt8) :
    popResponse held = .popped (popAnswer held).1 (popAnswer held).2 := by
  cases held <;> rfl

/-- An interrupted call with the effect of an order is in order. -/
theorem Represents.inOrder (h : Represents size buffer held) {byte : UInt8}
    {answer : ErrorCode × Option UInt8} {code : ErrorCode} {left : List UInt8}
    (horder : Serializable buffer byte (some (answer, code, left))) :
    InOrder size.toNat held byte (.popped answer.1 answer.2, .pushed code, left) := by
  rw [inOrder_iff, popResponse_eq, popResponse_eq, fifoPushed_of_room h.shows.tail_room]
  rcases h.shows.serializable_iff.mp horder with heq | heq
  · obtain ⟨rfl, hrest⟩ := Prod.mk.inj heq
    obtain ⟨rfl, rfl⟩ := Prod.mk.inj hrest
    exact .inl rfl
  · obtain ⟨rfl, hrest⟩ := Prod.mk.inj heq
    obtain ⟨rfl, rfl⟩ := Prod.mk.inj hrest
    exact .inr rfl

/-- **ONE CALL**, interrupted at a place that meets the condition or not interrupted,
    is linearized, and leaves a buffer that represents what the FIFO holds. -/
theorem linearizes_op (buffer : CircularBuffer w) (held : List UInt8) (op : ConcurrentOp)
    (h : Represents size buffer held) (hsafe : InterruptSafe size buffer op) :
    ∃ response buffer' calls answers held',
      concurrentStep buffer op = some (response, buffer') ∧
      LinearizesOp op response calls answers ∧
      runSpec (overwritingFifo size.toNat) held calls = (answers, held') ∧
      Represents size buffer' held' := by
  obtain ⟨hindexed, -⟩ := h.indexed
  cases op with
  | call op =>
      obtain ⟨buffer', hstep, h'⟩ := represents_simulates size buffer held op h
      refine ⟨_, buffer', [op], _, _, ?_, .call op _, rfl, h'⟩
      rw [concurrentStep, hstep]
      rfl
  | interrupted inside k byte =>
      cases inside with
      | pushInPop =>
          rw [InterruptSafe, h.shows.contents_eq, ← h.pop_serializable_iff byte k,
            interruptedPop] at hsafe
          obtain ⟨answer, code, buffer', hrun, h', hflag'⟩ := interruptedPop_sound hindexed k byte
          rw [hrun] at hsafe
          obtain ⟨calls, answers, hlinear, hspec⟩ := (h.inOrder hsafe).linearizes .pushInPop k
          refine ⟨_, buffer', calls, answers, _, ?_, hlinear, hspec, h'.represents hflag'⟩
          rw [concurrentStep, hrun]
          rfl
      | popInPush =>
          rw [InterruptSafe, h.shows.contents_eq, ← h.push_serializable_iff byte k,
            interruptedPush] at hsafe
          obtain ⟨code, answer, buffer', hrun, h', hflag'⟩ := interruptedPush_sound hindexed k byte
          rw [hrun] at hsafe
          obtain ⟨calls, answers, hlinear, hspec⟩ := (h.inOrder hsafe).linearizes .popInPush k
          refine ⟨_, buffer', calls, answers, _, ?_, hlinear, hspec, h'.represents hflag'⟩
          rw [concurrentStep, hrun]
          rfl

/-- Away from both ends of the buffer, every place of an interrupt is safe. -/
theorem interruptSafe_of_between (htwo : 2 ≤ (contents buffer).length)
    (hroom : (contents buffer).length < size.toNat) (op : ConcurrentOp) :
    InterruptSafe size buffer op := by
  cases op with
  | call op => exact trivial
  | interrupted inside k byte =>
      cases inside with
      | pushInPop =>
          match k with
          | 2 =>
              intro hfull
              exact absurd hfull (Nat.ne_of_lt hroom)
          | 3 =>
              rintro (hone | hfull)
              · exact absurd hone (Nat.ne_of_gt htwo)
              · exact absurd hfull (Nat.ne_of_lt hroom)
          | 0 | 1 | _ + 4 => exact trivial
      | popInPush =>
          match k with
          | 2 | 3 =>
              intro hfull
              exact absurd hfull (Nat.ne_of_lt hroom)
          | 4 =>
              intro _ hfull
              exact absurd hfull (Nat.ne_of_lt hroom)
          | 5 =>
              constructor
              · intro hnil
                rw [hnil] at htwo
                exact absurd htwo (Nat.not_succ_le_zero 1)
              · intro _ hfull
                exact absurd hfull (Nat.ne_of_lt hroom)
          | 0 | 1 | _ + 6 => exact trivial

end Runs

/-- **INTERRUPTED RUNS ARE LINEARIZABLE**: after an accepted init, for every run of
    calls, each interrupted by the other side after any number of its statements
    where that is safe, there are plain calls, each interrupt before or after the
    call it came in, for which the FIFO gives the same answers and holds at the
    end what the buffer does.  With two bytes or more in the buffer, and room for
    another, every place is safe. -/
theorem circular_buffer_runs_linearizable (buffer : CircularBuffer w)
    {config : CircularBufferConfig w} (hblock : config.buffer.size = config.bufferSize.toNat)
    (hsize : 1 ≤ config.bufferSize.toNat) :
    ∃ buffer₀, circularBufferInit buffer config = (.errNone, buffer₀) ∧
      (∀ ops, Admits concurrentStep (InterruptSafe config.bufferSize) buffer₀ ops →
        ∃ responses buffer' calls answers,
          run concurrentStep buffer₀ ops = some (responses, buffer') ∧
          Linearizes ops responses calls answers ∧
          runSpec (overwritingFifo config.bufferSize.toNat) [] calls
            = (answers, contents buffer')) ∧
      ∀ buffer' op, 2 ≤ (contents buffer').length →
        (contents buffer').length < config.bufferSize.toNat →
        InterruptSafe config.bufferSize buffer' op := by
  obtain ⟨buffer₀, hinit, h₀⟩ := init_represents buffer hblock hsize
  refine ⟨buffer₀, hinit, ?_, fun buffer' op htwo hroom => interruptSafe_of_between htwo hroom op⟩
  intro ops hadmits
  obtain ⟨responses, buffer', calls, answers, held, hrun, hlinear, hspec, h⟩ :=
    linearizes_run linearizes_op ops h₀ hadmits
  refine ⟨responses, buffer', calls, answers, hrun, hlinear, ?_⟩
  rw [hspec, h.shows.contents_eq]

/-- Two bytes of storage: a push, a pop with a push after its load, and a push with a
    pop after its store. -/
theorem circular_buffer_runs_linearizable_two_bytes :
    ∃ responses buffer' calls answers,
      run concurrentStep twoByteBuffer [.call (.pushByte 5), .interrupted .pushInPop 2 6,
          .interrupted .popInPush 2 7] = some (responses, buffer') ∧
      Linearizes [.call (.pushByte 5), .interrupted .pushInPop 2 6, .interrupted .popInPush 2 7]
        responses calls answers ∧
      runSpec (overwritingFifo 2) [] calls = (answers, contents buffer') := by
  obtain ⟨buffer₀, hinit, hruns, -⟩ := circular_buffer_runs_linearizable twoByteBuffer
    (rfl : twoByteRing.buffer.size = twoByteRing.bufferSize.toNat) (by decide)
  obtain ⟨-, rfl⟩ := Prod.mk.inj hinit
  refine hruns _ (Admits.cons trivial rfl (Admits.cons ?_ rfl (Admits.cons ?_ rfl trivial)))
  · intro hfull
    exact absurd hfull (by decide)
  · intro hfull
    exact absurd hfull (by decide)

end CembCircularBuffer
