import CEmbeddedUtils.PtrStackProofs
import CEmbeddedUtils.TransducerProofs

/-! # The pointer stack refines a bounded LIFO

    A pop leaves its value in the array: only `stack_top` moves.  The slots from
    `stack_top` on are stale, and nothing reads them before a push has written
    them again.  So the list of values, the top first, is all that a run of calls
    can tell, and `StackHolds` is a simulation between the stack and that list. -/

namespace CembPtrStack

open Memory Transducer

variable {w : Nat} {α : Type}

/-- The calls a client makes between init and deinit. -/
inductive PtrStackOp (α : Type) where
  | push (value : α)
  | pop
  | getRemainingCount

/-- What a call answers; a pop stores a value only when it succeeds. -/
inductive PtrStackResponse (α : Type) where
  | pushed (code : ErrorCode)
  | popped (code : ErrorCode) (value : Option α)
  | remaining (count : Nat)

/-- One call. -/
def ptrStackStep : Step (PtrStack w α) (PtrStackOp α) (PtrStackResponse α)
  | stack, .push value =>
      (ptrStackPush stack value).map fun (code, stack') => (.pushed code, stack')
  | stack, .pop =>
      (ptrStackPop stack).map fun (code, value, stack') => (.popped code value, stack')
  | stack, .getRemainingCount =>
      some (.remaining (ptrStackGetRemainingCount stack).toNat, stack)

/-- The purpose of the component: a last-in first-out stack of at most `capacity`
    values, the top first. -/
def boundedLifo (capacity : Nat) : Spec (List α) (PtrStackOp α) (PtrStackResponse α)
  | values, .push value =>
      if values.length = capacity then (.pushed .errNoMem, values)
      else (.pushed .errNone, value :: values)
  | [], .pop => (.popped .errEmpty none, [])
  | value :: values, .pop => (.popped .errNone (some value), values)
  | values, .getRemainingCount => (.remaining (capacity - values.length), values)

section Calls

variable {capacity : SizeT w} {stack : PtrStack w α} {values : List α}

/-- **A PUSH IS REFUSED EXACTLY WHEN FULL**, and then changes nothing. -/
theorem StackHolds.push_eq_errNoMem_iff (h : StackHolds capacity stack values) (value : α)
    (stack' : PtrStack w α) :
    ptrStackPush stack value = some (.errNoMem, stack') ↔
      values.length = capacity.toNat ∧ stack' = stack := by
  constructor
  · intro hpush
    rcases Nat.lt_or_eq_of_le h.length_le with hroom | hfull
    · obtain ⟨stack₁, hpush₁, -⟩ := h.push hroom value
      rw [hpush₁] at hpush
      cases hpush
    · rw [h.push_full hfull value] at hpush
      obtain ⟨-, rfl⟩ := Prod.mk.inj (Option.some.inj hpush)
      exact ⟨hfull, rfl⟩
  · rintro ⟨hfull, rfl⟩
    exact h.push_full hfull value

/-- **A POP IS REFUSED EXACTLY WHEN EMPTY**, and then changes nothing and stores
    nothing. -/
theorem StackHolds.pop_eq_errEmpty_iff (h : StackHolds capacity stack values)
    (out : Option α) (stack' : PtrStack w α) :
    ptrStackPop stack = some (.errEmpty, out, stack') ↔
      values = [] ∧ out = none ∧ stack' = stack := by
  constructor
  · intro hpop
    cases values with
    | nil =>
        rw [h.pop_empty] at hpop
        obtain ⟨-, hrest⟩ := Prod.mk.inj (Option.some.inj hpop)
        obtain ⟨rfl, rfl⟩ := Prod.mk.inj hrest
        exact ⟨rfl, rfl, rfl⟩
    | cons value values =>
        obtain ⟨stack₁, hpop₁, -⟩ := h.pop
        rw [hpop₁] at hpop
        cases hpop
  · rintro ⟨rfl, rfl, rfl⟩
    exact h.pop_empty

/-- An accepted init gives an empty stack. -/
theorem init_stackHolds (stack : PtrStack w α) {stackBuffer : Block α}
    {stackItemCount : SizeT w} (hcount : 1 ≤ stackItemCount.toNat)
    (hbuffer : stackItemCount.toNat ≤ stackBuffer.size) :
    ∃ stack₀, ptrStackInit stack stackBuffer stackItemCount = (.errNone, stack₀) ∧
      StackHolds stackItemCount stack₀ [] := by
  have hne : ¬ stackItemCount = 0 := by
    rw [← SizeT.toNat_eq_zero]
    exact Nat.ne_of_gt hcount
  exact ⟨_, if_neg hne, stackHolds_init hbuffer⟩

end Calls

/-- **ONE CALL** answers as the bounded LIFO does. -/
theorem stackHolds_simulates (capacity : SizeT w) :
    Simulates ptrStackStep (boundedLifo (α := α) capacity.toNat) (StackHolds capacity) := by
  intro stack values op h
  cases op with
  | push value =>
      rcases Nat.lt_or_eq_of_le h.length_le with hroom | hfull
      · obtain ⟨stack', hpush, h'⟩ := h.push hroom value
        refine ⟨stack', ?_, ?_⟩
        · rw [ptrStackStep, hpush, boundedLifo, if_neg (Nat.ne_of_lt hroom)]
          rfl
        · rw [boundedLifo, if_neg (Nat.ne_of_lt hroom)]
          exact h'
      · refine ⟨stack, ?_, ?_⟩
        · rw [ptrStackStep, h.push_full hfull value, boundedLifo, if_pos hfull]
          rfl
        · rw [boundedLifo, if_pos hfull]
          exact h
  | pop =>
      cases values with
      | nil =>
          refine ⟨stack, ?_, h⟩
          rw [ptrStackStep, h.pop_empty]
          rfl
      | cons value values =>
          obtain ⟨stack', hpop, h'⟩ := h.pop
          refine ⟨stack', ?_, h'⟩
          rw [ptrStackStep, hpop]
          rfl
  | getRemainingCount =>
      refine ⟨stack, ?_, ?_⟩
      · rw [ptrStackStep, h.remaining]
        cases values <;> rfl
      · cases values <;> exact h

/-- **THE POINTER STACK IS A BOUNDED LIFO**: after init, every run of calls answers
    as the list of that capacity does; and wherever a run has come to, a push is
    refused exactly when the list is full, a pop exactly when it is empty, nothing
    changes by a refused call, and the free slots are counted without a wrap. -/
theorem ptr_stack_refines_bounded_lifo (stack : PtrStack w α) {stackBuffer : Block α}
    {stackItemCount : SizeT w} (hcount : 1 ≤ stackItemCount.toNat)
    (hbuffer : stackItemCount.toNat ≤ stackBuffer.size) :
    ∃ stack₀, ptrStackInit stack stackBuffer stackItemCount = (.errNone, stack₀) ∧
      ∀ ops : List (PtrStackOp α), ∃ stack₁ values,
        run ptrStackStep stack₀ ops
          = some ((runSpec (boundedLifo stackItemCount.toNat) [] ops).1, stack₁) ∧
        values = (runSpec (boundedLifo stackItemCount.toNat) [] ops).2 ∧
        (∀ value stack₂, ptrStackPush stack₁ value = some (.errNoMem, stack₂) ↔
          values.length = stackItemCount.toNat ∧ stack₂ = stack₁) ∧
        (∀ out stack₂, ptrStackPop stack₁ = some (.errEmpty, out, stack₂) ↔
          values = [] ∧ out = none ∧ stack₂ = stack₁) ∧
        (ptrStackGetRemainingCount stack₁).toNat + values.length
          = stackItemCount.toNat := by
  obtain ⟨stack₀, hinit, h₀⟩ := init_stackHolds stack hcount hbuffer
  refine ⟨stack₀, hinit, ?_⟩
  intro ops
  obtain ⟨stack₁, hrun, h₁⟩ :=
    run_refines (stackHolds_simulates stackItemCount) ops stack₀ [] h₀
  refine ⟨stack₁, _, hrun, rfl, ?_, ?_, ?_⟩
  · intro value stack₂
    exact h₁.push_eq_errNoMem_iff value stack₂
  · intro out stack₂
    exact h₁.pop_eq_errEmpty_iff out stack₂
  · rw [h₁.remaining, Nat.sub_add_cancel h₁.length_le]

/-- Three slots, one more than the stack is told of. -/
def threeSlots : Block Nat := ⟨3, fun _ => 0⟩

/-- The LIFO of two values: two pushes and a refused one, two pops and a refused
    one, and two places are free again. -/
theorem ptr_stack_refines_bounded_lifo_two_values :
    ∃ stack₀ stack₁, ptrStackInit (⟨threeSlots, 0, 0⟩ : PtrStack 8 Nat) threeSlots 2
        = (.errNone, stack₀) ∧
      run ptrStackStep stack₀ [.push 5, .push 7, .push 9, .pop, .pop, .pop,
          .getRemainingCount]
        = some ([.pushed .errNone, .pushed .errNone, .pushed .errNoMem,
            .popped .errNone (some 7), .popped .errNone (some 5), .popped .errEmpty none,
            .remaining 2], stack₁) := by
  have hcount : 1 ≤ (2 : SizeT 8).toNat := by decide
  have hbuffer : (2 : SizeT 8).toNat ≤ threeSlots.size := by decide
  obtain ⟨stack₀, hinit, hruns⟩ :=
    ptr_stack_refines_bounded_lifo ⟨threeSlots, 0, 0⟩ hcount hbuffer
  obtain ⟨stack₁, -, hrun, -⟩ := hruns [.push 5, .push 7, .push 9, .pop, .pop, .pop,
    .getRemainingCount]
  exact ⟨stack₀, stack₁, hinit, hrun⟩

end CembPtrStack
