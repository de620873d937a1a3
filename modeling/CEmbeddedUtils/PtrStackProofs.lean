import CEmbeddedUtils.ErrorCodes
import CEmbeddedUtils.MemoryProofs
import CEmbeddedUtils.SizeTProofs

/-! # The pointer stack

    `ptr_stack.c` keeps pointers in a caller-supplied array, `stack_top` of them
    from slot 0 on.  Whether the stack is empty is asked of the number of free
    slots, not of `stack_top`.  `StackHolds` relates a stack to the list of its
    values, the top first; each operation is specified over it once. -/

namespace CembPtrStack

open Memory

variable {w : Nat} {α : Type}

/-- `PtrStack`. -/
structure PtrStack (w : Nat) (α : Type) where
  stack : Block α
  maxItemCount : SizeT w
  stackTop : SizeT w

/-! ## The source -/

def ptrStackInit (stack : PtrStack w α) (stackBuffer : Block α) (stackItemCount : SizeT w) :
    ErrorCode × PtrStack w α :=
  if stackItemCount = 0 then (.errInvalidArg, stack)
  else (.errNone, { stack := stackBuffer, maxItemCount := stackItemCount, stackTop := 0 })

def ptrStackDeinit (stack : PtrStack w α) : PtrStack w α :=
  { stack with maxItemCount := 0, stackTop := 0 }

def ptrStackGetRemainingCount (stack : PtrStack w α) : SizeT w :=
  stack.maxItemCount - stack.stackTop

def ptrStackPush (stack : PtrStack w α) (value : α) : Option (ErrorCode × PtrStack w α) :=
  if ptrStackGetRemainingCount stack = 0 then some (.errNoMem, stack)
  else do
    let slots ← stack.stack.store stack.stackTop.toNat value
    some (.errNone, { stack with stack := slots, stackTop := stack.stackTop + 1 })

/-- The second component is what is stored through `value`, if anything. -/
def ptrStackPop (stack : PtrStack w α) : Option (ErrorCode × Option α × PtrStack w α) :=
  if ptrStackGetRemainingCount stack = stack.maxItemCount then some (.errEmpty, none, stack)
  else do
    let stackTop := stack.stackTop - 1
    let value ← stack.stack.load stackTop.toNat
    some (.errNone, some value, { stack with stackTop := stackTop })

/-! ## The list of values -/

/-- The stack has `capacity` slots, in an array of at least as many, and holds
    `values`, the top first. -/
structure StackHolds (capacity : SizeT w) (stack : PtrStack w α) (values : List α) : Prop where
  maxItemCount : stack.maxItemCount = capacity
  size : capacity.toNat ≤ stack.stack.size
  top : stack.stackTop.toNat = values.length
  length_le : values.length ≤ capacity.toNat
  cells : stack.stack.slice 0 values.length = values.reverse

section Operations

variable {capacity : SizeT w} {stack : PtrStack w α} {values : List α}

/-- The number of free slots is exact: it does not wrap. -/
theorem StackHolds.remaining (h : StackHolds capacity stack values) :
    (ptrStackGetRemainingCount stack).toNat = capacity.toNat - values.length := by
  have hle : stack.stackTop.toNat ≤ stack.maxItemCount.toNat := by
    rw [h.top, h.maxItemCount]
    exact h.length_le
  rw [ptrStackGetRemainingCount, SizeT.toNat_sub_of_le hle, h.top, h.maxItemCount]

theorem StackHolds.full_iff (h : StackHolds capacity stack values) :
    ptrStackGetRemainingCount stack = 0 ↔ values.length = capacity.toNat := by
  have hle := h.length_le
  rw [← SizeT.toNat_eq_zero, h.remaining]
  omega

theorem StackHolds.empty_iff (h : StackHolds capacity stack values) :
    ptrStackGetRemainingCount stack = stack.maxItemCount ↔ values = [] := by
  have hle := h.length_le
  rw [← BitVec.toNat_inj, h.remaining, h.maxItemCount, ← List.length_eq_zero_iff]
  omega

/-- A fresh stack is empty. -/
theorem stackHolds_init {stackBuffer : Block α} (hsize : capacity.toNat ≤ stackBuffer.size) :
    StackHolds capacity { stack := stackBuffer, maxItemCount := capacity, stackTop := 0 }
      ([] : List α) where
  maxItemCount := rfl
  size := hsize
  top := by simp
  length_le := Nat.zero_le _
  cells := rfl

theorem StackHolds.push_full (h : StackHolds capacity stack values)
    (hfull : values.length = capacity.toNat) (value : α) :
    ptrStackPush stack value = some (.errNoMem, stack) :=
  if_pos (h.full_iff.mpr hfull)

/-- A push with room left puts the value on top. -/
theorem StackHolds.push (h : StackHolds capacity stack values)
    (hroom : values.length < capacity.toNat) (value : α) :
    ∃ stack', ptrStackPush stack value = some (.errNone, stack') ∧
      StackHolds capacity stack' (value :: values) := by
  have hcap := capacity.isLt
  have hone : (1 : SizeT w).toNat = 1 :=
    SizeT.toNat_one
      (SizeT.width_pos (a := stack.stackTop) (b := capacity) (by rw [h.top]; exact hroom))
  have hstore : stack.stack.store stack.stackTop.toNat value
      = some { stack.stack with
          cell := Function.update stack.stack.cell stack.stackTop.toNat value } :=
    Block.store_of_lt (by rw [h.top]; exact Nat.lt_of_lt_of_le hroom h.size) value
  have hpush : ptrStackPush stack value = some (.errNone,
      { stack with
        stack := { stack.stack with
          cell := Function.update stack.stack.cell stack.stackTop.toNat value }
        stackTop := stack.stackTop + 1 }) := by
    rw [ptrStackPush, if_neg (mt h.full_iff.mp (Nat.ne_of_lt hroom)), hstore]
    rfl
  refine ⟨_, hpush, h.maxItemCount, h.size, ?_, hroom, ?_⟩
  · show (stack.stackTop + 1).toNat = values.length + 1
    rw [SizeT.toNat_add_of_lt (by rw [h.top, hone]; omega), h.top, hone]
  · rw [List.length_cons, List.reverse_cons, Block.slice_add, ← h.cells]
    congr 1
    · refine Block.slice_congr ?_
      intro i hi
      show Function.update stack.stack.cell stack.stackTop.toNat value (0 + i) = _
      rw [h.top, Function.update_of_ne (by omega)]
    · show [Function.update stack.stack.cell stack.stackTop.toNat value
        (0 + values.length + 0)] = [value]
      rw [h.top, Nat.zero_add, Nat.add_zero, Function.update_self]

theorem StackHolds.pop_empty (h : StackHolds capacity stack ([] : List α)) :
    ptrStackPop stack = some (.errEmpty, none, stack) :=
  if_pos (h.empty_iff.mpr rfl)

/-- A pop from a stack with values hands out the top one. -/
theorem StackHolds.pop {value : α} (h : StackHolds capacity stack (value :: values)) :
    ∃ stack', ptrStackPop stack = some (.errNone, some value, stack') ∧
      StackHolds capacity stack' values := by
  have htop := h.top
  have hle := h.length_le
  have hcells := h.cells
  rw [List.length_cons] at htop hle hcells
  have hone : (1 : SizeT w).toNat = 1 :=
    SizeT.toNat_one (SizeT.width_pos (a := (0 : SizeT w)) (b := stack.stackTop) (by simp [htop]))
  have hnew : (stack.stackTop - 1).toNat = values.length := by
    rw [SizeT.toNat_sub_of_le (by rw [hone, htop]; omega), hone, htop]
    omega
  rw [Block.slice_add, List.reverse_cons] at hcells
  obtain ⟨hrest, hlast⟩ := List.append_inj hcells (by simp)
  have hvalue : stack.stack.cell values.length = value := by
    have hsingle : [stack.stack.cell (0 + values.length + 0)] = [value] := hlast
    rw [Nat.zero_add, Nat.add_zero] at hsingle
    exact (List.cons.inj hsingle).1
  have hload : stack.stack.load (stack.stackTop - 1).toNat = some value := by
    rw [Block.load_of_lt (by rw [hnew]; exact Nat.lt_of_lt_of_le hle h.size), hnew, hvalue]
  have hpop : ptrStackPop stack
      = some (.errNone, some value, { stack with stackTop := stack.stackTop - 1 }) := by
    rw [ptrStackPop, if_neg (mt h.empty_iff.mp (List.cons_ne_nil _ _))]
    simp only [hload, Option.bind_eq_bind, Option.bind_some]
  exact ⟨_, hpop, h.maxItemCount, h.size, hnew, Nat.le_of_succ_le hle, hrest⟩

end Operations

end CembPtrStack
