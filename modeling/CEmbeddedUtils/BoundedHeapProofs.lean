import CEmbeddedUtils.ErrorCodes
import CEmbeddedUtils.HeapOrderProofs
import CEmbeddedUtils.LoopProofs
import CEmbeddedUtils.MemoryProofs
import CEmbeddedUtils.SizeTProofs
import CEmbeddedUtils.TransducerProofs

/-! # The bounded heap — nothing lost, nothing duplicated

    `bounded_heap.c` keeps `void *` items in a caller-supplied array and orders
    them by a caller-supplied comparator.  This file embeds the component and
    proves what holds for ANY comparator: every call ends, touches slots of the
    array only, and moves items without losing or duplicating one.

    The indices are natural numbers.  An array of pointers has fewer than
    `2 ^ (w - 1)` slots on a `w`-bit machine, and there no round of a loop
    wraps an index (`bounded_heap_indices_exact`); the counts are at most the
    number of slots.  A storage access outside the array is undefined (`none`), and so is
    a loop that does not end. -/

namespace CembBoundedHeap

open BoundedLoop HeapOrder Memory Transducer

variable {α : Type}

/-- `BoundedHeapConfig`.  `compare parent child` says that the two have to be
    swapped. -/
structure BoundedHeapConfig (α : Type) where
  heapStorage : Block α
  elementCount : Nat
  compare : α → α → Bool

/-- `BoundedHeap`. -/
structure BoundedHeap (α : Type) where
  config : BoundedHeapConfig α
  itemsInHeap : Nat
  heapMaxSize : Nat

/-- The contents of the storage array, by slot. -/
def BoundedHeap.slots (heap : BoundedHeap α) : Nat → α := heap.config.heapStorage.cell

/-- The same heap with other contents in its storage array. -/
def BoundedHeap.withSlots (heap : BoundedHeap α) (f : Nat → α) : BoundedHeap α :=
  { heap with config :=
      { heap.config with heapStorage := { heap.config.heapStorage with cell := f } } }

/-- The items in the heap: those of the live slots `[0, items_in_heap)`. -/
def BoundedHeap.liveItems (heap : BoundedHeap α) : Multiset α :=
  items heap.itemsInHeap heap.slots

/-! ## The source -/

def boundedHeapValidateConfig (config : BoundedHeapConfig α) : ErrorCode :=
  if config.elementCount = 0 then .errInvalidArg else .errNone

def boundedHeapGetNextEmptyIndex (heap : BoundedHeap α) : Nat := heap.itemsInHeap

def boundedHeapGetIndexOfParent (index : Nat) : Nat := (index - 1) / 2

def boundedHeapGetIndexOfLeftChild (index : Nat) : Nat := 2 * index + 1

def boundedHeapGetIndexOfRightChild (index : Nat) : Nat := 2 * index + 2

def boundedHeapGetValueAt (heap : BoundedHeap α) (index : Nat) : Option α :=
  heap.config.heapStorage.load index

def boundedHeapSwapValuesAtIndex (heap : BoundedHeap α) (indexA indexB : Nat) :
    Option (BoundedHeap α) := do
  let tmp ← heap.config.heapStorage.load indexA
  let valueB ← heap.config.heapStorage.load indexB
  let storage ← heap.config.heapStorage.store indexA valueB
  let storage ← storage.store indexB tmp
  some { heap with config := { heap.config with heapStorage := storage } }

def boundedHeapGetRemaining (heap : BoundedHeap α) : Nat :=
  heap.heapMaxSize - heap.itemsInHeap

def boundedHeapGetSize (heap : BoundedHeap α) : Nat := heap.itemsInHeap

def boundedHeapInit (heap : BoundedHeap α) (config : BoundedHeapConfig α) :
    ErrorCode × BoundedHeap α :=
  match boundedHeapValidateConfig config with
  | .errNone =>
      (.errNone, { config := config, heapMaxSize := config.elementCount, itemsInHeap := 0 })
  | ret => (ret, heap)

def boundedHeapDeinit (heap : BoundedHeap α) : BoundedHeap α :=
  { heap with itemsInHeap := 0, heapMaxSize := 0 }

/-- The second component is what is stored through `heap_item`, if anything. -/
def boundedHeapPeek (heap : BoundedHeap α) : Option (ErrorCode × Option α) :=
  if boundedHeapGetSize heap = 0 then some (.errEmpty, none)
  else do
    let heapItem ← heap.config.heapStorage.load 0
    some (.errNone, some heapItem)

/-- One round of the `while (!done)` loop of `bounded_heap_pop`: the heap and
    `parent_idx`. -/
def boundedHeapSiftDown : BoundedHeap α × Nat →
    Option (Control (BoundedHeap α × Nat) (BoundedHeap α))
  | (heap, parentIdx) =>
      let leftChildIdx := boundedHeapGetIndexOfLeftChild parentIdx
      let rightChildIdx := boundedHeapGetIndexOfRightChild parentIdx
      if leftChildIdx ≥ boundedHeapGetSize heap ∨ rightChildIdx ≥ boundedHeapGetSize heap then
        some (.done heap)
      else do
        let parent ← boundedHeapGetValueAt heap parentIdx
        let left ← boundedHeapGetValueAt heap leftChildIdx
        let right ← boundedHeapGetValueAt heap rightChildIdx
        let leftWants := heap.config.compare parent left
        let rightWants := heap.config.compare parent right
        -- swap arbitration: when both children want the place, the better one gets it
        let swapWithRight := heap.config.compare left right
        let leftChildSwap := if leftWants && rightWants then !swapWithRight else leftWants
        let rightChildSwap := if leftWants && rightWants then swapWithRight else rightWants
        if leftChildSwap then do
          let heap ← boundedHeapSwapValuesAtIndex heap parentIdx leftChildIdx
          some (.again (heap, leftChildIdx))
        else if rightChildSwap then do
          let heap ← boundedHeapSwapValuesAtIndex heap parentIdx rightChildIdx
          some (.again (heap, rightChildIdx))
        else
          some (.done heap)

def boundedHeapPop (heap : BoundedHeap α) :
    Option (ErrorCode × Option α × BoundedHeap α) :=
  if boundedHeapGetSize heap = 0 then some (.errEmpty, none, heap)
  else do
    let heapItem ← heap.config.heapStorage.load 0
    let heap := { heap with itemsInHeap := heap.itemsInHeap - 1 }
    let heap ← boundedHeapSwapValuesAtIndex heap 0 (boundedHeapGetNextEmptyIndex heap)
    let heap ← loop boundedHeapSiftDown (heap.itemsInHeap + 1) (heap, 0)
    some (.errNone, some heapItem, heap)

/-- One round of the `while (!done)` loop of `bounded_heap_push`: the heap and
    `child_idx`. -/
def boundedHeapBubbleUp : BoundedHeap α × Nat →
    Option (Control (BoundedHeap α × Nat) (BoundedHeap α))
  | (heap, childIdx) =>
      if childIdx = 0 then some (.done heap)
      else do
        let parentIdx := boundedHeapGetIndexOfParent childIdx
        let parent ← boundedHeapGetValueAt heap parentIdx
        let child ← boundedHeapGetValueAt heap childIdx
        if heap.config.compare parent child then do
          let heap ← boundedHeapSwapValuesAtIndex heap parentIdx childIdx
          some (.again (heap, parentIdx))
        else
          some (.done heap)

def boundedHeapPush (heap : BoundedHeap α) (heapItem : α) :
    Option (ErrorCode × BoundedHeap α) :=
  if boundedHeapGetRemaining heap = 0 then some (.errNoMem, heap)
  else do
    let childIdx := boundedHeapGetNextEmptyIndex heap
    let storage ← heap.config.heapStorage.store childIdx heapItem
    let heap := { heap with
      config := { heap.config with heapStorage := storage }
      itemsInHeap := heap.itemsInHeap + 1 }
    if boundedHeapGetSize heap = 1 then
      some (.errNone, heap)
    else do
      let heap ← loop boundedHeapBubbleUp (childIdx + 1) (heap, childIdx)
      some (.errNone, heap)

/-! ## The heap as a machine -/

/-- The calls a client makes between init and deinit. -/
inductive BoundedHeapOp (α : Type) where
  | push (heapItem : α)
  | pop
  | peek

/-- One call; the response is the code and the item handed out, if any. -/
def boundedHeapStep : Step (BoundedHeap α) (BoundedHeapOp α) (ErrorCode × Option α)
  | heap, .push heapItem =>
      (boundedHeapPush heap heapItem).map fun (code, heap') => ((code, none), heap')
  | heap, .pop =>
      (boundedHeapPop heap).map fun (code, item, heap') => ((code, item), heap')
  | heap, .peek =>
      (boundedHeapPeek heap).map fun (code, item) => ((code, item), heap)

/-! ## Swaps -/

@[simp] theorem withSlots_slots (heap : BoundedHeap α) (f : Nat → α) :
    (heap.withSlots f).slots = f := rfl

/-- A value inside the array is the content of its slot. -/
theorem getValueAt_of_lt {heap : BoundedHeap α} {i : Nat}
    (h : i < heap.config.heapStorage.size) :
    boundedHeapGetValueAt heap i = some (heap.slots i) := Block.load_of_lt h

/-- Swapping two slots of the array exchanges their contents. -/
theorem swapValuesAtIndex_of_lt {heap : BoundedHeap α} {a b : Nat}
    (ha : a < heap.config.heapStorage.size) (hb : b < heap.config.heapStorage.size) :
    boundedHeapSwapValuesAtIndex heap a b
      = some (heap.withSlots (heap.slots ∘ Equiv.swap a b)) := by
  have hcell : Function.update (Function.update heap.config.heapStorage.cell a
        (heap.config.heapStorage.cell b)) b (heap.config.heapStorage.cell a)
      = heap.slots ∘ Equiv.swap a b := by
    rw [Equiv.swap_comm, Equiv.comp_swap_eq_update]
    rfl
  have hb' : b < (Block.mk heap.config.heapStorage.size (Function.update
      heap.config.heapStorage.cell a (heap.config.heapStorage.cell b))).size := hb
  simp only [boundedHeapSwapValuesAtIndex, Block.load_of_lt ha, Block.load_of_lt hb,
    Block.store_of_lt ha, Option.bind_eq_bind, Option.bind_some]
  rw [Block.store_of_lt hb', Option.bind_some, hcell]
  rfl

/-- `heap'` is `heap` with the items of its first `n` slots rearranged. -/
structure Rearranges (n : Nat) (heap heap' : BoundedHeap α) : Prop where
  same : heap' = heap.withSlots heap'.slots
  items_eq : items n heap'.slots = items n heap.slots
  frame : ∀ i, n ≤ i → heap'.slots i = heap.slots i

theorem Rearranges.refl (n : Nat) (heap : BoundedHeap α) : Rearranges n heap heap :=
  ⟨rfl, rfl, fun _ _ => rfl⟩

/-- One more swap of two of the first `n` slots. -/
theorem Rearranges.swap {n a b : Nat} {heap heap' : BoundedHeap α}
    (h : Rearranges n heap heap') (ha : a < n) (hb : b < n) :
    Rearranges n heap (heap'.withSlots (heap'.slots ∘ Equiv.swap a b)) := by
  constructor
  · rw [h.same]
    rfl
  · rw [withSlots_slots, items_swap _ ha hb]
    exact h.items_eq
  · intro i hi
    rw [withSlots_slots, Function.comp_apply,
      Equiv.swap_apply_of_ne_of_ne (by omega) (by omega)]
    exact h.frame i hi

theorem Rearranges.itemsInHeap {n : Nat} {heap heap' : BoundedHeap α}
    (h : Rearranges n heap heap') : heap'.itemsInHeap = heap.itemsInHeap := by
  rw [h.same]; rfl

theorem Rearranges.compare {n : Nat} {heap heap' : BoundedHeap α}
    (h : Rearranges n heap heap') : heap'.config.compare = heap.config.compare := by
  rw [h.same]; rfl

theorem Rearranges.size {n : Nat} {heap heap' : BoundedHeap α}
    (h : Rearranges n heap heap') :
    heap'.config.heapStorage.size = heap.config.heapStorage.size := by
  rw [h.same]; rfl

theorem Rearranges.heapMaxSize {n : Nat} {heap heap' : BoundedHeap α}
    (h : Rearranges n heap heap') : heap'.heapMaxSize = heap.heapMaxSize := by
  rw [h.same]; rfl

/-! ## What one round of each loop can do -/

/-- One round of bubble-up: at the root, or where the parent is in order, it is
    done; else it swaps with the parent and goes on there. -/
theorem bubbleUp_cases {heap : BoundedHeap α} {k : Nat}
    (hk : k < heap.config.heapStorage.size) :
    (boundedHeapBubbleUp (heap, k) = some (.done heap) ∧
      (k ≠ 0 → ¬ heap.config.compare (heap.slots (parent k)) (heap.slots k) = true)) ∨
    (k ≠ 0 ∧ heap.config.compare (heap.slots (parent k)) (heap.slots k) = true ∧
      boundedHeapBubbleUp (heap, k) = some (.again
        (heap.withSlots (heap.slots ∘ Equiv.swap (parent k) k), parent k))) := by
  by_cases h0 : k = 0
  · refine Or.inl ⟨?_, fun h => absurd h0 h⟩
    simp only [boundedHeapBubbleUp, if_pos h0]
  · have hp : parent k < heap.config.heapStorage.size := Nat.lt_trans (parent_lt h0) hk
    have hbody : boundedHeapBubbleUp (heap, k)
        = if heap.config.compare (heap.slots (parent k)) (heap.slots k) then
            some (.again (heap.withSlots (heap.slots ∘ Equiv.swap (parent k) k), parent k))
          else some (.done heap) := by
      simp only [boundedHeapBubbleUp, if_neg h0]
      rw [show boundedHeapGetIndexOfParent k = parent k from rfl, getValueAt_of_lt hp,
        getValueAt_of_lt hk, swapValuesAtIndex_of_lt hp hk]
      rfl
    by_cases hc : heap.config.compare (heap.slots (parent k)) (heap.slots k) = true
    · exact Or.inr ⟨h0, hc, by rw [hbody, if_pos hc]⟩
    · exact Or.inl ⟨by rw [hbody, if_neg hc], fun _ => hc⟩

/-- The relation of the comparator: the parent has to go below the child. -/
def goesBelow (compare : α → α → Bool) (p c : α) : Prop := compare p c = true

instance goesBelowDecidable (compare : α → α → Bool) : DecidableRel (goesBelow compare) :=
  fun p c => inferInstanceAs (Decidable (compare p c = true))

/-- The sift-down body at a parent with two live children, its reads resolved. -/
theorem siftDown_of_two_children {heap : BoundedHeap α} {q : Nat}
    (hlive : heap.itemsInHeap ≤ heap.config.heapStorage.size)
    (hchildren : 2 * q + 2 < heap.itemsInHeap) :
    boundedHeapSiftDown (heap, q)
      = if (if heap.config.compare (heap.slots q) (heap.slots (2 * q + 1))
              && heap.config.compare (heap.slots q) (heap.slots (2 * q + 2))
            then !heap.config.compare (heap.slots (2 * q + 1)) (heap.slots (2 * q + 2))
            else heap.config.compare (heap.slots q) (heap.slots (2 * q + 1))) then
          some (.again (heap.withSlots (heap.slots ∘ Equiv.swap q (2 * q + 1)), 2 * q + 1))
        else if (if heap.config.compare (heap.slots q) (heap.slots (2 * q + 1))
              && heap.config.compare (heap.slots q) (heap.slots (2 * q + 2))
            then heap.config.compare (heap.slots (2 * q + 1)) (heap.slots (2 * q + 2))
            else heap.config.compare (heap.slots q) (heap.slots (2 * q + 2))) then
          some (.again (heap.withSlots (heap.slots ∘ Equiv.swap q (2 * q + 2)), 2 * q + 2))
        else some (.done heap) := by
  have hq : q < heap.config.heapStorage.size := by omega
  have hl : 2 * q + 1 < heap.config.heapStorage.size := by omega
  have hr : 2 * q + 2 < heap.config.heapStorage.size := by omega
  have hguard : ¬ (2 * q + 1 ≥ heap.itemsInHeap ∨ 2 * q + 2 ≥ heap.itemsInHeap) := by omega
  simp only [boundedHeapSiftDown, boundedHeapGetIndexOfLeftChild,
    boundedHeapGetIndexOfRightChild, boundedHeapGetSize, if_neg hguard,
    getValueAt_of_lt hq, getValueAt_of_lt hl, getValueAt_of_lt hr,
    swapValuesAtIndex_of_lt hq hl, swapValuesAtIndex_of_lt hq hr,
    Option.bind_eq_bind, Option.bind_some]

/-- One round of sift-down: without two live children it is done; where neither
    child wants the place it is done; else it swaps with a child that does —
    the champion, or the only one. -/
theorem siftDown_cases {heap : BoundedHeap α} {q : Nat}
    (hlive : heap.itemsInHeap ≤ heap.config.heapStorage.size) :
    (heap.itemsInHeap ≤ 2 * q + 2 ∧ boundedHeapSiftDown (heap, q) = some (.done heap)) ∨
    (2 * q + 2 < heap.itemsInHeap ∧ boundedHeapSiftDown (heap, q) = some (.done heap) ∧
      ∀ c, IsChild c q → ¬ goesBelow heap.config.compare (heap.slots q) (heap.slots c)) ∨
    (2 * q + 2 < heap.itemsInHeap ∧ ∃ c, IsChild c q ∧
      goesBelow heap.config.compare (heap.slots q) (heap.slots c) ∧
      (c = champion (goesBelow heap.config.compare) heap.slots q ∨
        ∀ c', IsChild c' q → c' ≠ c →
          ¬ goesBelow heap.config.compare (heap.slots q) (heap.slots c')) ∧
      boundedHeapSiftDown (heap, q) = some (.again
        (heap.withSlots (heap.slots ∘ Equiv.swap q c), c))) := by
  by_cases hn : heap.itemsInHeap ≤ 2 * q + 2
  · refine Or.inl ⟨hn, ?_⟩
    have hguard : 2 * q + 1 ≥ heap.itemsInHeap ∨ 2 * q + 2 ≥ heap.itemsInHeap := Or.inr hn
    exact if_pos hguard
  · refine Or.inr ?_
    have hbody := siftDown_of_two_children hlive (Nat.lt_of_not_le hn)
    have hone : ∀ c', IsChild c' q → c' ≠ 2 * q + 1 → c' = 2 * q + 2 := fun c' hc' hne =>
      hc'.resolve_left hne
    have hother : ∀ c', IsChild c' q → c' ≠ 2 * q + 2 → c' = 2 * q + 1 := fun c' hc' hne =>
      hc'.resolve_right hne
    cases hcl : heap.config.compare (heap.slots q) (heap.slots (2 * q + 1)) with
    | true =>
        cases hcr : heap.config.compare (heap.slots q) (heap.slots (2 * q + 2)) with
        | true =>
            -- both want the place: the arbitration picks the champion
            cases hlr : heap.config.compare (heap.slots (2 * q + 1)) (heap.slots (2 * q + 2)) with
            | true =>
                refine Or.inr ⟨by omega, 2 * q + 2, Or.inr rfl, hcr, Or.inl ?_, ?_⟩
                · exact (if_pos hlr).symm
                · rw [hbody, hcl, hcr, hlr]; rfl
            | false =>
                refine Or.inr ⟨by omega, 2 * q + 1, Or.inl rfl, hcl, Or.inl ?_, ?_⟩
                · exact (if_neg (ne_true_of_eq_false hlr)).symm
                · rw [hbody, hcl, hcr, hlr]; rfl
        | false =>
            refine Or.inr ⟨by omega, 2 * q + 1, Or.inl rfl, hcl, Or.inr ?_, ?_⟩
            · intro c' hc' hne
              rw [hone c' hc' hne]
              exact ne_true_of_eq_false hcr
            · rw [hbody, hcl, hcr]; rfl
    | false =>
        cases hcr : heap.config.compare (heap.slots q) (heap.slots (2 * q + 2)) with
        | true =>
            refine Or.inr ⟨by omega, 2 * q + 2, Or.inr rfl, hcr, Or.inr ?_, ?_⟩
            · intro c' hc' hne
              rw [hother c' hc' hne]
              exact ne_true_of_eq_false hcl
            · rw [hbody, hcl, hcr]; rfl
        | false =>
            refine Or.inl ⟨by omega, ?_, ?_⟩
            · rw [hbody, hcl, hcr]; rfl
            · rintro c (rfl | rfl)
              · exact ne_true_of_eq_false hcl
              · exact ne_true_of_eq_false hcr

/-! ## Each loop ends and only rearranges the live slots -/

/-- Bubble-up ends, whatever the comparator says: the slot falls. -/
theorem bubbleUp_rearranges {heap : BoundedHeap α} {n k : Nat} (hk : k < n)
    (hn : n ≤ heap.config.heapStorage.size) :
    ∃ heap', loop boundedHeapBubbleUp (k + 1) (heap, k) = some heap' ∧
      Rearranges n heap heap' := by
  refine loop_spec (I := fun s => Rearranges n heap s.1 ∧ s.2 < n) Prod.snd ?_ (k + 1)
    (heap, k) ⟨Rearranges.refl n heap, hk⟩ (Nat.lt_succ_self k)
  rintro ⟨cur, i⟩ ⟨hcur, hi⟩
  have hsize : i < cur.config.heapStorage.size := by
    rw [hcur.size]
    exact Nat.lt_of_lt_of_le hi hn
  rcases bubbleUp_cases hsize with ⟨hdone, -⟩ | ⟨h0, -, hagain⟩
  · exact Or.inl ⟨cur, hdone, hcur⟩
  · have hp : parent i < i := parent_lt h0
    have hpn : parent i < n := Nat.lt_trans hp hi
    exact Or.inr ⟨_, hagain, ⟨hcur.swap hpn hi, hpn⟩, hp⟩

/-- Sift-down ends, whatever the comparator says: the slot grows and stays
    below the number of live items. -/
theorem siftDown_rearranges {heap : BoundedHeap α}
    (hlive : heap.itemsInHeap ≤ heap.config.heapStorage.size) :
    ∃ heap', loop boundedHeapSiftDown (heap.itemsInHeap + 1) (heap, 0) = some heap' ∧
      Rearranges heap.itemsInHeap heap heap' := by
  refine loop_spec (I := fun s => Rearranges heap.itemsInHeap heap s.1)
    (fun s => heap.itemsInHeap - s.2) ?_ (heap.itemsInHeap + 1) (heap, 0)
    (Rearranges.refl _ heap) (by simp)
  rintro ⟨cur, q⟩ hcur
  have hcur' : Rearranges heap.itemsInHeap heap cur := hcur
  have hsize : cur.itemsInHeap ≤ cur.config.heapStorage.size := by
    rw [hcur'.itemsInHeap, hcur'.size]
    exact hlive
  rcases siftDown_cases (q := q) hsize with ⟨-, hdone⟩ | ⟨-, hdone, -⟩ |
    ⟨hn, c, hc, -, -, hagain⟩
  · exact Or.inl ⟨cur, hdone, hcur⟩
  · exact Or.inl ⟨cur, hdone, hcur⟩
  · rw [hcur'.itemsInHeap] at hn
    have hqc : q < c := hc.lt
    have hcn : c < heap.itemsInHeap := by
      rcases hc with rfl | rfl <;> omega
    refine Or.inr ⟨_, hagain, hcur'.swap (Nat.lt_trans hqc hcn) hcn, ?_⟩
    show heap.itemsInHeap - c < heap.itemsInHeap - q
    omega

/-! ## One specification for each call -/

/-- The heap as `bounded_heap_push` leaves it before the loop: the new item in
    the first dead slot. -/
def BoundedHeap.insertLast (heap : BoundedHeap α) (heapItem : α) : BoundedHeap α :=
  { heap.withSlots (Function.update heap.slots heap.itemsInHeap heapItem) with
    itemsInHeap := heap.itemsInHeap + 1 }

/-- The heap as `bounded_heap_pop` leaves it before the loop: the root parked
    in the slot just past the live ones. -/
def BoundedHeap.parkRoot (heap : BoundedHeap α) : BoundedHeap α :=
  { heap.withSlots (heap.slots ∘ Equiv.swap 0 (heap.itemsInHeap - 1)) with
    itemsInHeap := heap.itemsInHeap - 1 }

/-- What every call keeps: the comparator, the capacity, the array, and no more
    live items than the capacity. -/
structure WellFormed (config : BoundedHeapConfig α) (heap : BoundedHeap α) : Prop where
  compare : heap.config.compare = config.compare
  capacity : heap.heapMaxSize = config.elementCount
  storage : heap.config.heapStorage.size = config.elementCount
  items_le : heap.itemsInHeap ≤ config.elementCount

theorem Rearranges.wellFormed {config : BoundedHeapConfig α} {n : Nat}
    {heap heap' : BoundedHeap α} (h : Rearranges n heap heap')
    (hw : WellFormed config heap) : WellFormed config heap' where
  compare := h.compare.trans hw.compare
  capacity := h.heapMaxSize.trans hw.capacity
  storage := h.size.trans hw.storage
  items_le := h.itemsInHeap ▸ hw.items_le

/-- An accepted init gives a well-formed empty heap. -/
theorem init_wellFormed {config : BoundedHeapConfig α} {heap heap₀ : BoundedHeap α}
    (hstorage : config.heapStorage.size = config.elementCount)
    (hinit : boundedHeapInit heap config = (.errNone, heap₀)) :
    WellFormed config heap₀ ∧ heap₀.itemsInHeap = 0 := by
  unfold boundedHeapInit boundedHeapValidateConfig at hinit
  by_cases h0 : config.elementCount = 0
  · rw [if_pos h0] at hinit
    exact nomatch hinit
  · rw [if_neg h0] at hinit
    obtain ⟨-, rfl⟩ := Prod.mk.inj hinit
    exact ⟨⟨rfl, rfl, hstorage, Nat.zero_le _⟩, rfl⟩

theorem push_full {heap : BoundedHeap α} (h : boundedHeapGetRemaining heap = 0)
    (heapItem : α) : boundedHeapPush heap heapItem = some (.errNoMem, heap) := by
  rw [boundedHeapPush, if_pos h]

/-- A push with room left puts the item in and rearranges. -/
theorem push_spec {config : BoundedHeapConfig α} {heap : BoundedHeap α}
    (hw : WellFormed config heap) (hroom : heap.itemsInHeap < config.elementCount)
    (heapItem : α) :
    ∃ heap', boundedHeapPush heap heapItem = some (.errNone, heap') ∧
      loop boundedHeapBubbleUp (heap.itemsInHeap + 1)
        (heap.insertLast heapItem, heap.itemsInHeap) = some heap' ∧
      Rearranges (heap.itemsInHeap + 1) (heap.insertLast heapItem) heap' := by
  have hrem : ¬ boundedHeapGetRemaining heap = 0 := by
    rw [boundedHeapGetRemaining, hw.capacity]
    omega
  have hsize : heap.itemsInHeap < heap.config.heapStorage.size := by
    rw [hw.storage]
    exact hroom
  have hn : heap.itemsInHeap + 1 ≤ (heap.insertLast heapItem).config.heapStorage.size := hsize
  obtain ⟨heap', hloop, hre⟩ :=
    bubbleUp_rearranges (Nat.lt_succ_self _) hn
  refine ⟨heap', ?_, hloop, hre⟩
  have hpush : boundedHeapPush heap heapItem
      = if heap.itemsInHeap + 1 = 1 then some (.errNone, heap.insertLast heapItem)
        else (loop boundedHeapBubbleUp (heap.itemsInHeap + 1)
          (heap.insertLast heapItem, heap.itemsInHeap)).map fun h => (.errNone, h) := by
    rw [boundedHeapPush, if_neg hrem]
    simp only [boundedHeapGetNextEmptyIndex, Block.store_of_lt hsize, Option.bind_eq_bind,
      Option.bind_some, boundedHeapGetSize, Option.map_eq_bind]
    rfl
  by_cases h1 : heap.itemsInHeap + 1 = 1
  · -- the first item: the source skips the loop, which would stop at the root
    have h0 : heap.itemsInHeap = 0 := by omega
    have hdone : boundedHeapBubbleUp (heap.insertLast heapItem, 0)
        = some (.done (heap.insertLast heapItem)) := rfl
    rw [h0, loop_of_done hdone] at hloop
    rw [hpush, if_pos h1, Option.some.inj hloop]
  · rw [hpush, if_neg h1, hloop]
    rfl

theorem pop_empty {heap : BoundedHeap α} (h : heap.itemsInHeap = 0) :
    boundedHeapPop heap = some (.errEmpty, none, heap) := if_pos h

/-- A pop from a heap with items hands out the root and rearranges the rest. -/
theorem pop_spec {config : BoundedHeapConfig α} {heap : BoundedHeap α}
    (hw : WellFormed config heap) (hpos : 0 < heap.itemsInHeap) :
    ∃ heap', boundedHeapPop heap = some (.errNone, some (heap.slots 0), heap') ∧
      loop boundedHeapSiftDown (heap.itemsInHeap - 1 + 1) (heap.parkRoot, 0) = some heap' ∧
      Rearranges (heap.itemsInHeap - 1) heap.parkRoot heap' := by
  have hle : heap.itemsInHeap ≤ heap.config.heapStorage.size := by
    rw [hw.storage]
    exact hw.items_le
  have hroot : 0 < heap.config.heapStorage.size := by omega
  have hlast : heap.itemsInHeap - 1 < heap.config.heapStorage.size := by omega
  have hlive : heap.parkRoot.itemsInHeap ≤ heap.parkRoot.config.heapStorage.size := by
    show heap.itemsInHeap - 1 ≤ heap.config.heapStorage.size
    omega
  obtain ⟨heap', hloop, hre⟩ := siftDown_rearranges hlive
  refine ⟨heap', ?_, hloop, hre⟩
  have hne : ¬ boundedHeapGetSize heap = 0 := Nat.ne_of_gt hpos
  have hswap : boundedHeapSwapValuesAtIndex { heap with itemsInHeap := heap.itemsInHeap - 1 }
      0 (heap.itemsInHeap - 1) = some heap.parkRoot :=
    swapValuesAtIndex_of_lt hroot hlast
  rw [boundedHeapPop, if_neg hne]
  simp only [boundedHeapGetNextEmptyIndex, Block.load_of_lt hroot, Option.bind_eq_bind,
    Option.bind_some, hswap, hloop]
  rfl

/-- A push that succeeds has found room. -/
theorem WellFormed.push_inv {config : BoundedHeapConfig α} {heap heap' : BoundedHeap α}
    (hw : WellFormed config heap) {heapItem : α}
    (hpush : boundedHeapPush heap heapItem = some (.errNone, heap')) :
    heap.itemsInHeap < config.elementCount ∧
      loop boundedHeapBubbleUp (heap.itemsInHeap + 1)
        (heap.insertLast heapItem, heap.itemsInHeap) = some heap' ∧
      Rearranges (heap.itemsInHeap + 1) (heap.insertLast heapItem) heap' := by
  by_cases hroom : heap.itemsInHeap < config.elementCount
  · obtain ⟨heap₁, hpush₁, hloop, hre⟩ := push_spec hw hroom heapItem
    obtain ⟨-, rfl⟩ := Prod.mk.inj (Option.some.inj (hpush₁.symm.trans hpush))
    exact ⟨hroom, hloop, hre⟩
  · have hfull : boundedHeapGetRemaining heap = 0 := by
      rw [boundedHeapGetRemaining, hw.capacity]
      omega
    rw [push_full hfull] at hpush
    cases hpush

/-- A pop that succeeds has found an item. -/
theorem WellFormed.pop_inv {config : BoundedHeapConfig α} {heap heap' : BoundedHeap α}
    (hw : WellFormed config heap) {item : Option α}
    (hpop : boundedHeapPop heap = some (.errNone, item, heap')) :
    0 < heap.itemsInHeap ∧ item = some (heap.slots 0) ∧
      loop boundedHeapSiftDown (heap.itemsInHeap - 1 + 1) (heap.parkRoot, 0) = some heap' ∧
      Rearranges (heap.itemsInHeap - 1) heap.parkRoot heap' := by
  rcases Nat.eq_zero_or_pos heap.itemsInHeap with h0 | hpos
  · rw [pop_empty h0] at hpop
    cases hpop
  · obtain ⟨heap₁, hpop₁, hloop, hre⟩ := pop_spec hw hpos
    obtain ⟨-, hrest⟩ := Prod.mk.inj (Option.some.inj (hpop₁.symm.trans hpop))
    obtain ⟨rfl, rfl⟩ := Prod.mk.inj hrest
    exact ⟨hpos, rfl, hloop, hre⟩

theorem peek_empty {heap : BoundedHeap α} (h : heap.itemsInHeap = 0) :
    boundedHeapPeek heap = some (.errEmpty, none) := if_pos h

/-- A peek at a heap with items shows the root. -/
theorem peek_spec {config : BoundedHeapConfig α} {heap : BoundedHeap α}
    (hw : WellFormed config heap) (hpos : 0 < heap.itemsInHeap) :
    boundedHeapPeek heap = some (.errNone, some (heap.slots 0)) := by
  have hroot : 0 < heap.config.heapStorage.size := by
    rw [hw.storage]
    exact Nat.lt_of_lt_of_le hpos hw.items_le
  have hne : ¬ boundedHeapGetSize heap = 0 := Nat.ne_of_gt hpos
  rw [boundedHeapPeek, if_neg hne]
  simp only [Block.load_of_lt hroot, Option.bind_eq_bind, Option.bind_some]
  rfl

/-! ## Conservation -/

theorem insertLast_wellFormed {config : BoundedHeapConfig α} {heap : BoundedHeap α}
    (hw : WellFormed config heap) (hroom : heap.itemsInHeap < config.elementCount)
    (heapItem : α) : WellFormed config (heap.insertLast heapItem) :=
  ⟨hw.compare, hw.capacity, hw.storage, hroom⟩

theorem parkRoot_wellFormed {config : BoundedHeapConfig α} {heap : BoundedHeap α}
    (hw : WellFormed config heap) : WellFormed config heap.parkRoot :=
  ⟨hw.compare, hw.capacity, hw.storage, Nat.le_trans (Nat.sub_le _ _) hw.items_le⟩

theorem liveItems_insertLast (heap : BoundedHeap α) (heapItem : α) :
    (heap.insertLast heapItem).liveItems = heapItem ::ₘ heap.liveItems := by
  show items (heap.itemsInHeap + 1) (Function.update heap.slots heap.itemsInHeap heapItem)
    = heapItem ::ₘ items heap.itemsInHeap heap.slots
  rw [items_succ, Function.update_self]
  congr 1
  apply items_congr
  intro i hi
  exact Function.update_of_ne (Nat.ne_of_lt hi) _ _

theorem liveItems_parkRoot {heap : BoundedHeap α} (hpos : 0 < heap.itemsInHeap) :
    heap.slots 0 ::ₘ heap.parkRoot.liveItems = heap.liveItems := by
  obtain ⟨m, hm⟩ : ∃ m, heap.itemsInHeap = m + 1 := ⟨heap.itemsInHeap - 1, by omega⟩
  show heap.slots 0 ::ₘ items (heap.itemsInHeap - 1)
      (heap.slots ∘ Equiv.swap 0 (heap.itemsInHeap - 1))
    = items heap.itemsInHeap heap.slots
  rw [hm, Nat.add_sub_cancel, ← items_swap heap.slots (Nat.succ_pos m) (Nat.lt_succ_self m),
    items_succ, Function.comp_apply, Equiv.swap_apply_right]

theorem Rearranges.liveItems {n : Nat} {heap heap' : BoundedHeap α}
    (h : Rearranges n heap heap') (hn : heap.itemsInHeap = n) :
    heap'.liveItems = heap.liveItems := by
  rw [BoundedHeap.liveItems, BoundedHeap.liveItems, h.itemsInHeap, hn]
  exact h.items_eq

/-- The item a call puts into the heap. -/
def pushedItem : BoundedHeapOp α × (ErrorCode × Option α) → Multiset α
  | (.push heapItem, (.errNone, _)) => {heapItem}
  | _ => 0

/-- The item a call takes out of the heap. -/
def poppedItem : BoundedHeapOp α × (ErrorCode × Option α) → Multiset α
  | (.pop, (.errNone, some heapItem)) => {heapItem}
  | _ => 0

/-- One call of any kind keeps the heap well formed and its items accounted
    for. -/
theorem step_spec {config : BoundedHeapConfig α} (heap : BoundedHeap α)
    (op : BoundedHeapOp α) (hw : WellFormed config heap) :
    ∃ r heap', boundedHeapStep heap op = some (r, heap') ∧ WellFormed config heap' ∧
      heap'.liveItems + poppedItem (op, r) = heap.liveItems + pushedItem (op, r) := by
  cases op with
  | push heapItem =>
      by_cases hroom : heap.itemsInHeap < config.elementCount
      · obtain ⟨heap', hpush, -, hre⟩ := push_spec hw hroom heapItem
        refine ⟨(.errNone, none), heap', ?_,
          hre.wellFormed (insertLast_wellFormed hw hroom heapItem), ?_⟩
        · simp only [boundedHeapStep, hpush, Option.map_some]
        · show heap'.liveItems + 0 = heap.liveItems + {heapItem}
          rw [hre.liveItems rfl, liveItems_insertLast, add_zero, add_comm,
            Multiset.singleton_add]
      · have hfull : boundedHeapGetRemaining heap = 0 := by
          rw [boundedHeapGetRemaining, hw.capacity]
          omega
        refine ⟨(.errNoMem, none), heap, ?_, hw, rfl⟩
        simp only [boundedHeapStep, push_full hfull, Option.map_some]
  | pop =>
      by_cases hpos : 0 < heap.itemsInHeap
      · obtain ⟨heap', hpop, -, hre⟩ := pop_spec hw hpos
        refine ⟨(.errNone, some (heap.slots 0)), heap', ?_,
          hre.wellFormed (parkRoot_wellFormed hw), ?_⟩
        · simp only [boundedHeapStep, hpop, Option.map_some]
        · show heap'.liveItems + {heap.slots 0} = heap.liveItems + 0
          rw [hre.liveItems rfl, add_zero, add_comm, Multiset.singleton_add,
            liveItems_parkRoot hpos]
      · refine ⟨(.errEmpty, none), heap, ?_, hw, rfl⟩
        simp only [boundedHeapStep, pop_empty (Nat.eq_zero_of_not_pos hpos), Option.map_some]
  | peek =>
      by_cases hpos : 0 < heap.itemsInHeap
      · refine ⟨(.errNone, some (heap.slots 0)), heap, ?_, hw, rfl⟩
        simp only [boundedHeapStep, peek_spec hw hpos, Option.map_some]
      · refine ⟨(.errEmpty, none), heap, ?_, hw, rfl⟩
        simp only [boundedHeapStep, peek_empty (Nat.eq_zero_of_not_pos hpos), Option.map_some]

/-! ## The indices in `size_t` -/

section Words

variable {w : Nat}

/-- The three index helpers on words, as the source computes them. -/
def boundedHeapGetIndexOfParentWord (index : SizeT w) : SizeT w := (index - 1) / 2

def boundedHeapGetIndexOfLeftChildWord (index : SizeT w) : SizeT w := 2 * index + 1

def boundedHeapGetIndexOfRightChildWord (index : SizeT w) : SizeT w := 2 * index + 2

/-- At slot `index` the words are the numbers of the model. -/
structure IndicesExact (w index : Nat) : Prop where
  left : (boundedHeapGetIndexOfLeftChildWord (BitVec.ofNat w index)).toNat
    = boundedHeapGetIndexOfLeftChild index
  right : (boundedHeapGetIndexOfRightChildWord (BitVec.ofNat w index)).toNat
    = boundedHeapGetIndexOfRightChild index
  parent : index ≠ 0 → (boundedHeapGetIndexOfParentWord (BitVec.ofNat w index)).toNat
    = boundedHeapGetIndexOfParent index

instance (w index : Nat) : Decidable (IndicesExact w index) :=
  decidable_of_iff (_ ∧ _ ∧ (_ → _)) ⟨fun h => ⟨h.1, h.2.1, h.2.2⟩, fun h => ⟨h.1, h.2, h.3⟩⟩

/-- No index wraps at a slot of an array of fewer than `2 ^ (w - 1)` pointers. -/
theorem indicesExact_of_lt {n index : Nat} (hn : n < 2 ^ (w - 1)) (hindex : index < n) :
    IndicesExact w index := by
  have hw : 1 < w := by
    rcases Nat.lt_or_ge 1 w with h | h
    · exact h
    · rw [Nat.sub_eq_zero_of_le h] at hn
      omega
  have hpow : 2 ^ w = 2 * 2 ^ (w - 1) := by
    rw [← Nat.pow_succ', Nat.succ_eq_add_one, Nat.sub_add_cancel (Nat.le_of_lt hw)]
  have hright : 2 * index + 2 < 2 ^ w := by omega
  constructor
  · exact SizeT.toNat_two_mul_add_of_lt (Nat.lt_of_succ_lt hright)
  · exact SizeT.toNat_two_mul_add_of_lt hright
  · intro h0
    have hnat : (BitVec.ofNat w index : SizeT w).toNat = index :=
      SizeT.toNat_ofNat_of_lt (by omega)
    have hone : (1 : SizeT w).toNat = 1 := SizeT.toNat_one (Nat.lt_of_succ_lt hw)
    have htwo : (2 : SizeT w).toNat = 2 :=
      SizeT.toNat_ofNat_of_lt (Nat.lt_of_le_of_lt (Nat.le_add_left 2 _) hright)
    have hle : (1 : SizeT w).toNat ≤ (BitVec.ofNat w index : SizeT w).toNat := by
      rw [hone, hnat]
      exact Nat.pos_of_ne_zero h0
    rw [boundedHeapGetIndexOfParentWord, BitVec.toNat_udiv, SizeT.toNat_sub_of_le hle, hnat,
      hone, htwo, boundedHeapGetIndexOfParent]

/-- **NO ROUND WRAPS AN INDEX**: with fewer than `2 ^ (w - 1)` slots the loops
    of a push and of a pop give what they give when a round is undefined at every
    slot where an index in `size_t` is not the exact one. -/
theorem bounded_heap_indices_exact {config : BoundedHeapConfig α}
    {heap : BoundedHeap α} (hw : WellFormed config heap)
    (hn : config.elementCount < 2 ^ (w - 1)) :
    (∀ heapItem heap', boundedHeapPush heap heapItem = some (.errNone, heap') →
      loop (guarded (fun s => IndicesExact w s.2) boundedHeapBubbleUp) (heap.itemsInHeap + 1)
        (heap.insertLast heapItem, heap.itemsInHeap) = some heap') ∧
    ∀ item heap', boundedHeapPop heap = some (.errNone, item, heap') →
      loop (guarded (fun s => IndicesExact w s.2) boundedHeapSiftDown)
        (heap.itemsInHeap - 1 + 1) (heap.parkRoot, 0) = some heap' := by
  constructor
  · intro heapItem heap' hpush
    obtain ⟨hroom, hloop, -⟩ := hw.push_inv hpush
    rw [← hloop]
    -- the slot of a round stays in the array, which stays as large
    refine loop_guarded (I := fun s : BoundedHeap α × Nat => s.2 < config.elementCount ∧
        s.1.config.heapStorage.size = config.elementCount)
      (fun s hs => indicesExact_of_lt hn hs.1) ?_ _ _ ⟨hroom, hw.storage⟩
    rintro ⟨cur, k⟩ s' ⟨hk, hsize⟩ hagain
    rcases bubbleUp_cases (hsize ▸ hk) with ⟨hdone, -⟩ | ⟨h0, -, hagain'⟩
    · rw [hdone] at hagain
      cases hagain
    · rw [hagain'] at hagain
      cases hagain
      exact ⟨Nat.lt_trans (parent_lt h0) hk, hsize⟩
  · intro item heap' hpop
    obtain ⟨hpos, -, hloop, -⟩ := hw.pop_inv hpop
    rw [← hloop]
    refine loop_guarded (I := fun s : BoundedHeap α × Nat => s.2 < config.elementCount ∧
        s.1.itemsInHeap ≤ config.elementCount ∧
        s.1.config.heapStorage.size = config.elementCount)
      (fun s hs => indicesExact_of_lt hn hs.1) ?_ _ _
      ⟨Nat.lt_of_lt_of_le hpos hw.items_le, (parkRoot_wellFormed hw).items_le, hw.storage⟩
    rintro ⟨cur, q⟩ s' ⟨-, hitems, hsize⟩ hagain
    rcases siftDown_cases (q := q) (hsize ▸ hitems) with
      ⟨-, hdone⟩ | ⟨-, hdone, -⟩ | ⟨hchildren, c, hc, -, -, hagain'⟩
    · rw [hdone] at hagain
      cases hagain
    · rw [hdone] at hagain
      cases hagain
    · rw [hagain'] at hagain
      cases hagain
      have hright : 2 * q + 2 < cur.itemsInHeap := hchildren
      have hcn : c < cur.itemsInHeap := by
        rcases hc with rfl | rfl <;> omega
      exact ⟨Nat.lt_of_lt_of_le hcn hitems, hitems, hsize⟩

end Words

/-! ## What the codes say -/

section Codes

variable {config : BoundedHeapConfig α} {heap : BoundedHeap α}

/-- A push is refused exactly by a full heap, which it leaves as it is; else it
    adds its item. -/
theorem WellFormed.push_code (hw : WellFormed config heap) (heapItem : α) :
    ∃ code heap', boundedHeapPush heap heapItem = some (code, heap') ∧
      (code = .errNoMem ↔ boundedHeapGetSize heap = config.elementCount) ∧
      (code = .errNoMem → heap' = heap) ∧ (code = .errNoMem ∨ code = .errNone) ∧
      (code = .errNone → heap'.liveItems = heapItem ::ₘ heap.liveItems) := by
  rcases Nat.lt_or_eq_of_le hw.items_le with hroom | hfull
  · obtain ⟨heap', hpush, -, hre⟩ := push_spec hw hroom heapItem
    refine ⟨.errNone, heap', hpush, ⟨nofun, ?_⟩, nofun, Or.inr rfl, ?_⟩
    · intro hsize
      exact absurd hsize (Nat.ne_of_lt hroom)
    · intro _
      rw [hre.liveItems rfl, liveItems_insertLast]
  · have hrem : boundedHeapGetRemaining heap = 0 := by
      rw [boundedHeapGetRemaining, hw.capacity, hfull, Nat.sub_self]
    exact ⟨.errNoMem, heap, push_full hrem heapItem, ⟨fun _ => hfull, fun _ => rfl⟩,
      fun _ => rfl, Or.inl rfl, nofun⟩

/-- A pop is refused exactly by an empty heap, which it leaves as it is; else it
    hands out an item and takes it out of the heap. -/
theorem WellFormed.pop_code (hw : WellFormed config heap) :
    ∃ code item heap', boundedHeapPop heap = some (code, item, heap') ∧
      (code = .errEmpty ↔ boundedHeapGetSize heap = 0) ∧
      (code = .errEmpty → heap' = heap ∧ item = none) ∧
      (code = .errEmpty ∨ code = .errNone) ∧
      (code = .errNone → ∃ x, item = some x ∧ x ::ₘ heap'.liveItems = heap.liveItems) := by
  rcases Nat.eq_zero_or_pos heap.itemsInHeap with h0 | hpos
  · exact ⟨.errEmpty, none, heap, pop_empty h0, ⟨fun _ => h0, fun _ => rfl⟩,
      fun _ => ⟨rfl, rfl⟩, Or.inl rfl, nofun⟩
  · obtain ⟨heap', hpop, -, hre⟩ := pop_spec hw hpos
    refine ⟨.errNone, _, heap', hpop, ⟨nofun, ?_⟩, nofun, Or.inr rfl, ?_⟩
    · intro hsize
      exact absurd hsize (Nat.ne_of_gt hpos)
    · intro _
      refine ⟨heap.slots 0, rfl, ?_⟩
      rw [hre.liveItems rfl, liveItems_parkRoot hpos]

/-- A peek is refused exactly by an empty heap; else it shows an item of the
    heap. -/
theorem WellFormed.peek_code (hw : WellFormed config heap) :
    ∃ code item, boundedHeapPeek heap = some (code, item) ∧
      (code = .errEmpty ↔ boundedHeapGetSize heap = 0) ∧
      (code = .errEmpty → item = none) ∧ (code = .errEmpty ∨ code = .errNone) ∧
      (code = .errNone → ∃ x, item = some x ∧ x ∈ heap.liveItems) := by
  rcases Nat.eq_zero_or_pos heap.itemsInHeap with h0 | hpos
  · exact ⟨.errEmpty, none, peek_empty h0, ⟨fun _ => h0, fun _ => rfl⟩, fun _ => rfl,
      Or.inl rfl, nofun⟩
  · refine ⟨.errNone, _, peek_spec hw hpos, ⟨nofun, ?_⟩, nofun, Or.inr rfl, ?_⟩
    · intro hsize
      exact absurd hsize (Nat.ne_of_gt hpos)
    · intro _
      refine ⟨heap.slots 0, rfl, ?_⟩
      rw [← liveItems_parkRoot hpos]
      exact Multiset.mem_cons_self _ _

end Codes

/-- **THE HEAP LOSES AND DUPLICATES NOTHING**, for any comparator.  After any
    calls the live items and the popped ones are the pushed ones; every call
    ends inside the array; the error codes say exactly when the heap is full or
    empty, and then nothing changes; a push that succeeds adds its item, a pop
    that succeeds hands one out and takes it away. -/
theorem bounded_heap_conserves_items {config : BoundedHeapConfig α}
    {heap heap₀ : BoundedHeap α}
    (hstorage : config.heapStorage.size = config.elementCount)
    (hinit : boundedHeapInit heap config = (.errNone, heap₀))
    (ops : List (BoundedHeapOp α)) :
    ∃ responses heap', run boundedHeapStep heap₀ ops = some (responses, heap') ∧
      heap'.liveItems + ((ops.zip responses).map poppedItem).sum
        = ((ops.zip responses).map pushedItem).sum ∧
      heap'.config.heapStorage.size = config.elementCount ∧
      boundedHeapGetSize heap' + boundedHeapGetRemaining heap' = config.elementCount ∧
      (∀ heapItem, ∃ code heap'', boundedHeapPush heap' heapItem = some (code, heap'') ∧
        (code = .errNoMem ↔ boundedHeapGetSize heap' = config.elementCount) ∧
        (code = .errNoMem → heap'' = heap') ∧ (code = .errNoMem ∨ code = .errNone) ∧
        (code = .errNone → heap''.liveItems = heapItem ::ₘ heap'.liveItems)) ∧
      (∃ code item heap'', boundedHeapPop heap' = some (code, item, heap'') ∧
        (code = .errEmpty ↔ boundedHeapGetSize heap' = 0) ∧
        (code = .errEmpty → heap'' = heap' ∧ item = none) ∧
        (code = .errEmpty ∨ code = .errNone) ∧
        (code = .errNone → ∃ x, item = some x ∧ x ::ₘ heap''.liveItems = heap'.liveItems)) ∧
      ∃ code item, boundedHeapPeek heap' = some (code, item) ∧
        (code = .errEmpty ↔ boundedHeapGetSize heap' = 0) ∧
        (code = .errEmpty → item = none) ∧ (code = .errEmpty ∨ code = .errNone) ∧
        (code = .errNone → ∃ x, item = some x ∧ x ∈ heap'.liveItems) := by
  obtain ⟨hw₀, hempty⟩ := init_wellFormed hstorage hinit
  obtain ⟨responses, heap', hrun, hw, hbal⟩ :=
    run_balance BoundedHeap.liveItems pushedItem poppedItem step_spec ops heap₀ hw₀
  have hnone : heap₀.liveItems = 0 := by
    rw [BoundedHeap.liveItems, hempty]
    rfl
  refine ⟨responses, heap', hrun, ?_, hw.storage, ?_, hw.push_code, hw.pop_code, hw.peek_code⟩
  · rw [hbal, hnone, zero_add]
  · have hle := hw.items_le
    rw [boundedHeapGetSize, boundedHeapGetRemaining, hw.capacity]
    omega

/-- Two slots and a comparator that asks for every swap. -/
def restlessConfig : BoundedHeapConfig Nat where
  heapStorage := ⟨2, fun _ => 0⟩
  elementCount := 2
  compare := fun _ _ => true

/-- Conservation at a comparator that is no order: three pushes, of which the
    last finds the heap full, and a pop that hands out the 7; the next pop hands
    out the 5. -/
theorem bounded_heap_conserves_items_restless :
    ∃ heap', run boundedHeapStep ⟨restlessConfig, 0, 2⟩ [.push 5, .push 7, .push 9, .pop]
        = some ([(.errNone, none), (.errNone, none), (.errNoMem, none), (.errNone, some 7)],
          heap') ∧
      heap'.liveItems + {7} = {5} + {7} ∧
      ∃ heap'', boundedHeapPop heap' = some (.errNone, some 5, heap'') ∧
        5 ::ₘ heap''.liveItems = heap'.liveItems := by
  have hinit : boundedHeapInit ⟨restlessConfig, 0, 0⟩ restlessConfig
      = (.errNone, ⟨restlessConfig, 0, 2⟩) := rfl
  obtain ⟨responses, heap', hrun, hitems, -, -, -, ⟨code, item, heap'', hpop, -, -, -, hout⟩, -⟩ :=
    bounded_heap_conserves_items rfl hinit [.push 5, .push 7, .push 9, .pop]
  -- the codes and the items of this run, by evaluation
  have hresponses : (run boundedHeapStep ⟨restlessConfig, 0, 2⟩
      [.push 5, .push 7, .push 9, .pop]).map Prod.fst
      = some [(.errNone, none), (.errNone, none), (.errNoMem, none), (.errNone, some 7)] := rfl
  have hnext : ((run boundedHeapStep ⟨restlessConfig, 0, 2⟩
      [.push 5, .push 7, .push 9, .pop]).bind fun r => boundedHeapPop r.2).map
        (fun r => (r.1, r.2.1)) = some (.errNone, some 5) := rfl
  rw [hrun] at hresponses hnext
  rw [Option.bind_some, hpop] at hnext
  obtain rfl : responses = _ := Option.some.inj hresponses
  obtain ⟨rfl, rfl⟩ := Prod.mk.inj (Option.some.inj hnext)
  obtain ⟨x, hx, hitems''⟩ := hout rfl
  obtain rfl : 5 = x := Option.some.inj hx
  refine ⟨heap', hrun, ?_, heap'', hpop, hitems''⟩
  simpa [poppedItem, pushedItem] using hitems

end CembBoundedHeap
