import CEmbeddedUtils.BoundedHeapOrderProofs

/-! # What one push and one pop do to a heap in order

    Both calls put an item where it may not belong and then repair the heap along
    one path: a push upwards from the first dead slot, a pop downwards from the
    root.  This file says of each call, made on any heap in order, what the heap is
    like afterwards: a push leaves it in order and has touched that path only, and
    a pop leaves at most one edge, always the same one, out of order. -/

namespace CembBoundedHeap

open BoundedLoop HeapOrder Memory Transducer

variable {α : Type}

/-! ## Push -/

/-- Bubble-up touches the slots from its own up to the root only, whatever the
    comparator says. -/
theorem bubbleUp_onPath {heap heap' : BoundedHeap α} {n k : Nat} (hk : k < n)
    (hn : n ≤ heap.config.heapStorage.size)
    (hloop : loop boundedHeapBubbleUp (k + 1) (heap, k) = some heap') :
    ∀ i, ¬ OnPath k i → heap'.slots i = heap.slots i := by
  have hspec : ∃ heap₁, loop boundedHeapBubbleUp (k + 1) (heap, k) = some heap₁ ∧
      ∀ i, ¬ OnPath k i → heap₁.slots i = heap.slots i := by
    -- the slot the loop is at stays on the way up, and both slots of a swap are on it
    refine loop_spec (I := fun s => Rearranges n heap s.1 ∧ s.2 < n ∧ OnPath k s.2 ∧
        ∀ i, ¬ OnPath k i → s.1.slots i = heap.slots i) Prod.snd ?_ (k + 1) (heap, k)
      ⟨Rearranges.refl n heap, hk, onPath_self k, fun _ _ => rfl⟩ (Nat.lt_succ_self k)
    rintro ⟨cur, j⟩ ⟨hcur, hj, hpath, hframe⟩
    have hsize : j < cur.config.heapStorage.size := by
      rw [hcur.size]
      exact Nat.lt_of_lt_of_le hj hn
    rcases bubbleUp_cases hsize with ⟨hdone, -⟩ | ⟨h0, -, hagain⟩
    · exact Or.inl ⟨cur, hdone, hframe⟩
    · have hp : parent j < j := parent_lt h0
      have hpn : parent j < n := Nat.lt_trans hp hj
      refine Or.inr ⟨_, hagain, ⟨hcur.swap hpn hj, hpn, hpath.parent, ?_⟩, hp⟩
      intro i hi
      have hip : i ≠ parent j := by
        rintro rfl
        exact hi hpath.parent
      have hij : i ≠ j := by
        rintro rfl
        exact hi hpath
      show cur.slots (Equiv.swap (parent j) j i) = heap.slots i
      rw [Equiv.swap_apply_of_ne_of_ne hip hij]
      exact hframe i hi
  obtain ⟨heap₁, hloop₁, hframe⟩ := hspec
  obtain rfl : heap₁ = heap' := Option.some.inj (hloop₁.symm.trans hloop)
  exact hframe

/-- **PUSH KEEPS HEAP ORDER AND TOUCHES ONE PATH**: with room left, a push into a
    heap in order succeeds; the heap is in order afterwards and holds the old items
    and the new one; and every slot off the way from the first dead slot to the root
    is as it was. -/
theorem push_keeps_heap_order {config : BoundedHeapConfig α}
    [IsStrictWeakOrder α (goesBelow config.compare)] {heap : BoundedHeap α}
    (hw : WellFormed config heap) (hroom : heap.itemsInHeap < config.elementCount)
    (ho : HeapOrdered heap) (heapItem : α) :
    ∃ heap', boundedHeapPush heap heapItem = some (.errNone, heap') ∧
      heap'.itemsInHeap = heap.itemsInHeap + 1 ∧ HeapOrdered heap' ∧
      heap'.liveItems = heapItem ::ₘ heap.liveItems ∧
      ∀ i, ¬ OnPath heap.itemsInHeap i → heap'.slots i = heap.slots i := by
  have : IsStrictWeakOrder α (goesBelow heap.config.compare) := hw.strictWeakOrder
  obtain ⟨heap', hpush, hloop, hre⟩ := push_spec hw hroom heapItem
  have hsize : heap.itemsInHeap + 1 ≤ (heap.insertLast heapItem).config.heapStorage.size := by
    show heap.itemsInHeap + 1 ≤ heap.config.heapStorage.size
    rw [hw.storage]
    exact hroom
  refine ⟨heap', hpush, hre.itemsInHeap, push_order hw hroom ho hpush, ?_, ?_⟩
  · rw [hre.liveItems rfl, liveItems_insertLast]
  · intro i hi
    have hin : i ≠ heap.itemsInHeap := by
      rintro rfl
      exact hi (onPath_self _)
    rw [bubbleUp_onPath (Nat.lt_succ_self _) hsize hloop i hi]
    exact Function.update_of_ne hin _ _

/-- A max-heap of three slots with the numbers 3, 2, 1 in them, `n` of them live. -/
def fallingHeap (n : Nat) : BoundedHeap Nat where
  config := { maxHeapConfig with heapStorage := ⟨3, fun i => 3 - i⟩ }
  itemsInHeap := n
  heapMaxSize := 3

theorem fallingHeap_wellFormed {n : Nat} (hn : n ≤ 3) :
    WellFormed maxHeapConfig (fallingHeap n) :=
  ⟨rfl, rfl, rfl, hn⟩

theorem fallingHeap_ordered (n : Nat) : HeapOrdered (fallingHeap n) := by
  intro p c hc _ hb
  have hpc : p < c := hc.lt
  have hlt : 3 - p < 3 - c := goesBelow_maxHeap.mp hb
  omega

/-- A push of 9 on top of 3 and 2: slot 1 is not on the way from slot 2 to the root. -/
theorem push_keeps_heap_order_nine :
    ∃ heap', boundedHeapPush (fallingHeap 2) 9 = some (.errNone, heap') ∧
      HeapOrdered heap' ∧ heap'.slots 1 = 2 := by
  have hroom : (fallingHeap 2).itemsInHeap < maxHeapConfig.elementCount := Nat.lt_succ_self 2
  obtain ⟨heap', hpush, -, ho, -, hframe⟩ := push_keeps_heap_order
    (fallingHeap_wellFormed (Nat.le_succ 2)) hroom (fallingHeap_ordered 2) 9
  refine ⟨heap', hpush, ho, hframe 1 ?_⟩
  rintro ⟨d, hd⟩
  rcases d with _ | _ | d
  · cases hd
  · cases hd
  · have hzero : ∀ d, parent^[d] 0 = 0 := fun d => Function.iterate_fixed rfl d
    have hroot : parent^[d + 2] 2 = 0 := hzero d.succ
    cases hroot.symm.trans hd

/-! ## Pop -/

/-- **POP LEAVES AT MOST ONE EDGE OUT OF ORDER**: a pop from a heap in order with `n`
    items succeeds, and among the `n - 1` slots that stay live every parent and child
    are in order, except where the child is slot `n - 2` and `n - 1` is even, that is,
    where it is a left child whose sibling is dead.  So with `n - 1` odd the heap is
    in order again.  It holds the old items without the root's. -/
theorem pop_leaves_one_edge {config : BoundedHeapConfig α}
    [IsStrictWeakOrder α (goesBelow config.compare)] {heap : BoundedHeap α}
    (hw : WellFormed config heap) (hpos : 1 ≤ heap.itemsInHeap) (ho : HeapOrdered heap) :
    ∃ heap', boundedHeapPop heap = some (.errNone, some (heap.slots 0), heap') ∧
      heap'.itemsInHeap = heap.itemsInHeap - 1 ∧
      (∀ p c, IsChild c p → c < heap.itemsInHeap - 1 →
        ¬ (c = heap.itemsInHeap - 2 ∧ (heap.itemsInHeap - 1) % 2 = 0) →
        config.compare (heap'.slots p) (heap'.slots c) = false) ∧
      (∀ p, IsChild (heap.itemsInHeap - 2) p → (heap.itemsInHeap - 1) % 2 = 0 →
        heap.itemsInHeap - 2 = 2 * p + 1 ∧ heap.itemsInHeap - 1 ≤ 2 * p + 2) ∧
      ((heap.itemsInHeap - 1) % 2 = 1 → HeapOrdered heap') ∧
      heap.slots 0 ::ₘ heap'.liveItems = heap.liveItems := by
  have : IsStrictWeakOrder α (goesBelow heap.config.compare) := hw.strictWeakOrder
  obtain ⟨heap', hpop, -, hre⟩ := pop_spec hw hpos
  obtain ⟨hres, -⟩ := pop_order hw hpos ho hpop
  refine ⟨heap', hpop, hre.itemsInHeap, ?_, ?_, ?_, ?_⟩
  · intro p c hc hcn hne
    rw [← hw.compare]
    refine eq_false_of_ne_true (hres.except p c hc hcn ?_)
    rintro ⟨hlast, heven⟩
    exact hne ⟨by omega, heven⟩
  · rintro p (hleft | hright) heven
    · exact ⟨hleft, by omega⟩
    · -- a right child is in an odd number of live slots
      omega
  · intro hodd p c hc hcn
    rw [hre.itemsInHeap] at hcn
    rw [hre.compare]
    refine hres.except p c hc hcn ?_
    rintro ⟨-, heven⟩
    rw [heven] at hodd
    cases hodd
  · rw [hre.liveItems rfl, liveItems_parkRoot hpos]

/-- A max-heap of six slots with the numbers 9, 8, 7, 6, 4, 1 in them, `n` of them live. -/
def terracedHeap (n : Nat) : BoundedHeap Nat where
  config :=
    { maxHeapConfig with
      heapStorage := ⟨6, fun i => [9, 8, 7, 6, 4, 1].getD i 0⟩
      elementCount := 6 }
  itemsInHeap := n
  heapMaxSize := 6

theorem terracedHeap_wellFormed {n : Nat} (hn : n ≤ 6) :
    WellFormed (terracedHeap 0).config (terracedHeap n) :=
  ⟨rfl, rfl, rfl, hn⟩

theorem terracedHeap_ordered {n : Nat} (hn : n ≤ 6) : HeapOrdered (terracedHeap n) := by
  intro p c hc hcn hb
  have hfalls : ∀ i < 6, ∀ j < i, (terracedHeap 6).slots i ≤ (terracedHeap 6).slots j := by
    decide
  have hlt : (terracedHeap 6).slots p < (terracedHeap 6).slots c := goesBelow_maxHeap.mp hb
  exact absurd hlt (Nat.not_lt_of_le (hfalls c (Nat.lt_of_lt_of_le hcn hn) p hc.lt))

/-- Of six items the pop takes the 9, and the 1 sinks below 8 and 6: the five that stay
    are in order.  Of five items it takes the 9, and the 4 stops below 8: both edges at
    the root are in order, and the edge from the 4 to the 6 below it is not. -/
theorem pop_leaves_one_edge_six_and_five :
    (∃ heap', boundedHeapPop (terracedHeap 6) = some (.errNone, some 9, heap') ∧
      HeapOrdered heap' ∧ heap'.slots 3 = 1 ∧
      9 ::ₘ heap'.liveItems = (terracedHeap 6).liveItems) ∧
    ∃ heap', boundedHeapPop (terracedHeap 5) = some (.errNone, some 9, heap') ∧
      (∀ c, IsChild c 0 →
        maxHeapConfig.compare (heap'.slots 0) (heap'.slots c) = false) ∧
      maxHeapConfig.compare (heap'.slots 1) (heap'.slots 3) = true ∧
      9 ::ₘ heap'.liveItems = (terracedHeap 5).liveItems := by
  have : IsStrictWeakOrder Nat (goesBelow (terracedHeap 0).config.compare) :=
    inferInstanceAs (IsStrictWeakOrder Nat (goesBelow maxHeapConfig.compare))
  constructor
  · obtain ⟨heap', hpop, -, -, -, hodd, hitems⟩ := pop_leaves_one_edge
      (terracedHeap_wellFormed (le_refl 6)) (by decide) (terracedHeap_ordered (le_refl 6))
    have hslot : (boundedHeapPop (terracedHeap 6)).map (fun r => r.2.2.slots 3) = some 1 := rfl
    rw [hpop] at hslot
    exact ⟨heap', hpop, hodd rfl, Option.some.inj hslot, hitems⟩
  · obtain ⟨heap', hpop, -, hedges, -, -, hitems⟩ := pop_leaves_one_edge
      (terracedHeap_wellFormed (Nat.le_succ 5)) (by decide) (terracedHeap_ordered (Nat.le_succ 5))
    have hslots : (boundedHeapPop (terracedHeap 5)).map
        (fun r => maxHeapConfig.compare (r.2.2.slots 1) (r.2.2.slots 3)) = some true := rfl
    rw [hpop] at hslots
    refine ⟨heap', hpop, ?_, Option.some.inj hslots, hitems⟩
    -- the children of the root are slots 1 and 2, and the skipped one is slot 3
    intro c hc
    have hcn : c < 3 := by
      rcases hc with rfl | rfl <;> decide
    refine hedges 0 c hc (Nat.lt_succ_of_lt hcn) ?_
    rintro ⟨hlast, -⟩
    exact Nat.ne_of_lt hcn hlast

end CembBoundedHeap
