import CEmbeddedUtils.BoundedHeapProofs

/-! # The bounded heap as a priority queue

    With a strict weak order for comparator the live slots should stay
    heap-ordered, so that the root is an item nothing else has to rise above.
    A push keeps the order.  A pop does not always: its loop leaves as soon as
    the RIGHT child of the sinking item is dead, also when the left child is
    live, and that last edge is then never compared.

    `PopSkipsLastChild` says of a heap, before the pop, exactly when that edge
    ends up out of order: `pop_order` proves the equivalence for one pop, and
    `bounded_heap_priority_law` the priority law for every run that pops from
    no such heap. -/

namespace CembBoundedHeap

open BoundedLoop HeapOrder Memory Transducer

variable {α : Type}

/-- No live parent has to go below its live child. -/
def HeapOrdered (heap : BoundedHeap α) : Prop :=
  Ordered (goesBelow heap.config.compare) heap.itemsInHeap heap.slots

/-- The pop leaves its loop one comparison early, and the comparison mattered:
    after the pop the last live slot is a left child without a right sibling,
    the item that sinks from the root has to go below it, and the champions
    lead from the root to its parent. -/
def PopSkipsLastChild (heap : BoundedHeap α) : Prop :=
  heap.itemsInHeap % 2 = 1 ∧ 3 ≤ heap.itemsInHeap ∧
    goesBelow heap.config.compare (heap.slots (heap.itemsInHeap - 1))
      (heap.slots (heap.itemsInHeap - 2)) ∧
    ∃ k, k < heap.itemsInHeap ∧
      championPath (goesBelow heap.config.compare) heap.slots k = (heap.itemsInHeap - 3) / 2

instance (heap : BoundedHeap α) : Decidable (PopSkipsLastChild heap) := by
  unfold PopSkipsLastChild
  infer_instance

/-- A well-formed heap has the order of its config. -/
theorem WellFormed.strictWeakOrder {config : BoundedHeapConfig α} {heap : BoundedHeap α}
    [h : IsStrictWeakOrder α (goesBelow config.compare)] (hw : WellFormed config heap) :
    IsStrictWeakOrder α (goesBelow heap.config.compare) := by
  rw [hw.compare]
  exact h

/-! ## Push -/

/-- The new item in the first dead slot may have to rise, and nothing else is
    out of order. -/
theorem insertLast_riseOrder {heap : BoundedHeap α} (ho : HeapOrdered heap) (heapItem : α) :
    RiseOrder (goesBelow heap.config.compare) (heap.itemsInHeap + 1)
      (heap.insertLast heapItem).slots heap.itemsInHeap := by
  have hold : ∀ i, i ≠ heap.itemsInHeap →
      (heap.insertLast heapItem).slots i = heap.slots i := fun i hi =>
    Function.update_of_ne hi _ _
  constructor
  · intro p c hc hcn hne
    have hpc : p < c := hc.lt
    rw [hold p (by omega), hold c hne]
    exact ho p c hc (by omega)
  · intro _ c hc hcn
    have hlt := hc.lt
    omega

/-- Bubble-up ends in an ordered heap: it rearranges, and at most the edge
    above its slot is out of order. -/
theorem bubbleUp_order {heap : BoundedHeap α}
    [IsStrictWeakOrder α (goesBelow heap.config.compare)]
    (hroom : heap.itemsInHeap + 1 ≤ heap.config.heapStorage.size) (ho : HeapOrdered heap)
    (heapItem : α) :
    ∃ heap', loop boundedHeapBubbleUp (heap.itemsInHeap + 1)
        (heap.insertLast heapItem, heap.itemsInHeap) = some heap' ∧
      Ordered (goesBelow heap.config.compare) (heap.itemsInHeap + 1) heap'.slots := by
  refine loop_spec
    (I := fun s => Rearranges (heap.itemsInHeap + 1) (heap.insertLast heapItem) s.1 ∧
      s.2 < heap.itemsInHeap + 1 ∧
      RiseOrder (goesBelow heap.config.compare) (heap.itemsInHeap + 1) s.1.slots s.2)
    Prod.snd ?_ _ _
    ⟨Rearranges.refl _ _, Nat.lt_succ_self _, insertLast_riseOrder ho heapItem⟩
    (Nat.lt_succ_self _)
  rintro ⟨cur, k⟩ ⟨hcur, hk, hrise⟩
  have hcmp : cur.config.compare = heap.config.compare := hcur.compare
  have hks : k < cur.config.heapStorage.size := by
    rw [hcur.size]
    exact Nat.lt_of_lt_of_le hk hroom
  rcases bubbleUp_cases hks with ⟨hdone, hstop⟩ | ⟨h0, hb, hagain⟩
  · rw [hcmp] at hstop
    exact Or.inl ⟨cur, hdone, hrise.finish hstop⟩
  · rw [hcmp] at hb
    have hp : parent k < k := parent_lt h0
    have hpn : parent k < heap.itemsInHeap + 1 := Nat.lt_trans hp hk
    exact Or.inr ⟨_, hagain, ⟨hcur.swap hpn hk, hpn, hrise.move h0 hk hb⟩, hp⟩

/-- **PUSH KEEPS HEAP ORDER.** -/
theorem push_order {config : BoundedHeapConfig α} {heap heap' : BoundedHeap α}
    [IsStrictWeakOrder α (goesBelow heap.config.compare)]
    (hw : WellFormed config heap) (hroom : heap.itemsInHeap < config.elementCount)
    (ho : HeapOrdered heap) {heapItem : α}
    (hpush : boundedHeapPush heap heapItem = some (.errNone, heap')) :
    HeapOrdered heap' := by
  obtain ⟨-, hloop, hre⟩ := hw.push_inv hpush
  have hsize : heap.itemsInHeap + 1 ≤ heap.config.heapStorage.size := by
    rw [hw.storage]
    exact hroom
  obtain ⟨heap₂, hloop₂, hord⟩ := bubbleUp_order hsize ho heapItem
  obtain rfl : heap' = heap₂ := Option.some.inj (hloop.symm.trans hloop₂)
  rw [HeapOrdered, hre.compare, hre.itemsInHeap]
  exact hord

/-! ## Pop -/

/-- The state of the sift-down loop at slot `q`, for the heap as it was before
    the pop: only the edges below `q` may be out of order, the item at `q` is
    the one that was last, everything further on is untouched, and the loop has
    come down the champions past slots with two live children. -/
structure SiftState (heap cur : BoundedHeap α) (q : Nat) : Prop where
  rearranges : Rearranges (heap.itemsInHeap - 1) heap.parkRoot cur
  order : SinkOrder (goesBelow heap.config.compare) (heap.itemsInHeap - 1) cur.slots q
  sinking : cur.slots q = heap.slots (heap.itemsInHeap - 1)
  untouched : ∀ i, q < i → i < heap.itemsInHeap - 1 → cur.slots i = heap.slots i
  path : ∃ k, championPath (goesBelow heap.config.compare) heap.slots k = q ∧
    ∀ j, j < k → 2 * championPath (goesBelow heap.config.compare) heap.slots j + 2
      < heap.itemsInHeap - 1

/-- What the loop leaves: every edge but the skipped one is in order, and that
    one is exactly when `PopSkipsLastChild` does not hold. -/
structure SiftResult (heap heap' : BoundedHeap α) : Prop where
  except : ∀ p c, IsChild c p → c < heap.itemsInHeap - 1 →
    ¬ (c + 1 = heap.itemsInHeap - 1 ∧ (heap.itemsInHeap - 1) % 2 = 0) →
    ¬ goesBelow heap.config.compare (heap'.slots p) (heap'.slots c)
  ordered_iff : Ordered (goesBelow heap.config.compare) (heap.itemsInHeap - 1) heap'.slots ↔
    ¬ PopSkipsLastChild heap

theorem SiftState.compare {heap cur : BoundedHeap α} {q : Nat} (h : SiftState heap cur q) :
    cur.config.compare = heap.config.compare := h.rearranges.compare

theorem SiftState.itemsInHeap {heap cur : BoundedHeap α} {q : Nat}
    (h : SiftState heap cur q) : cur.itemsInHeap = heap.itemsInHeap - 1 :=
  h.rearranges.itemsInHeap

/-- The loop starts at the root with the last item there. -/
theorem SiftState.start {heap : BoundedHeap α} (hpos : 0 < heap.itemsInHeap)
    (ho : HeapOrdered heap) : SiftState heap heap.parkRoot 0 := by
  have hold : ∀ i, i ≠ 0 → i < heap.itemsInHeap - 1 →
      heap.parkRoot.slots i = heap.slots i := by
    intro i h0 hi
    exact congrArg heap.slots (Equiv.swap_apply_of_ne_of_ne h0 (by omega))
  refine ⟨Rearranges.refl _ _, ⟨?_, fun h => absurd rfl h⟩, ?_, ?_, 0, rfl, ?_⟩
  · intro p c hc hcn hp0
    have hpc : p < c := hc.lt
    rw [hold p hp0 (by omega), hold c (by omega) hcn]
    exact ho p c hc (by omega)
  · exact congrArg heap.slots (Equiv.swap_apply_left 0 _)
  · intro i h0 hi
    exact hold i (by omega) hi
  · intro j hj
    exact absurd hj (Nat.not_lt_zero j)

/-- One swap with the child the arbitration picks goes one champion down. -/
theorem SiftState.move {heap cur : BoundedHeap α} {q c : Nat}
    [IsStrictWeakOrder α (goesBelow heap.config.compare)] (h : SiftState heap cur q)
    (hq : 2 * q + 2 < heap.itemsInHeap - 1) (hc : IsChild c q)
    (hb : goesBelow heap.config.compare (cur.slots q) (cur.slots c))
    (hpick : c = champion (goesBelow heap.config.compare) cur.slots q ∨
      ∀ c', IsChild c' q → c' ≠ c →
        ¬ goesBelow heap.config.compare (cur.slots q) (cur.slots c')) :
    SiftState heap (cur.withSlots (cur.slots ∘ Equiv.swap q c)) c := by
  have hqc : q < c := hc.lt
  have hcn : c < heap.itemsInHeap - 1 := by
    rcases hc with rfl | rfl <;> omega
  have hchamp : c = champion (goesBelow heap.config.compare) cur.slots q :=
    hpick.elim id fun honly => eq_champion_of_only _ hc hb honly
  refine ⟨h.rearranges.swap (by omega) hcn, h.order.move hc hcn hb ?_, ?_, ?_, ?_⟩
  · intro c' hc' _
    rw [hchamp]
    exact not_below_champion _ _ hc'
  · show cur.slots (Equiv.swap q c c) = _
    rw [Equiv.swap_apply_right]
    exact h.sinking
  · intro i hi hin
    show cur.slots (Equiv.swap q c i) = _
    rw [Equiv.swap_apply_of_ne_of_ne (by omega) (by omega)]
    exact h.untouched i (by omega) hin
  · obtain ⟨k, hk, hpast⟩ := h.path
    refine ⟨k + 1, ?_, ?_⟩
    · -- the children are untouched, so the champion is that of the heap before the pop
      show champion _ heap.slots (championPath _ heap.slots k) = c
      rw [hk, hchamp]
      exact champion_congr _ (h.untouched _ (by omega) (by omega)).symm
        (h.untouched _ (by omega) hq).symm
    · intro j hj
      rcases Nat.lt_or_eq_of_le (Nat.le_of_lt_succ hj) with hlt | rfl
      · exact hpast j hlt
      · rw [hk]
        exact hq

/-- Leaving without two live children: the edge to a lone left child is the
    one that was not compared. -/
theorem SiftState.leave {heap cur : BoundedHeap α} {q : Nat}
    (h : SiftState heap cur q) (hpos : 0 < heap.itemsInHeap)
    (hn : heap.itemsInHeap - 1 ≤ 2 * q + 2) : SiftResult heap cur := by
  obtain ⟨k, hk, hpast⟩ := h.path
  by_cases hlone : heap.itemsInHeap - 1 = 2 * q + 2
  · -- slot `2q + 1` is live and has no live sibling
    have hlast : heap.itemsInHeap - 2 = 2 * q + 1 := by omega
    have hedge : goesBelow heap.config.compare (cur.slots q) (cur.slots (2 * q + 1)) ↔
        goesBelow heap.config.compare (heap.slots (heap.itemsInHeap - 1))
          (heap.slots (heap.itemsInHeap - 2)) := by
      rw [h.sinking, h.untouched (2 * q + 1) (by omega) (by omega), hlast]
    -- the sunk item has no other live child, so every other edge is in order
    have hothers : ∀ p c, IsChild c p → c < heap.itemsInHeap - 1 → c ≠ 2 * q + 1 →
        ¬ goesBelow heap.config.compare (cur.slots p) (cur.slots c) := by
      intro p c hc hcn hne
      refine h.order.except p c hc hcn ?_
      rintro rfl
      rcases hc with rfl | rfl <;> omega
    constructor
    · intro p c hc hcn hne
      exact hothers p c hc hcn (by omega)
    · constructor
      · rintro hord ⟨-, -, hb, -⟩
        exact hord q (2 * q + 1) (Or.inl rfl) (by omega) (hedge.mpr hb)
      · intro hskip p c hc hcn
        by_cases hcq : c = 2 * q + 1
        · intro hb
          have hp : p = q := hc.unique (Or.inl hcq)
          rw [hp, hcq] at hb
          refine hskip ⟨by omega, by omega, hedge.mp hb, k, ?_, ?_⟩
          · have hle : k ≤ championPath (goesBelow heap.config.compare) heap.slots k :=
              le_championPath _ _ k
            omega
          · rw [hk]
            omega
        · exact hothers p c hc hcn hcq
  · -- no live child at all
    have hord : Ordered (goesBelow heap.config.compare) (heap.itemsInHeap - 1) cur.slots := by
      refine h.order.finish ?_
      rintro c (rfl | rfl) hcn <;> omega
    refine ⟨fun p c hc hcn _ => hord p c hc hcn, fun _ => ?_, fun _ => hord⟩
    rintro ⟨hodd, h3, -, k', -, hk'⟩
    -- the parent of the last slot is on the path before `q`, where the loop would have left
    have hlt : championPath (goesBelow heap.config.compare) heap.slots k' <
        championPath (goesBelow heap.config.compare) heap.slots k := by
      rw [hk, hk']
      omega
    have hkk : k' < k := (championPath_strictMono _ _).lt_iff_lt.mp hlt
    have := hpast k' hkk
    omega

/-- Leaving because neither child wants the place: the heap is in order, and
    the pop did not skip a comparison that mattered. -/
theorem SiftState.settle {heap cur : BoundedHeap α} {q : Nat}
    [IsStrictWeakOrder α (goesBelow heap.config.compare)] (h : SiftState heap cur q)
    (ho : HeapOrdered heap) (hq : 2 * q + 2 < heap.itemsInHeap - 1)
    (hstop : ∀ c, IsChild c q → ¬ goesBelow heap.config.compare (cur.slots q) (cur.slots c)) :
    SiftResult heap cur := by
  have hord : Ordered (goesBelow heap.config.compare) (heap.itemsInHeap - 1) cur.slots :=
    h.order.finish fun c hc _ => hstop c hc
  refine ⟨fun p c hc hcn _ => hord p c hc hcn, fun _ => ?_, fun _ => hord⟩
  rintro ⟨hodd, h3, hb, k', -, hk'⟩
  obtain ⟨k, hk, -⟩ := h.path
  have hlt : championPath (goesBelow heap.config.compare) heap.slots k <
      championPath (goesBelow heap.config.compare) heap.slots k' := by
    rw [hk, hk']
    omega
  have hkk : k < k' := (championPath_strictMono _ _).lt_iff_lt.mp hlt
  -- the champion below `q` is in order above the last slot, so the item had to go below it
  have hchild : IsChild (championPath (goesBelow heap.config.compare) heap.slots (k + 1)) q :=
    hk ▸ isChild_champion _ _ _
  have hdown : ¬ goesBelow heap.config.compare
      (heap.slots (championPath (goesBelow heap.config.compare) heap.slots (k + 1)))
      (heap.slots ((heap.itemsInHeap - 3) / 2)) := by
    have hpath := ho.along_champions _ (k + 1) (k' - (k + 1))
    rw [show k + 1 + (k' - (k + 1)) = k' by omega, hk'] at hpath
    exact hpath (by omega)
  have hlastEdge : ¬ goesBelow heap.config.compare (heap.slots ((heap.itemsInHeap - 3) / 2))
      (heap.slots (heap.itemsInHeap - 2)) :=
    ho _ _ (Or.inl (by omega)) (by omega)
  have hbelow : goesBelow heap.config.compare (heap.slots (heap.itemsInHeap - 1))
      (heap.slots (championPath (goesBelow heap.config.compare) heap.slots (k + 1))) :=
    below_of_below_of_not_below _ hb (not_below_trans _ hdown hlastEdge)
  refine hstop _ hchild ?_
  have hcn : championPath (goesBelow heap.config.compare) heap.slots (k + 1)
      < heap.itemsInHeap - 1 := by
    rcases hchild with hc | hc <;> omega
  rw [h.sinking, h.untouched _ hchild.lt hcn]
  exact hbelow

/-- Sift-down from an ordered heap ends as `SiftResult` says. -/
theorem siftDown_order {heap : BoundedHeap α}
    [IsStrictWeakOrder α (goesBelow heap.config.compare)]
    (hlive : heap.itemsInHeap - 1 ≤ heap.config.heapStorage.size)
    (hpos : 0 < heap.itemsInHeap) (ho : HeapOrdered heap) :
    ∃ heap', loop boundedHeapSiftDown (heap.itemsInHeap - 1 + 1) (heap.parkRoot, 0)
        = some heap' ∧ SiftResult heap heap' := by
  refine loop_spec (I := fun s => SiftState heap s.1 s.2)
    (fun s => heap.itemsInHeap - 1 - s.2) ?_ _ _ (SiftState.start hpos ho) (by simp)
  -- every round that goes on moves the sunk item to a slot further down
  rintro ⟨cur, q⟩ hcur
  have hs : SiftState heap cur q := hcur
  have hsize : cur.itemsInHeap ≤ cur.config.heapStorage.size := by
    rw [hs.itemsInHeap, hs.rearranges.size]
    exact hlive
  have hcases := siftDown_cases (q := q) hsize
  rw [hs.itemsInHeap, hs.compare] at hcases
  rcases hcases with ⟨hn, hdone⟩ | ⟨hn, hdone, hstop⟩ | ⟨hn, c, hc, hb, hpick, hagain⟩
  · exact Or.inl ⟨cur, hdone, hs.leave hpos hn⟩
  · exact Or.inl ⟨cur, hdone, hs.settle ho hn hstop⟩
  · refine Or.inr ⟨_, hagain, hs.move hn hc hb hpick, ?_⟩
    have hqc : q < c := hc.lt
    show heap.itemsInHeap - 1 - c < heap.itemsInHeap - 1 - q
    omega

/-- **POP AND HEAP ORDER**: from an ordered heap a pop leaves at most the last
    edge out of order, and leaves the heap ordered exactly when it does not
    skip that edge. -/
theorem pop_order {config : BoundedHeapConfig α} {heap heap' : BoundedHeap α}
    [IsStrictWeakOrder α (goesBelow heap.config.compare)]
    (hw : WellFormed config heap) (hpos : 0 < heap.itemsInHeap) (ho : HeapOrdered heap)
    {item : Option α} (hpop : boundedHeapPop heap = some (.errNone, item, heap')) :
    SiftResult heap heap' ∧ (HeapOrdered heap' ↔ ¬ PopSkipsLastChild heap) := by
  obtain ⟨-, -, hloop, hre⟩ := hw.pop_inv hpop
  have hlive : heap.itemsInHeap - 1 ≤ heap.config.heapStorage.size := by
    rw [hw.storage]
    exact Nat.le_trans (Nat.sub_le _ _) hw.items_le
  obtain ⟨heap₂, hloop₂, hres⟩ := siftDown_order hlive hpos ho
  obtain rfl : heap' = heap₂ := Option.some.inj (hloop.symm.trans hloop₂)
  refine ⟨hres, ?_⟩
  rw [HeapOrdered, hre.compare, hre.itemsInHeap]
  exact hres.ordered_iff

/-! ## The priority law over whole runs -/

/-- The call leaves an ordered heap ordered: it is no pop that skips the last
    child. -/
def SettlesInOrder (heap : BoundedHeap α) (op : BoundedHeapOp α) : Prop :=
  op = .pop → ¬ PopSkipsLastChild heap

/-- A heap well formed for its config and in order. -/
structure PriorityQueue (config : BoundedHeapConfig α) (heap : BoundedHeap α) : Prop where
  wellFormed : WellFormed config heap
  ordered : HeapOrdered heap

/-- The empty heap of an accepted init is a priority queue. -/
theorem PriorityQueue.init {config : BoundedHeapConfig α} {heap heap₀ : BoundedHeap α}
    (hstorage : config.heapStorage.size = config.elementCount)
    (hinit : boundedHeapInit heap config = (.errNone, heap₀)) :
    PriorityQueue config heap₀ := by
  obtain ⟨hw, h0⟩ := init_wellFormed hstorage hinit
  refine ⟨hw, ?_⟩
  intro p c _ hcn
  rw [h0] at hcn
  exact absurd hcn (Nat.not_lt_zero c)

/-- One call that settles in order keeps the priority queue. -/
theorem PriorityQueue.step {config : BoundedHeapConfig α}
    [IsStrictWeakOrder α (goesBelow config.compare)] (heap : BoundedHeap α)
    (op : BoundedHeapOp α) (h : PriorityQueue config heap) (hok : SettlesInOrder heap op) :
    ∃ r heap', boundedHeapStep heap op = some (r, heap') ∧ PriorityQueue config heap' := by
  have hw := h.wellFormed
  have : IsStrictWeakOrder α (goesBelow heap.config.compare) := hw.strictWeakOrder
  obtain ⟨r, heap', hstep, hw', -⟩ := step_spec heap op hw
  refine ⟨r, heap', hstep, hw', ?_⟩
  cases op with
  | push heapItem =>
      by_cases hroom : heap.itemsInHeap < config.elementCount
      · obtain ⟨heap₁, hpush, -, -⟩ := push_spec hw hroom heapItem
        rw [boundedHeapStep, hpush] at hstep
        obtain ⟨-, rfl⟩ := Prod.mk.inj (Option.some.inj hstep)
        exact push_order hw hroom h.ordered hpush
      · have hfull : boundedHeapGetRemaining heap = 0 := by
          rw [boundedHeapGetRemaining, hw.capacity]
          omega
        rw [boundedHeapStep, push_full hfull] at hstep
        obtain ⟨-, rfl⟩ := Prod.mk.inj (Option.some.inj hstep)
        exact h.ordered
  | pop =>
      rcases Nat.eq_zero_or_pos heap.itemsInHeap with h0 | hpos
      · rw [boundedHeapStep, pop_empty h0] at hstep
        obtain ⟨-, rfl⟩ := Prod.mk.inj (Option.some.inj hstep)
        exact h.ordered
      · obtain ⟨heap₁, hpop, -, -⟩ := pop_spec hw hpos
        rw [boundedHeapStep, hpop] at hstep
        obtain ⟨-, rfl⟩ := Prod.mk.inj (Option.some.inj hstep)
        exact (pop_order hw hpos h.ordered hpop).2.mpr (hok rfl)
  | peek =>
      rw [boundedHeapStep, Option.map_eq_some_iff] at hstep
      obtain ⟨_, -, heq⟩ := hstep
      obtain ⟨-, rfl⟩ := Prod.mk.inj heq
      exact h.ordered

/-- The root of a priority queue has to go below no live item. -/
theorem PriorityQueue.root_top {config : BoundedHeapConfig α}
    [IsStrictWeakOrder α (goesBelow config.compare)] {heap : BoundedHeap α}
    (h : PriorityQueue config heap) {x : α} (hx : x ∈ heap.liveItems) :
    config.compare (heap.slots 0) x = false := by
  have : IsStrictWeakOrder α (goesBelow heap.config.compare) := h.wellFormed.strictWeakOrder
  obtain ⟨i, hi, rfl⟩ := mem_items.mp hx
  have hroot := h.ordered.root _ i hi
  rw [h.wellFormed.compare] at hroot
  exact eq_false_of_ne_true hroot

/-- What a successful pop hands out is the root, and it was a live item. -/
theorem pop_item {config : BoundedHeapConfig α} {heap heap' : BoundedHeap α} {item : α}
    (hw : WellFormed config heap)
    (hpop : boundedHeapPop heap = some (.errNone, some item, heap')) :
    0 < heap.itemsInHeap ∧ item = heap.slots 0 ∧
      item ::ₘ heap'.liveItems = heap.liveItems := by
  obtain ⟨hpos, hitem, -, hre⟩ := hw.pop_inv hpop
  obtain rfl := Option.some.inj hitem
  refine ⟨hpos, rfl, ?_⟩
  rw [hre.liveItems rfl]
  exact liveItems_parkRoot hpos

/-- **DRAINING IN ORDER**: pops that settle in order hand out items that were
    live, none of which has to go below a later one. -/
theorem PriorityQueue.drain {config : BoundedHeapConfig α}
    [IsStrictWeakOrder α (goesBelow config.compare)] :
    ∀ (count : Nat) (heap : BoundedHeap α), PriorityQueue config heap →
      Admits boundedHeapStep SettlesInOrder heap (List.replicate count .pop) →
      ∃ responses heap', run boundedHeapStep heap (List.replicate count .pop)
          = some (responses, heap') ∧
        (∀ x ∈ responses.filterMap Prod.snd, x ∈ heap.liveItems) ∧
        (responses.filterMap Prod.snd).Pairwise fun a b => config.compare a b = false := by
  intro count
  induction count with
  | zero =>
      intro heap _ _
      exact ⟨[], heap, rfl, nofun, List.Pairwise.nil⟩
  | succ count ih =>
      intro heap h hadm
      obtain ⟨hok, hrest⟩ := hadm
      obtain ⟨r, heap₁, hstep, h₁⟩ := PriorityQueue.step heap .pop h hok
      obtain ⟨responses, heap', hrun, hmem, hpair⟩ := ih heap₁ h₁ (hrest r heap₁ hstep)
      have hcons : run boundedHeapStep heap (.pop :: List.replicate count .pop)
          = some (r :: responses, heap') := by
        rw [run_cons hstep, hrun]
        rfl
      refine ⟨r :: responses, heap', hcons, ?_⟩
      rcases Nat.eq_zero_or_pos heap.itemsInHeap with h0 | hpos
      · -- an empty heap stays as it is and hands out nothing
        rw [boundedHeapStep, pop_empty h0] at hstep
        obtain ⟨rfl, rfl⟩ := Prod.mk.inj (Option.some.inj hstep)
        exact ⟨hmem, hpair⟩
      · obtain ⟨heap₂, hpop, -, hre⟩ := pop_spec h.wellFormed hpos
        rw [boundedHeapStep, hpop] at hstep
        obtain ⟨rfl, rfl⟩ := Prod.mk.inj (Option.some.inj hstep)
        have hitems := (pop_item h.wellFormed hpop).2.2
        have hlater : ∀ x ∈ responses.filterMap Prod.snd, x ∈ heap.liveItems := by
          intro x hx
          rw [← hitems]
          exact Multiset.mem_cons_of_mem (hmem x hx)
        constructor
        · intro x hx
          rcases List.mem_cons.mp hx with rfl | hx'
          · rw [← hitems]
            exact Multiset.mem_cons_self _ _
          · exact hlater x hx'
        · exact List.Pairwise.cons (fun x hx => h.root_top (hlater x hx)) hpair

/-- **THE PRIORITY LAW**, for every run that pops from no heap whose last child
    the pop would skip: no item in the heap has to rise above one that a peek
    or a pop hands out, and pops hand out their items in priority order.  The
    condition is exact: one pop more keeps the heap ordered just when it holds. -/
theorem bounded_heap_priority_law {config : BoundedHeapConfig α}
    [IsStrictWeakOrder α (goesBelow config.compare)] {heap heap₀ : BoundedHeap α}
    (hstorage : config.heapStorage.size = config.elementCount)
    (hinit : boundedHeapInit heap config = (.errNone, heap₀))
    (ops : List (BoundedHeapOp α))
    (hok : Admits boundedHeapStep SettlesInOrder heap₀ ops) :
    ∃ responses heap', run boundedHeapStep heap₀ ops = some (responses, heap') ∧
      (∀ item, boundedHeapPeek heap' = some (.errNone, some item) →
        ∀ x ∈ heap'.liveItems, config.compare item x = false) ∧
      (∀ item heap'', boundedHeapPop heap' = some (.errNone, some item, heap'') →
        ∀ x ∈ heap'.liveItems, config.compare item x = false) ∧
      (∀ count, Admits boundedHeapStep SettlesInOrder heap' (List.replicate count .pop) →
        ∃ responses' heap'', run boundedHeapStep heap' (List.replicate count .pop)
            = some (responses', heap'') ∧
          (responses'.filterMap Prod.snd).Pairwise fun a b => config.compare a b = false) ∧
      ∀ item heap'', boundedHeapPop heap' = some (.errNone, some item, heap'') →
        (HeapOrdered heap'' ↔ ¬ PopSkipsLastChild heap') := by
  obtain ⟨responses, heap', hrun, h⟩ := run_invariant_of_admits
    PriorityQueue.step ops heap₀ (PriorityQueue.init hstorage hinit) hok
  refine ⟨responses, heap', hrun, ?_, ?_, ?_, ?_⟩
  · intro item hpeek x hx
    rcases Nat.eq_zero_or_pos heap'.itemsInHeap with h0 | hpos
    · rw [peek_empty h0] at hpeek
      exact nomatch hpeek
    · rw [peek_spec h.wellFormed hpos] at hpeek
      obtain rfl := Option.some.inj (Prod.mk.inj (Option.some.inj hpeek)).2
      exact h.root_top hx
  · intro item heap'' hpop x hx
    rw [(pop_item h.wellFormed hpop).2.1]
    exact h.root_top hx
  · intro count hadm
    obtain ⟨responses', heap'', hrun', -, hpair⟩ := PriorityQueue.drain count heap' h hadm
    exact ⟨responses', heap'', hrun', hpair⟩
  · intro item heap'' hpop
    have : IsStrictWeakOrder α (goesBelow heap'.config.compare) := h.wellFormed.strictWeakOrder
    exact (pop_order h.wellFormed (pop_item h.wellFormed hpop).1 h.ordered hpop).2

/-- Three slots for a max-heap of numbers. -/
def maxHeapConfig : BoundedHeapConfig Nat where
  heapStorage := ⟨3, fun _ => 0⟩
  elementCount := 3
  compare := fun parent child => decide (parent < child)

theorem goesBelow_maxHeap {p c : Nat} : goesBelow maxHeapConfig.compare p c ↔ p < c :=
  decide_eq_true_iff

instance : IsStrictWeakOrder Nat (goesBelow maxHeapConfig.compare) where
  irrefl a h := Nat.lt_irrefl a (goesBelow_maxHeap.mp h)
  trans a b c h h' :=
    goesBelow_maxHeap.mpr (Nat.lt_trans (goesBelow_maxHeap.mp h) (goesBelow_maxHeap.mp h'))
  incomp_trans a b c h h' := by
    simp only [goesBelow_maxHeap] at h h' ⊢
    omega

/-- The law at work: 1, 2, 3 are pushed, and the pop of 3 skips nothing. -/
theorem bounded_heap_priority_law_at_three :
    ∃ responses heap', run boundedHeapStep ⟨maxHeapConfig, 0, 3⟩
        [.push 1, .push 2, .push 3, .pop] = some (responses, heap') ∧
      ∀ item, boundedHeapPeek heap' = some (.errNone, some item) →
        ∀ x ∈ heap'.liveItems, maxHeapConfig.compare item x = false := by
  have hinit : boundedHeapInit ⟨maxHeapConfig, 0, 0⟩ maxHeapConfig
      = (.errNone, ⟨maxHeapConfig, 0, 3⟩) := rfl
  obtain ⟨responses, heap', hrun, hpeek, -⟩ := bounded_heap_priority_law rfl hinit
    [.push 1, .push 2, .push 3, .pop]
    (Admits.cons nofun rfl (Admits.cons nofun rfl (Admits.cons nofun rfl
      (Admits.cons (fun _ => by decide) rfl trivial))))
  exact ⟨responses, heap', hrun, hpeek⟩

/-- **THE LAW FAILS** where the last child is skipped: 3, 2, 1 are pushed into
    a max-heap, a pop hands out 3, and then a peek shows 1 while 2 is in the
    heap. -/
theorem bounded_heap_priority_law_fails :
    boundedHeapInit ⟨maxHeapConfig, 0, 0⟩ maxHeapConfig
        = (.errNone, ⟨maxHeapConfig, 0, 3⟩) ∧
      ∃ responses heap', run boundedHeapStep ⟨maxHeapConfig, 0, 3⟩
          [.push 3, .push 2, .push 1, .pop] = some (responses, heap') ∧
        boundedHeapPeek heap' = some (.errNone, some 1) ∧
        2 ∈ heap'.liveItems ∧ maxHeapConfig.compare 1 2 = true :=
  ⟨rfl, _, _, rfl, rfl, mem_items.mpr ⟨1, by decide, rfl⟩, rfl⟩

end CembBoundedHeap
