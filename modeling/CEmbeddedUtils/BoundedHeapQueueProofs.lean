import CEmbeddedUtils.BoundedHeapOrderProofs
import Mathlib.Data.Nat.Log

/-! # The bounded heap — which heaps keep the order, and how far an item travels

    A pop leaves its loop before a lone left child is compared, so a run can put
    the heap out of order.  Whether a run WILL do so is a matter of the
    configuration alone: with room for two items there is never such a child at
    a pop, and with room for three a run of four calls puts the heap out of
    order, as soon as the comparator ever asks for a swap
    (`bounded_heap_keeps_priority_iff`).

    Out of order or not, a call climbs or descends one level of the tree in each
    round of its loop, and so leaves it after a logarithm of the items, for any
    comparator (`bounded_heap_rounds_logarithmic`). -/

namespace CembBoundedHeap

open BoundedLoop HeapOrder Memory Transducer

variable {α : Type} {config : BoundedHeapConfig α} {heap heap₀ : BoundedHeap α}

/-! ## Which configurations keep the order -/

/-- After any calls no item in the heap has to rise above the one that a peek
    shows or a pop hands out. -/
def KeepsPriority (config : BoundedHeapConfig α) (heap₀ : BoundedHeap α) : Prop :=
  ∀ ops responses heap', run boundedHeapStep heap₀ ops = some (responses, heap') →
    (∀ item, boundedHeapPeek heap' = some (.errNone, some item) →
      ∀ x ∈ heap'.liveItems, config.compare item x = false) ∧
    ∀ item heap'', boundedHeapPop heap' = some (.errNone, some item, heap'') →
      ∀ x ∈ heap'.liveItems, config.compare item x = false

/-- With at most two items, or a comparator that asks for no swap, a pop has no
    comparison to skip. -/
theorem PriorityQueue.settles (h : PriorityQueue config heap)
    (hconfig : config.elementCount ≤ 2 ∨ ∀ a b, config.compare a b = false)
    (op : BoundedHeapOp α) : SettlesInOrder heap op := by
  rintro - ⟨-, hthree, hbelow, -⟩
  rcases hconfig with htwo | hnever
  · have hle := h.wellFormed.items_le
    omega
  · rw [h.wellFormed.compare, goesBelow, hnever] at hbelow
    exact Bool.false_ne_true hbelow

/-- A push onto at most two items, of one that does not have to rise above the
    root, leaves it where it is put. -/
theorem push_under_root (hw : WellFormed config heap) {n : Nat} (hn : heap.itemsInHeap = n)
    (hroom : n < config.elementCount) (hfew : n ≤ 2) (heapItem : α)
    (hunder : n ≠ 0 → config.compare (heap.slots 0) heapItem = false) :
    ∃ heap', boundedHeapStep heap (.push heapItem) = some ((.errNone, none), heap') ∧
      WellFormed config heap' ∧ heap'.itemsInHeap = n + 1 ∧
      heap'.slots = Function.update heap.slots n heapItem := by
  subst hn
  refine ⟨heap.insertLast heapItem, ?_, insertLast_wellFormed hw hroom heapItem, rfl, rfl⟩
  obtain ⟨heap', hpush, hloop, -⟩ := push_spec hw hroom heapItem
  have hsize : heap.itemsInHeap < (heap.insertLast heapItem).config.heapStorage.size := by
    show heap.itemsInHeap < heap.config.heapStorage.size
    rw [hw.storage]
    exact hroom
  rcases bubbleUp_cases hsize with ⟨hdone, -⟩ | ⟨h0, hrises, -⟩
  · rw [loop_of_done hdone] at hloop
    obtain rfl := Option.some.inj hloop
    rw [boundedHeapStep, hpush]
    rfl
  · -- the parent is the root, an old item
    have hroot : parent heap.itemsInHeap = 0 := by
      simp only [parent]
      omega
    have hself : (heap.insertLast heapItem).slots heap.itemsInHeap = heapItem :=
      Function.update_self _ _ _
    have hold : (heap.insertLast heapItem).slots 0 = heap.slots 0 :=
      Function.update_of_ne (Ne.symm h0) _ _
    have hcompare : (heap.insertLast heapItem).config.compare = config.compare := hw.compare
    rw [hcompare, hroot, hold, hself, hunder h0] at hrises
    exact absurd hrises Bool.false_ne_true

/-- A pop that leaves two items swaps none of them. -/
theorem pop_three (hw : WellFormed config heap) (hthree : heap.itemsInHeap = 3) :
    ∃ heap', boundedHeapStep heap .pop = some ((.errNone, some (heap.slots 0)), heap') ∧
      WellFormed config heap' ∧ heap'.itemsInHeap = 2 ∧
      heap'.slots = heap.slots ∘ Equiv.swap 0 2 := by
  have hpos : 0 < heap.itemsInHeap := by
    rw [hthree]
    exact Nat.succ_pos 2
  have hlast : heap.itemsInHeap - 1 = 2 := congrArg Nat.pred hthree
  have hslots : heap.parkRoot.slots = heap.slots ∘ Equiv.swap 0 2 := by
    show heap.slots ∘ Equiv.swap 0 (heap.itemsInHeap - 1) = _
    rw [hlast]
  refine ⟨heap.parkRoot, ?_, parkRoot_wellFormed hw, hlast, hslots⟩
  obtain ⟨heap', hpop, hloop, -⟩ := pop_spec hw hpos
  have hdone : boundedHeapSiftDown (heap.parkRoot, 0) = some (.done heap.parkRoot) :=
    if_pos (Or.inr (Nat.le_of_eq hlast))
  rw [loop_of_done hdone] at hloop
  obtain rfl := Option.some.inj hloop
  rw [boundedHeapStep, hpop]
  rfl

/-- **FOUR CALLS** put a heap of three out of order: `a`, `a`, `b` are pushed,
    where `b` has to go below `a`, and a pop takes the first `a`. -/
theorem exists_out_of_order [IsStrictWeakOrder α (goesBelow config.compare)]
    (hw : WellFormed config heap) (hempty : heap.itemsInHeap = 0)
    (hroom : 3 ≤ config.elementCount) {a b : α} (hba : config.compare b a = true) :
    ∃ responses heap',
      run boundedHeapStep heap [.push a, .push a, .push b, .pop] = some (responses, heap') ∧
      boundedHeapPeek heap' = some (.errNone, some b) ∧ a ∈ heap'.liveItems := by
  have haa : config.compare a a = false := eq_false_of_ne_true (irrefl_of (goesBelow _) a)
  have hab : config.compare a b = false :=
    eq_false_of_ne_true (not_below_of_below (goesBelow config.compare) hba)
  obtain ⟨heap₁, hpush₁, hw₁, hcount₁, hslots₁⟩ :=
    push_under_root hw hempty (by omega) (by omega) a fun h => absurd rfl h
  have hroot₁ : heap₁.slots 0 = a := by
    rw [hslots₁, Function.update_self]
  obtain ⟨heap₂, hpush₂, hw₂, hcount₂, hslots₂⟩ :=
    push_under_root hw₁ hcount₁ (by omega) (by omega) a fun _ => hroot₁ ▸ haa
  have hroot₂ : heap₂.slots 0 = a := by
    rw [hslots₂, Function.update_of_ne Nat.zero_ne_one, hroot₁]
  obtain ⟨heap₃, hpush₃, hw₃, hcount₃, hslots₃⟩ :=
    push_under_root hw₂ hcount₂ (by omega) (by omega) b fun _ => hroot₂ ▸ hab
  obtain ⟨heap', hpop, hw', hcount', hslots'⟩ := pop_three hw₃ hcount₃
  refine ⟨[(.errNone, none), (.errNone, none), (.errNone, none), (.errNone, some (heap₃.slots 0))],
    heap', ?_, ?_, mem_items.mpr ⟨1, by omega, ?_⟩⟩
  · rw [run_cons hpush₁, run_cons hpush₂, run_cons hpush₃, run_cons hpop]
    rfl
  · rw [peek_spec hw' (by omega), hslots', Function.comp_apply, Equiv.swap_apply_left, hslots₃,
      Function.update_self]
  · rw [hslots', Function.comp_apply, Equiv.swap_apply_of_ne_of_ne Nat.one_ne_zero (by omega),
      hslots₃, Function.update_of_ne (by omega), hslots₂, Function.update_self]

/-- **THE HEAP KEEPS PRIORITY EXACTLY FOR TWO ITEMS**, or with a comparator that
    never asks for a swap: with any other configuration some run shows an item
    above which another has to rise. -/
theorem bounded_heap_keeps_priority_iff [IsStrictWeakOrder α (goesBelow config.compare)]
    (hstorage : config.heapStorage.size = config.elementCount)
    (hinit : boundedHeapInit heap config = (.errNone, heap₀)) :
    KeepsPriority config heap₀ ↔
      config.elementCount ≤ 2 ∨ ∀ a b, config.compare a b = false := by
  obtain ⟨hw, hempty⟩ := init_wellFormed hstorage hinit
  constructor
  · intro hkeeps
    rcases Nat.lt_or_ge config.elementCount 3 with htwo | hroom
    · exact .inl (Nat.le_of_lt_succ htwo)
    · refine .inr fun b a => eq_false_of_ne_true fun hba => ?_
      obtain ⟨responses, heap', hrun, hpeek, hmem⟩ := exists_out_of_order hw hempty hroom hba
      have hfalse := (hkeeps _ responses heap' hrun).1 b hpeek a hmem
      exact Bool.false_ne_true (hfalse.symm.trans hba)
  · intro hconfig ops responses heap' hrun
    have hsettles : Admits boundedHeapStep SettlesInOrder heap₀ ops :=
      admits_of_run (I := PriorityQueue config)
        (fun s op r s' h hstep => by
          have hok := h.settles hconfig op
          obtain ⟨r₁, s₁, hstep₁, h₁⟩ := PriorityQueue.step s op h hok
          obtain ⟨-, rfl⟩ := Prod.mk.inj (Option.some.inj (hstep₁.symm.trans hstep))
          exact ⟨hok, h₁⟩)
        ops heap₀ (PriorityQueue.init hstorage hinit) hrun
    obtain ⟨responses₁, heap₁, hrun₁, h⟩ := run_invariant_of_admits PriorityQueue.step ops heap₀
      (PriorityQueue.init hstorage hinit) hsettles
    obtain ⟨-, rfl⟩ := Prod.mk.inj (Option.some.inj (hrun₁.symm.trans hrun))
    constructor
    · intro item hpeek x hx
      rcases Nat.eq_zero_or_pos heap₁.itemsInHeap with h0 | hpos
      · rw [peek_empty h0] at hpeek
        cases hpeek
      · rw [peek_spec h.wellFormed hpos] at hpeek
        obtain rfl := Option.some.inj (Prod.mk.inj (Option.some.inj hpeek)).2
        exact h.root_top hx
    · intro item heap'' hpop x hx
      rw [(pop_item h.wellFormed hpop).2.1]
      exact h.root_top hx

/-- Three slots for a max-heap of numbers are too many. -/
theorem bounded_heap_keeps_priority_iff_three :
    ¬ KeepsPriority maxHeapConfig ⟨maxHeapConfig, 0, 3⟩ := by
  have hinit : boundedHeapInit ⟨maxHeapConfig, 0, 0⟩ maxHeapConfig
      = (.errNone, ⟨maxHeapConfig, 0, 3⟩) := rfl
  rw [bounded_heap_keeps_priority_iff rfl hinit]
  rintro (htwo | hnever)
  · exact absurd htwo (by decide)
  · exact absurd (hnever 1 2) (by decide)

/-! ## One level in each round -/

/-- A step up to the parent halves the slots, counted from one. -/
theorem log_parent_lt {k : Nat} (hk : k ≠ 0) :
    Nat.log 2 (parent k + 1) < Nat.log 2 (k + 1) := by
  have hhalf : parent k + 1 = (k + 1) / 2 := by
    simp only [parent]
    omega
  rw [hhalf, Nat.log_div_base]
  have hpos : 0 < Nat.log 2 (k + 1) := Nat.log_pos (Nat.lt_succ_self 1) (by omega)
  omega

/-- A step down to a child that is in the tree halves the levels below. -/
theorem log_levels_lt {n q c : Nat} (hc : IsChild c q) (hq : 2 * q + 2 < n) :
    Nat.log 2 ((n + 1) / (c + 1)) < Nat.log 2 ((n + 1) / (q + 1)) := by
  have htwo : 2 ≤ (n + 1) / (q + 1) := by
    rw [Nat.le_div_iff_mul_le (Nat.succ_pos q)]
    omega
  have hle : (n + 1) / (c + 1) ≤ (n + 1) / (q + 1) / 2 := by
    rw [Nat.div_div_eq_div_mul]
    refine Nat.div_le_div_left ?_ (by omega)
    rcases hc with rfl | rfl <;> omega
  have hpos : 0 < Nat.log 2 ((n + 1) / (q + 1)) := Nat.log_pos (Nat.lt_succ_self 1) htwo
  have hlog := Nat.log_mono_right (b := 2) hle
  rw [Nat.log_div_base] at hlog
  omega

/-- Bubble-up leaves after one round for each level above its slot. -/
theorem bubbleUp_rounds {n k : Nat} (hk : k < n) (hn : n ≤ heap.config.heapStorage.size) :
    ∃ heap', loop boundedHeapBubbleUp (Nat.log 2 (k + 1) + 1) (heap, k) = some heap' ∧
      Rearranges n heap heap' := by
  refine loop_spec (I := fun s => Rearranges n heap s.1 ∧ s.2 < n)
    (fun s => Nat.log 2 (s.2 + 1)) ?_ _ (heap, k) ⟨Rearranges.refl n heap, hk⟩
    (Nat.lt_succ_self _)
  rintro ⟨cur, i⟩ ⟨hcur, hi⟩
  have hsize : i < cur.config.heapStorage.size := by
    rw [hcur.size]
    exact Nat.lt_of_lt_of_le hi hn
  rcases bubbleUp_cases hsize with ⟨hdone, -⟩ | ⟨h0, -, hagain⟩
  · exact .inl ⟨cur, hdone, hcur⟩
  · have hpn : parent i < n := Nat.lt_trans (parent_lt h0) hi
    exact .inr ⟨_, hagain, ⟨hcur.swap hpn hi, hpn⟩, log_parent_lt h0⟩

/-- Sift-down leaves after one round for each level of the tree. -/
theorem siftDown_rounds (hlive : heap.itemsInHeap ≤ heap.config.heapStorage.size) :
    ∃ heap', loop boundedHeapSiftDown (Nat.log 2 (heap.itemsInHeap + 1) + 1) (heap, 0)
        = some heap' ∧ Rearranges heap.itemsInHeap heap heap' := by
  refine loop_spec (I := fun s => Rearranges heap.itemsInHeap heap s.1)
    (fun s => Nat.log 2 ((heap.itemsInHeap + 1) / (s.2 + 1))) ?_ _ (heap, 0)
    (Rearranges.refl _ heap) ?_
  · rintro ⟨cur, q⟩ hcur
    have hcur' : Rearranges heap.itemsInHeap heap cur := hcur
    have hsize : cur.itemsInHeap ≤ cur.config.heapStorage.size := by
      rw [hcur'.itemsInHeap, hcur'.size]
      exact hlive
    rcases siftDown_cases hsize with ⟨-, hdone⟩ | ⟨-, hdone, -⟩ | ⟨hn, c, hc, -, -, hagain⟩
    · exact .inl ⟨cur, hdone, hcur⟩
    · exact .inl ⟨cur, hdone, hcur⟩
    · rw [hcur'.itemsInHeap] at hn
      have hqc : q < c := hc.lt
      have hcn : c < heap.itemsInHeap := by
        rcases hc with rfl | rfl <;> omega
      exact .inr ⟨_, hagain, hcur'.swap (Nat.lt_trans hqc hcn) hcn, log_levels_lt hc hn⟩
  · show Nat.log 2 ((heap.itemsInHeap + 1) / 1) < _
    rw [Nat.div_one]
    exact Nat.lt_succ_self _

/-- A push that finds room rises in as many rounds as the tree has levels. -/
theorem push_rounds (hw : WellFormed config heap) {heapItem : α} {heap' : BoundedHeap α}
    (hpush : boundedHeapPush heap heapItem = some (.errNone, heap')) :
    loop boundedHeapBubbleUp (Nat.log 2 (boundedHeapGetSize heap') + 1)
      (heap.insertLast heapItem, boundedHeapGetNextEmptyIndex heap) = some heap' := by
  obtain ⟨hroom, hloop, hre⟩ := hw.push_inv hpush
  have hsize : heap.itemsInHeap + 1 ≤ (heap.insertLast heapItem).config.heapStorage.size := by
    show heap.itemsInHeap + 1 ≤ heap.config.heapStorage.size
    rw [hw.storage]
    exact hroom
  obtain ⟨heap₂, hrounds, -⟩ := bubbleUp_rounds (Nat.lt_succ_self _) hsize
  have hlog : Nat.log 2 (heap.itemsInHeap + 1) + 1 ≤ heap.itemsInHeap + 1 :=
    Nat.log_lt_self 2 (Nat.succ_ne_zero _)
  -- the rounds that suffice are among those of the code's loop
  obtain rfl := Option.some.inj (hloop.symm.trans (loop_mono hlog hrounds))
  have hcount : boundedHeapGetSize heap' = heap.itemsInHeap + 1 := hre.itemsInHeap
  rw [hcount]
  exact hrounds

/-- A pop that finds an item sinks in as many rounds as the tree has levels. -/
theorem pop_rounds (hw : WellFormed config heap) {item : Option α} {heap' : BoundedHeap α}
    (hpop : boundedHeapPop heap = some (.errNone, item, heap')) :
    loop boundedHeapSiftDown (Nat.log 2 (boundedHeapGetSize heap) + 1) (heap.parkRoot, 0)
      = some heap' := by
  obtain ⟨hpos, -, hloop, -⟩ := hw.pop_inv hpop
  have hlive : heap.parkRoot.itemsInHeap ≤ heap.parkRoot.config.heapStorage.size := by
    show heap.itemsInHeap - 1 ≤ heap.config.heapStorage.size
    rw [hw.storage]
    exact Nat.le_trans (Nat.sub_le _ _) hw.items_le
  obtain ⟨heap₂, hrounds, -⟩ := siftDown_rounds hlive
  have hcount : heap.parkRoot.itemsInHeap + 1 = heap.itemsInHeap := Nat.sub_add_cancel hpos
  rw [hcount] at hrounds
  have hlog : Nat.log 2 heap.itemsInHeap + 1 ≤ heap.itemsInHeap - 1 + 1 := by
    rw [Nat.sub_add_cancel hpos]
    exact Nat.log_lt_self 2 (Nat.ne_of_gt hpos)
  obtain rfl := Option.some.inj (hloop.symm.trans (loop_mono hlog hrounds))
  exact hrounds

/-- **A CALL TAKES A LOGARITHM OF ROUNDS**, in every heap that calls can make
    and for any comparator: the loop of a push leaves after as many rounds as the
    tree has levels with the new item in it, and that of a pop after as many as
    it had with the old one. -/
theorem bounded_heap_rounds_logarithmic
    (hstorage : config.heapStorage.size = config.elementCount)
    (hinit : boundedHeapInit heap config = (.errNone, heap₀))
    (ops : List (BoundedHeapOp α)) :
    ∃ responses heap', run boundedHeapStep heap₀ ops = some (responses, heap') ∧
      (∀ heapItem heap'', boundedHeapPush heap' heapItem = some (.errNone, heap'') →
        loop boundedHeapBubbleUp (Nat.log 2 (boundedHeapGetSize heap'') + 1)
          (heap'.insertLast heapItem, boundedHeapGetNextEmptyIndex heap') = some heap'') ∧
      ∀ item heap'', boundedHeapPop heap' = some (.errNone, item, heap'') →
        loop boundedHeapSiftDown (Nat.log 2 (boundedHeapGetSize heap') + 1)
          (heap'.parkRoot, 0) = some heap'' := by
  obtain ⟨hw₀, -⟩ := init_wellFormed hstorage hinit
  have hstep : ∀ (s : BoundedHeap α) op, WellFormed config s → True →
      ∃ r s', boundedHeapStep s op = some (r, s') ∧ WellFormed config s' := by
    intro s op hw _
    obtain ⟨r, s', hstep, hw', -⟩ := step_spec s op hw
    exact ⟨r, s', hstep, hw'⟩
  obtain ⟨responses, heap', hrun, hw⟩ := run_invariant_of_admits hstep ops heap₀ hw₀
    (admits_of_forall (fun _ _ => trivial) ops heap₀)
  exact ⟨responses, heap', hrun, fun _ _ => push_rounds hw, fun _ _ => pop_rounds hw⟩

/-- Six slots and a comparator that asks for every swap. -/
def restlessTreeConfig : BoundedHeapConfig Nat :=
  { restlessConfig with heapStorage := ⟨6, fun _ => 0⟩, elementCount := 6 }

/-- The bound at a comparator that is no order, on five items: the sixth rises
    from slot 5 to the root, and a pop lets one sink below both children. -/
theorem bounded_heap_rounds_logarithmic_restless :
    ∃ responses heap', run boundedHeapStep ⟨restlessTreeConfig, 0, 6⟩
        [.push 1, .push 2, .push 3, .push 4, .push 5] = some (responses, heap') ∧
      (∃ heap'', boundedHeapPush heap' 6 = some (.errNone, heap'') ∧
        loop boundedHeapBubbleUp 3 (heap'.insertLast 6, 5) = some heap'') ∧
      ∃ item heap'', boundedHeapPop heap' = some (.errNone, item, heap'') ∧
        loop boundedHeapSiftDown 3 (heap'.parkRoot, 0) = some heap'' := by
  have hinit : boundedHeapInit ⟨restlessTreeConfig, 0, 0⟩ restlessTreeConfig
      = (.errNone, ⟨restlessTreeConfig, 0, 6⟩) := rfl
  obtain ⟨responses, heap', hrun, hpush, hpop⟩ :=
    bounded_heap_rounds_logarithmic rfl hinit [.push 1, .push 2, .push 3, .push 4, .push 5]
  -- what the next push and the next pop say, by evaluation
  have hsizes : (run boundedHeapStep ⟨restlessTreeConfig, 0, 6⟩
      [.push 1, .push 2, .push 3, .push 4, .push 5]).map
        (fun r => boundedHeapGetSize r.2) = some 5 := rfl
  have hpushed : ((run boundedHeapStep ⟨restlessTreeConfig, 0, 6⟩
      [.push 1, .push 2, .push 3, .push 4, .push 5]).bind fun r => boundedHeapPush r.2 6).map
        (fun r => (r.1, boundedHeapGetSize r.2)) = some (.errNone, 6) := rfl
  have hpopped : ((run boundedHeapStep ⟨restlessTreeConfig, 0, 6⟩
      [.push 1, .push 2, .push 3, .push 4, .push 5]).bind fun r => boundedHeapPop r.2).map
        Prod.fst = some .errNone := rfl
  rw [hrun] at hsizes hpushed hpopped
  have hsize : boundedHeapGetSize heap' = 5 := Option.some.inj hsizes
  refine ⟨responses, heap', hrun, ?_, ?_⟩
  · obtain ⟨⟨code, heap''⟩, hcall, hcode⟩ := Option.map_eq_some_iff.mp hpushed
    obtain ⟨rfl, hsize''⟩ := Prod.mk.inj hcode
    have hrounds := hpush 6 heap'' hcall
    rw [hsize''] at hrounds
    refine ⟨heap'', hcall, ?_⟩
    rw [← hsize]
    exact hrounds
  · obtain ⟨⟨code, item, heap''⟩, hcall, rfl⟩ := Option.map_eq_some_iff.mp hpopped
    have hrounds := hpop item heap'' hcall
    rw [hsize] at hrounds
    exact ⟨item, heap'', hcall, hrounds⟩

end CembBoundedHeap
