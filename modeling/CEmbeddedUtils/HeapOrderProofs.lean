import Mathlib.Algebra.Order.Group.Multiset
import Mathlib.Data.Multiset.Range
import Mathlib.Logic.Equiv.Basic
import Mathlib.Order.Monotone.Basic

/-! # Heap order on an implicit binary tree

    The slots of a binary heap are natural numbers: the children of `p` are
    `2p + 1` and `2p + 2`.  `below p c` says that the item `p` has to go below
    the item `c`; a heap is ORDERED when no parent has to go below its child.

    Two states of a heap under repair are described, one for each direction:

    * `RiseOrder` — every edge is in order but the one above slot `k`, whose
      item may have to rise;
    * `SinkOrder` — every edge is in order but those below slot `q`, whose
      item may have to sink.

    Each has a `move` lemma (one swap along the tree keeps it) and a `finish`
    lemma (where no swap is needed the heap is ordered).  The last section
    follows the CHAMPIONS, the better child at every slot, down from the root:
    the only path on which an item that sinks can travel. -/

namespace HeapOrder

variable {α : Type}

/-- The slot above slot `c`. -/
def parent (c : Nat) : Nat := (c - 1) / 2

/-- Slot `c` is a child of slot `p`. -/
def IsChild (c p : Nat) : Prop := c = 2 * p + 1 ∨ c = 2 * p + 2

theorem IsChild.lt {c p : Nat} (h : IsChild c p) : p < c := by
  rcases h with h | h <;> omega

theorem IsChild.parent_eq {c p : Nat} (h : IsChild c p) : parent c = p := by
  rcases h with rfl | rfl <;> simp only [parent] <;> omega

theorem isChild_parent {c : Nat} (h : c ≠ 0) : IsChild c (parent c) := by
  simp only [IsChild, parent]
  omega

theorem parent_lt {c : Nat} (h : c ≠ 0) : parent c < c := (isChild_parent h).lt

/-- A slot has one parent. -/
theorem IsChild.unique {c p p' : Nat} (h : IsChild c p) (h' : IsChild c p') : p = p' := by
  rw [← h.parent_eq, h'.parent_eq]

/-- The slots on the way from slot `k` up to the root. -/
def OnPath (k i : Nat) : Prop := ∃ d, parent^[d] k = i

theorem onPath_self (k : Nat) : OnPath k k := ⟨0, rfl⟩

/-- The way up leads on to the parent. -/
theorem OnPath.parent {k i : Nat} (h : OnPath k i) : OnPath k (parent i) := by
  obtain ⟨d, rfl⟩ := h
  exact ⟨d + 1, Function.iterate_succ_apply' HeapOrder.parent d k⟩

/-- No parent among the first `n` slots has to go below its child. -/
def Ordered (below : α → α → Prop) (n : Nat) (f : Nat → α) : Prop :=
  ∀ p c, IsChild c p → c < n → ¬ below (f p) (f c)

/-- Every edge is in order but the one above slot `k`; the children of `k`
    are in order with the parent of `k`. -/
structure RiseOrder (below : α → α → Prop) (n : Nat) (f : Nat → α) (k : Nat) : Prop where
  except : ∀ p c, IsChild c p → c < n → c ≠ k → ¬ below (f p) (f c)
  grand : k ≠ 0 → ∀ c, IsChild c k → c < n → ¬ below (f (parent k)) (f c)

/-- Every edge is in order but those below slot `q`; the children of `q` are
    in order with the parent of `q`. -/
structure SinkOrder (below : α → α → Prop) (n : Nat) (f : Nat → α) (q : Nat) : Prop where
  except : ∀ p c, IsChild c p → c < n → p ≠ q → ¬ below (f p) (f c)
  grand : q ≠ 0 → ∀ c, IsChild c q → c < n → ¬ below (f (parent q)) (f c)

/-! ## The items in a range of slots -/

/-- The items in the first `n` slots, as a multiset. -/
def items (n : Nat) (f : Nat → α) : Multiset α := (Multiset.range n).map f

theorem items_succ (n : Nat) (f : Nat → α) : items (n + 1) f = f n ::ₘ items n f := by
  rw [items, Multiset.range_succ, Multiset.map_cons, items]

theorem mem_items {n : Nat} {f : Nat → α} {x : α} :
    x ∈ items n f ↔ ∃ i, i < n ∧ f i = x := by
  simp only [items, Multiset.mem_map, Multiset.mem_range]

/-- The items depend on the first `n` slots only. -/
theorem items_congr {n : Nat} {f g : Nat → α} (h : ∀ i, i < n → f i = g i) :
    items n f = items n g :=
  Multiset.map_congr rfl fun i hi => h i (Multiset.mem_range.mp hi)

private theorem swap_lt {n a b i : Nat} (ha : a < n) (hb : b < n) (hi : i < n) :
    Equiv.swap a b i < n := by
  by_cases hia : i = a
  · rw [hia, Equiv.swap_apply_left]; exact hb
  · by_cases hib : i = b
    · rw [hib, Equiv.swap_apply_right]; exact ha
    · rw [Equiv.swap_apply_of_ne_of_ne hia hib]; exact hi

/-- **A SWAP LOSES NOTHING**: exchanging two of the first `n` slots keeps
    their items. -/
theorem items_swap {n a b : Nat} (f : Nat → α) (ha : a < n) (hb : b < n) :
    items n (f ∘ Equiv.swap a b) = items n f := by
  have hrange : (Multiset.range n).map (Equiv.swap a b) = Multiset.range n := by
    refine (Multiset.Nodup.ext ?_ (Multiset.nodup_range n)).mpr ?_
    · exact (Multiset.nodup_range n).map (Equiv.swap a b).injective
    · intro i
      rw [Multiset.mem_map]
      constructor
      · rintro ⟨j, hj, rfl⟩
        exact Multiset.mem_range.mpr (swap_lt ha hb (Multiset.mem_range.mp hj))
      · intro hi
        exact ⟨Equiv.swap a b i,
          Multiset.mem_range.mpr (swap_lt ha hb (Multiset.mem_range.mp hi)),
          Equiv.swap_apply_self a b i⟩
  rw [items, ← Multiset.map_map, hrange, items]

/-! ## Order -/

section Order

variable (below : α → α → Prop) [IsStrictWeakOrder α below]

omit [IsStrictWeakOrder α below] in
theorem not_below_of_below [IsStrictOrder α below] {a b : α} (h : below a b) :
    ¬ below b a := fun h' => irrefl_of below a (trans_of below h h')

/-- Being in order is transitive. -/
theorem not_below_trans {a b c : α} (hab : ¬ below a b) (hbc : ¬ below b c) :
    ¬ below a c := by
  intro hac
  by_cases hba : below b a
  · exact hbc (trans_of below hba hac)
  · by_cases hcb : below c b
    · exact hab (trans_of below hac hcb)
    · exact (IsStrictWeakOrder.incomp_trans a b c ⟨hab, hba⟩ ⟨hbc, hcb⟩).1 hac

/-- An item below `b` is below whatever `b` is in order under. -/
theorem below_of_below_of_not_below {a b c : α} (hab : below a b) (hcb : ¬ below c b) :
    below a c := by
  by_contra hac
  exact not_below_trans below hac hcb hab

/-- **THE ROOT IS ON TOP** of an ordered heap. -/
theorem Ordered.root {n : Nat} {f : Nat → α} (h : Ordered below n f) :
    ∀ i, i < n → ¬ below (f 0) (f i) := by
  intro i
  induction i using Nat.strongRecOn with
  | ind i ih =>
      intro hi
      by_cases h0 : i = 0
      · rw [h0]
        exact irrefl_of below (f 0)
      · have hp : parent i < i := parent_lt h0
        exact not_below_trans below (ih (parent i) hp (by omega))
          (h (parent i) i (isChild_parent h0) hi)

variable {below}

/-- One swap towards the root keeps the rise order. -/
theorem RiseOrder.move {n k : Nat} {f : Nat → α} (h : RiseOrder below n f k)
    (hk : k ≠ 0) (hkn : k < n) (hb : below (f (parent k)) (f k)) :
    RiseOrder below n (f ∘ Equiv.swap (parent k) k) (parent k) := by
  have hpk : parent k < k := parent_lt hk
  have hup : parent k ≠ 0 → ¬ below (f (parent (parent k))) (f (parent k)) := fun h0 =>
    h.except _ _ (isChild_parent h0) (by omega) (by omega)
  constructor
  · intro p c hc hcn hne
    simp only [Function.comp_apply]
    have hcp : c ≠ parent k := hne
    by_cases hck : c = k
    · have hp : p = parent k := (hck ▸ hc).unique (isChild_parent hk)
      rw [hck, hp, Equiv.swap_apply_right, Equiv.swap_apply_left]
      exact not_below_of_below below hb
    · rw [Equiv.swap_apply_of_ne_of_ne hcp hck]
      by_cases hpp : p = parent k
      · -- the other child of the swapped parent: `k` is above it now
        rw [hpp, Equiv.swap_apply_left]
        have hsib : ¬ below (f (parent k)) (f c) := h.except _ _ (hpp ▸ hc) hcn hck
        exact not_below_trans below (not_below_of_below below hb) hsib
      · by_cases hpk' : p = k
        · rw [hpk', Equiv.swap_apply_right]
          exact h.grand hk c (hpk' ▸ hc) hcn
        · rw [Equiv.swap_apply_of_ne_of_ne hpp hpk']
          exact h.except p c hc hcn hck
  · intro h0 c hc hcn
    have hpp : parent (parent k) < parent k := parent_lt h0
    simp only [Function.comp_apply]
    rw [Equiv.swap_apply_of_ne_of_ne (by omega : parent (parent k) ≠ parent k)
      (by omega : parent (parent k) ≠ k)]
    -- the grandparent was in order above the parent, and so above both its children
    by_cases hck : c = k
    · rw [hck, Equiv.swap_apply_right]
      exact hup h0
    · rw [Equiv.swap_apply_of_ne_of_ne (Nat.ne_of_gt hc.lt) hck]
      exact not_below_trans below (hup h0) (h.except _ _ hc hcn hck)

omit [IsStrictWeakOrder α below] in
/-- Where the risen item is in order with its parent, the heap is ordered. -/
theorem RiseOrder.finish {n k : Nat} {f : Nat → α} (h : RiseOrder below n f k)
    (hstop : k ≠ 0 → ¬ below (f (parent k)) (f k)) : Ordered below n f := by
  intro p c hc hcn
  by_cases hck : c = k
  · have hk : k ≠ 0 := by
      have := hc.lt
      omega
    have hp : p = parent k := (hck ▸ hc).unique (isChild_parent hk)
    rw [hck, hp]
    exact hstop hk
  · exact h.except p c hc hcn hck

/-- One swap with the better child keeps the sink order. -/
theorem SinkOrder.move {n q c : Nat} {f : Nat → α} (h : SinkOrder below n f q)
    (hc : IsChild c q) (hcn : c < n) (hb : below (f q) (f c))
    (hbest : ∀ c', IsChild c' q → c' < n → ¬ below (f c) (f c')) :
    SinkOrder below n (f ∘ Equiv.swap q c) c := by
  have hqc : q < c := hc.lt
  constructor
  · intro p d hd hdn hpc
    simp only [Function.comp_apply]
    by_cases hpq : p = q
    · -- below the slot that was left: the better child is there now
      rw [hpq, Equiv.swap_apply_left]
      by_cases hdc : d = c
      · rw [hdc, Equiv.swap_apply_right]
        exact not_below_of_below below hb
      · have hdq : d ≠ q := by
          have := hd.lt
          omega
        rw [Equiv.swap_apply_of_ne_of_ne hdq hdc]
        exact hbest d (hpq ▸ hd) hdn
    · rw [Equiv.swap_apply_of_ne_of_ne hpq hpc]
      have hdc : d ≠ c := fun hdc => hpq ((hdc ▸ hd).unique hc)
      by_cases hdq : d = q
      · -- the edge above the slot that was left
        rw [hdq, Equiv.swap_apply_left]
        have hq0 : q ≠ 0 := by
          have := hd.lt
          omega
        have hp : p = parent q := (hdq ▸ hd).unique (isChild_parent hq0)
        rw [hp]
        exact h.grand hq0 c hc hcn
      · rw [Equiv.swap_apply_of_ne_of_ne hdq hdc]
        exact h.except p d hd hdn hpq
  · intro _ d hd hdn
    have hcd : c < d := hd.lt
    simp only [Function.comp_apply]
    rw [hc.parent_eq, Equiv.swap_apply_left,
      Equiv.swap_apply_of_ne_of_ne (by omega : d ≠ q) (by omega : d ≠ c)]
    exact h.except c d hd hdn (by omega)

omit [IsStrictWeakOrder α below] in
/-- Where the sunk item is in order with its children, the heap is ordered. -/
theorem SinkOrder.finish {n q : Nat} {f : Nat → α} (h : SinkOrder below n f q)
    (hstop : ∀ c, IsChild c q → c < n → ¬ below (f q) (f c)) : Ordered below n f := by
  intro p c hc hcn
  by_cases hpq : p = q
  · rw [hpq] at hc ⊢
    exact hstop c hc hcn
  · exact h.except p c hc hcn hpq

end Order

/-! ## The path of champions -/

section Champion

variable (below : α → α → Prop) [DecidableRel below]

/-- The better child of slot `q`; the left one on a tie. -/
def champion (f : Nat → α) (q : Nat) : Nat :=
  if below (f (2 * q + 1)) (f (2 * q + 2)) then 2 * q + 2 else 2 * q + 1

/-- The slot reached from the root after following `k` champions. -/
def championPath (f : Nat → α) : Nat → Nat
  | 0 => 0
  | k + 1 => champion below f (championPath f k)

theorem isChild_champion (f : Nat → α) (q : Nat) : IsChild (champion below f q) q := by
  unfold champion
  by_cases h : below (f (2 * q + 1)) (f (2 * q + 2))
  · rw [if_pos h]; exact Or.inr rfl
  · rw [if_neg h]; exact Or.inl rfl

/-- The champion is in order above both children. -/
theorem not_below_champion [IsStrictOrder α below] (f : Nat → α) {q c : Nat}
    (hc : IsChild c q) : ¬ below (f (champion below f q)) (f c) := by
  unfold champion
  by_cases h : below (f (2 * q + 1)) (f (2 * q + 2))
  · rw [if_pos h]
    rcases hc with rfl | rfl
    · exact not_below_of_below below h
    · exact irrefl_of below _
  · rw [if_neg h]
    rcases hc with rfl | rfl
    · exact irrefl_of below _
    · exact h

theorem champion_congr {f g : Nat → α} {q : Nat}
    (hl : f (2 * q + 1) = g (2 * q + 1)) (hr : f (2 * q + 2) = g (2 * q + 2)) :
    champion below f q = champion below g q := by
  rw [champion, champion, hl, hr]

/-- The only child that an item has to go below is the champion. -/
theorem eq_champion_of_only [IsStrictWeakOrder α below] {f : Nat → α} {q c : Nat} {x : α}
    (hc : IsChild c q) (hx : below x (f c))
    (honly : ∀ c', IsChild c' q → c' ≠ c → ¬ below x (f c')) :
    c = champion below f q := by
  unfold champion
  rcases hc with rfl | rfl
  · have hr : ¬ below x (f (2 * q + 2)) := honly _ (Or.inr rfl) (by omega)
    exact (if_neg fun hlr => hr (trans_of below hx hlr)).symm
  · have hl : ¬ below x (f (2 * q + 1)) := honly _ (Or.inl rfl) (by omega)
    refine (if_pos ?_).symm
    by_contra hlr
    exact hl (below_of_below_of_not_below below hx hlr)

theorem championPath_lt_succ (f : Nat → α) (k : Nat) :
    championPath below f k < championPath below f (k + 1) :=
  (isChild_champion below f _).lt

/-- The path goes down. -/
theorem championPath_strictMono (f : Nat → α) : StrictMono (championPath below f) :=
  strictMono_nat_of_lt_succ (championPath_lt_succ below f)

/-- The path is at slot `k` or further after `k` champions. -/
theorem le_championPath (f : Nat → α) (k : Nat) : k ≤ championPath below f k := by
  induction k with
  | zero => exact Nat.zero_le _
  | succ k ih => exact Nat.lt_of_le_of_lt ih (championPath_lt_succ below f k)

/-- In an ordered heap the path is in order from any slot of it down. -/
theorem Ordered.along_champions [IsStrictWeakOrder α below] {n : Nat} {f : Nat → α}
    (h : Ordered below n f) (j : Nat) :
    ∀ d, championPath below f (j + d) < n →
      ¬ below (f (championPath below f j)) (f (championPath below f (j + d))) := by
  intro d
  induction d with
  | zero => intro _; exact irrefl_of below _
  | succ d ih =>
      intro hlt
      have hstep := championPath_lt_succ below f (j + d)
      have hlt' : championPath below f (j + d) < n := Nat.lt_trans hstep hlt
      exact not_below_trans below (ih hlt')
        (h _ _ (isChild_champion below f _) hlt)

end Champion

end HeapOrder
