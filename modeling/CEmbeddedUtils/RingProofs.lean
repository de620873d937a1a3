import Mathlib.Data.Nat.ModEq
import Mathlib.Logic.Function.Basic

/-! # Lists on a ring of cells

    A list lies on a ring of `size` cells when its elements stand in consecutive
    cells, wrapping around at the end.  Where it starts matters modulo `size`
    only, so the start may be an index into the ring or a counter that never
    comes back. -/

namespace Ring

variable {α : Type}

/-- The list `l` lies on the ring from `start` on. -/
def Holds (cell : Nat → α) (size start : Nat) (l : List α) : Prop :=
  ∀ i (h : i < l.length), cell ((start + i) % size) = l[i]

theorem holds_nil (cell : Nat → α) (size start : Nat) : Holds cell size start [] := by
  intro i h
  exact absurd h (Nat.not_lt_zero i)

/-- The start matters modulo the size only. -/
theorem holds_congr {cell : Nat → α} {size start start' : Nat} {l : List α}
    (heq : start % size = start' % size) (h : Holds cell size start l) :
    Holds cell size start' l := by
  intro i hi
  rw [← h i hi, Nat.add_mod start', ← heq, ← Nat.add_mod]

/-- Two positions less than a turn apart are different cells. -/
theorem cell_ne {size start i j : Nat} (hij : i < j) (hj : j < size) :
    (start + i) % size ≠ (start + j) % size := by
  intro heq
  have hmod : i ≡ j [MOD size] := Nat.ModEq.add_left_cancel' start heq
  have hijeq : i = j := hmod.eq_of_lt_of_lt (Nat.lt_trans hij hj) hj
  omega

/-- What stands in the cell after the last one is next in the list. -/
theorem Holds.concat {cell : Nat → α} {size start : Nat} {l : List α} {v : α}
    (h : Holds cell size start l) (hcell : cell ((start + l.length) % size) = v) :
    Holds cell size start (l ++ [v]) := by
  intro i hi
  rw [List.length_append, List.length_singleton] at hi
  rcases Nat.lt_or_eq_of_le (Nat.le_of_lt_succ hi) with hlt | rfl
  · rw [List.getElem_append_left hlt]
    exact h i hlt
  · rw [hcell, List.getElem_concat_length rfl]

/-- Writing the cell after the last one leaves the list, while there is room. -/
theorem Holds.update_next {cell : Nat → α} {size start : Nat} {l : List α}
    (h : Holds cell size start l) (hroom : l.length < size) (v : α) :
    Holds (Function.update cell ((start + l.length) % size) v) size start l := by
  intro i hi
  rw [Function.update_of_ne (cell_ne hi hroom)]
  exact h i hi

/-- Writing the cell after the last one appends, while there is room. -/
theorem Holds.push {cell : Nat → α} {size start : Nat} {l : List α}
    (h : Holds cell size start l) (hroom : l.length < size) (v : α) :
    Holds (Function.update cell ((start + l.length) % size) v) size start (l ++ [v]) :=
  (h.update_next hroom v).concat (Function.update_self _ _ _)

/-- The first element stands at the start. -/
theorem Holds.head {cell : Nat → α} {size start : Nat} {x : α} {l : List α}
    (h : Holds cell size start (x :: l)) : cell (start % size) = x :=
  h 0 (Nat.zero_lt_succ _)

/-- Dropping the first element moves the start by one. -/
theorem Holds.tail {cell : Nat → α} {size start : Nat} {x : α} {l : List α}
    (h : Holds cell size start (x :: l)) : Holds cell size (start + 1) l := by
  intro i hi
  rw [Nat.add_assoc, Nat.add_comm 1 i]
  exact h (i + 1) (Nat.succ_lt_succ hi)

/-- A list is its first element and one that starts a cell further on. -/
theorem Holds.cons {cell : Nat → α} {size start : Nat} {x : α} {l : List α}
    (hcell : cell (start % size) = x) (h : Holds cell size (start + 1) l) :
    Holds cell size start (x :: l) := by
  intro i hi
  cases i with
  | zero => exact hcell
  | succ i =>
      rw [List.getElem_cons_succ, Nat.add_comm i 1, ← Nat.add_assoc]
      exact h i (Nat.lt_of_succ_lt_succ hi)

/-- Writing the first cell replaces the first element. -/
theorem Holds.update_head {cell : Nat → α} {size start : Nat} {x : α} {l : List α}
    (h : Holds cell size start (x :: l)) (hlen : (x :: l).length ≤ size) (v : α) :
    Holds (Function.update cell (start % size) v) size start (v :: l) := by
  refine Holds.cons (Function.update_self _ _ _) ?_
  intro i hi
  have hne : (start + 0) % size ≠ (start + (1 + i)) % size := cell_ne (by omega)
    (Nat.lt_of_lt_of_le (by rw [List.length_cons]; omega) hlen)
  rw [Nat.add_assoc, Function.update_of_ne (by rw [← Nat.add_zero start]; exact hne.symm),
    ← Nat.add_assoc]
  exact h.tail i hi

/-- On a full ring the cell after the last one is the first: writing it drops
    the oldest element and appends. -/
theorem Holds.overwrite {cell : Nat → α} {size start : Nat} {x : α} {l : List α}
    (h : Holds cell size start (x :: l)) (hfull : (x :: l).length = size) (v : α) :
    Holds (Function.update cell (start % size) v) size (start + 1) (l ++ [v]) := by
  have hlen : l.length + 1 = size := hfull
  have hlast : (start + 1 + l.length) % size = start % size := by
    rw [Nat.add_assoc, Nat.add_comm 1, hlen, Nat.add_mod_right]
  rw [← hlast]
  exact h.tail.push (by omega) v

end Ring
