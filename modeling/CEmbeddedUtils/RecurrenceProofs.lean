import CEmbeddedUtils.PartialIterationProofs
import Mathlib.Combinatorics.Pigeonhole
import Mathlib.Order.Interval.Finset.Nat

/-! # Recurrence — paths that come back never end

    A partial step may look at less than it leads through: where it goes, as far as
    some view of the position tells, is decided by that view alone.  A path whose view
    comes back is then periodic in its view, and never gets stuck.  If there are only
    so many views, that happens to every path that is longer than this, so such a path
    shows after a bounded number of steps that it has no end. -/

namespace PartialIteration

variable {α β : Type} {next : α → Option α} {x y z : α} {m n : Nat}

/-- Where a step leads, the view decides. -/
def DecidedBy (next : α → Option α) (view : α → β) : Prop :=
  ∀ x y, view x = view y → (next x).map view = (next y).map view

theorem iter_add (next : α → Option α) (m n : Nat) (x : α) :
    iter next (m + n) x = (iter next m x).bind (iter next n) := by
  induction n with
  | zero => exact (Option.bind_fun_some _).symm
  | succ n ih =>
      rw [← Nat.add_assoc, iter, ih, Option.bind_assoc]
      rfl

/-- A path that is undefined somewhere gets stuck before. -/
theorem exists_stuck_of_none (h : iter next m x = none) :
    ∃ k < m, ∃ y, iter next k x = some y ∧ next y = none := by
  induction m with
  | zero => exact nomatch h
  | succ m ih =>
      cases hm : iter next m x with
      | none =>
          obtain ⟨k, hk, y, hy, hstuck⟩ := ih hm
          exact ⟨k, Nat.lt_succ_of_lt hk, y, hy, hstuck⟩
      | some y =>
          rw [iter_succ hm] at h
          exact ⟨m, Nat.lt_succ_self m, y, hm, h⟩

/-- A path is defined up to every position that it reaches. -/
theorem exists_iter_of_le (h : iter next n x = some y) (hle : m ≤ n) :
    ∃ z, iter next m x = some z := by
  cases hm : iter next m x with
  | some z => exact ⟨z, rfl⟩
  | none =>
      obtain ⟨k, hk, u, hu, hstuck⟩ := exists_stuck_of_none hm
      rw [iter_eq_none_of_stuck hu hstuck (Nat.lt_of_lt_of_le hk hle)] at h
      cases h

/-- Paths of equal views have equal views all along. -/
theorem DecidedBy.iter {view : α → β} (hview : DecidedBy next view) (h : view x = view y)
    (n : Nat) : (PartialIteration.iter next n x).map view
      = (PartialIteration.iter next n y).map view := by
  induction n with
  | zero => exact congrArg some h
  | succ n ih =>
      show ((PartialIteration.iter next n x).bind next).map view
        = ((PartialIteration.iter next n y).bind next).map view
      cases hx : PartialIteration.iter next n x with
      | none =>
          rw [hx, Option.map_none] at ih
          rw [Option.map_eq_none_iff.mp ih.symm]
      | some x' =>
          rw [hx, Option.map_some] at ih
          obtain ⟨y', hy, hsame⟩ := Option.map_eq_some_iff.mp ih.symm
          rw [hy]
          exact hview x' y' hsame.symm

/-- **A VIEW THAT COMES BACK**: a path with one view at two places never ends. -/
theorem never_ends_of_repeat {view : α → β} (hview : DecidedBy next view) {i j : Nat}
    (hij : i < j) (hi : iter next i x = some y) (hj : iter next j x = some z)
    (hsame : view y = view z) : ∀ m, ∃ u, iter next m x = some u := by
  intro m
  cases hm : iter next m x with
  | some u => exact ⟨u, rfl⟩
  | none =>
      -- it would get stuck after the second place, and so already after the first
      obtain ⟨k, -, u, hu, hstuck⟩ := exists_stuck_of_none hm
      have hjk : j ≤ k := by
        by_contra hlt
        rw [iter_eq_none_of_stuck hu hstuck (Nat.lt_of_not_le hlt)] at hj
        cases hj
      obtain ⟨d, rfl⟩ := Nat.exists_eq_add_of_le hjk
      rw [iter_add, hj, Option.bind_some] at hu
      have hviews := hview.iter hsame d
      rw [hu, Option.map_some] at hviews
      obtain ⟨v, hv, hvu⟩ := Option.map_eq_some_iff.mp hviews
      have hend : next v = none := by
        have hnext := hview v u hvu
        rw [hstuck, Option.map_none] at hnext
        exact Option.map_eq_none_iff.mp hnext
      have hfirst : iter next (i + d) x = some v := by
        rw [iter_add, hi, Option.bind_some, hv]
      have hnone := iter_eq_none_of_stuck hfirst hend (Nat.add_lt_add_right hij d)
      rw [iter_add, hj, Option.bind_some, hu] at hnone
      cases hnone

/-- **LONGER THAN THERE ARE VIEWS**: a path whose views after the start are among a
    finite number, and that has more steps than there are, never ends. -/
theorem never_ends_of_card_lt {view : α → β} (hview : DecidedBy next view) (views : Finset β)
    (hviews : ∀ n y, 0 < n → iter next n x = some y → view y ∈ views) (hlong : views.card < n)
    (h : iter next n x = some z) : ∀ m, ∃ u, iter next m x = some u := by
  classical
  have hmaps : ∀ k ∈ Finset.Icc 1 n, (iter next k x).map view ∈ views.image some := by
    intro k hk
    obtain ⟨hpos, hle⟩ := Finset.mem_Icc.mp hk
    obtain ⟨y, hy⟩ := exists_iter_of_le h hle
    rw [hy]
    exact Finset.mem_image_of_mem some (hviews k y hpos hy)
  have hcard : (views.image some).card < (Finset.Icc 1 n).card := by
    rw [Nat.card_Icc]
    exact Nat.lt_of_le_of_lt Finset.card_image_le (by omega)
  obtain ⟨i, hi, j, hj, hne, hsame⟩ :=
    Finset.exists_ne_map_eq_of_card_lt_of_maps_to hcard hmaps
  obtain ⟨y, hy⟩ := exists_iter_of_le h (Finset.mem_Icc.mp hi).2
  obtain ⟨y', hy'⟩ := exists_iter_of_le h (Finset.mem_Icc.mp hj).2
  have hview' : view y = view y' := by
    simp only [hy, hy', Option.map_some, Option.some.injEq] at hsame
    exact hsame
  rcases Nat.lt_or_gt_of_ne hne with hlt | hgt
  · exact never_ends_of_repeat hview hlt hy hy' hview'
  · exact never_ends_of_repeat hview hgt hy' hy hview'.symm

end PartialIteration
