import Mathlib.Algebra.Order.Ring.Int

/-! # The zig-zag order of the integers

    `0, 1, -1, 2, -2, …` visits every integer once.  `rank` is the position
    of an integer in that sequence, `next` the integer after it. -/

namespace Zigzag

/-- How many integers the zig-zag visits before `k`. -/
def rank (k : Int) : Int := if 0 < k then 2 * k - 1 else -(2 * k)

/-- The integer visited after `k`. -/
def next (k : Int) : Int := if 0 < k then -k else -k + 1

@[simp] theorem rank_zero : rank 0 = 0 := rfl

theorem rank_of_pos {k : Int} (h : 0 < k) : rank k = 2 * k - 1 := if_pos h

theorem rank_of_nonpos {k : Int} (h : k ≤ 0) : rank k = -(2 * k) :=
  if_neg (Int.not_lt.mpr h)

theorem rank_nonneg (k : Int) : 0 ≤ rank k := by
  by_cases h : 0 < k
  · rw [rank_of_pos h]; omega
  · rw [rank_of_nonpos (by omega)]; omega

/-- The zig-zag goes on by one position at a time. -/
theorem rank_next (k : Int) : rank (next k) = rank k + 1 := by
  by_cases h : 0 < k
  · rw [next, if_pos h, rank_of_nonpos (by omega), rank_of_pos h]
    omega
  · rw [next, if_neg h, rank_of_pos (by omega), rank_of_nonpos (by omega)]
    omega

/-- No integer is visited twice. -/
theorem rank_injective {j k : Int} (h : rank j = rank k) : j = k := by
  rcases Int.lt_or_le 0 j with hj | hj <;> rcases Int.lt_or_le 0 k with hk | hk
  · rw [rank_of_pos hj, rank_of_pos hk] at h; omega
  · rw [rank_of_pos hj, rank_of_nonpos hk] at h; omega
  · rw [rank_of_nonpos hj, rank_of_pos hk] at h; omega
  · rw [rank_of_nonpos hj, rank_of_nonpos hk] at h; omega

/-- From `k` on the left side or the centre, what is left of `k` is exactly
    what is left of it and not yet visited. -/
theorem le_rank_of_lt {j k : Int} (hk : k ≤ 0) (h : j < k) : rank k ≤ rank j := by
  rw [rank_of_nonpos hk, rank_of_nonpos (by omega)]
  omega

/-- From `k` on the right side, what is left of `k` and not yet visited starts
    at the next integer. -/
theorem le_next_iff {j k : Int} (hk : 0 < k) : j ≤ next k ↔ j < k ∧ rank k ≤ rank j := by
  rw [next, if_pos hk, rank_of_pos hk]
  by_cases hj : 0 < j
  · rw [rank_of_pos hj]; omega
  · rw [rank_of_nonpos (by omega)]; omega

/-- From `k` on the right side or the centre, what is right of `k` is not yet
    visited. -/
theorem le_rank_of_gt {j k : Int} (hk : 0 ≤ k) (h : k < j) : rank k ≤ rank j := by
  rw [rank_of_pos (Int.lt_of_le_of_lt hk h)]
  by_cases hpos : 0 < k
  · rw [rank_of_pos hpos]; omega
  · rw [rank_of_nonpos (by omega)]; omega

/-- From `k` on the left side, what is right of `k` and not yet visited starts
    at the next integer. -/
theorem next_le_iff {j k : Int} (hk : k < 0) : next k ≤ j ↔ k < j ∧ rank k ≤ rank j := by
  rw [next, if_neg (by omega), rank_of_nonpos hk.le]
  by_cases hj : 0 < j
  · rw [rank_of_pos hj]; omega
  · rw [rank_of_nonpos (by omega)]; omega

/-! ## A window around a pivot

    The window reaches as far to the right of its pivot as to the left, or one
    further.  So the zig-zag around the pivot leaves it only when it has been
    all through it. -/

/-- The middle of a window, the left one of two. -/
def middle (lo hi : Int) : Int := lo + (hi - lo) / 2

/-- **NOTHING IS LEFT OUT**: when the integer after `k` is outside the window,
    everything in the window has been visited. -/
theorem rank_le_of_next_outside {lo hi j k : Int} (hlo : lo ≤ middle lo hi + k)
    (hhi : middle lo hi + k ≤ hi)
    (hout : hi < middle lo hi + next k ∨ middle lo hi + next k < lo)
    (hjlo : lo ≤ middle lo hi + j) (hjhi : middle lo hi + j ≤ hi) : rank j ≤ rank k := by
  unfold middle at hlo hhi hout hjlo hjhi
  by_cases hk : 0 < k
  · -- `-k` is below the window, which is not longer on the left than on the right
    rw [next, if_pos hk] at hout
    rw [rank_of_pos hk]
    by_cases hj : 0 < j
    · rw [rank_of_pos hj]; omega
    · rw [rank_of_nonpos (by omega)]; omega
  · -- `-k + 1` is above the window, which is at most one longer on the right
    rw [next, if_neg hk] at hout
    rw [rank_of_nonpos (Int.not_lt.mp hk)]
    by_cases hj : 0 < j
    · rw [rank_of_pos hj]; omega
    · rw [rank_of_nonpos (Int.not_lt.mp hj)]; omega

/-- The integer after one of the window is at most one outside it. -/
theorem next_bounds {lo hi k : Int} (hlo : lo ≤ middle lo hi + k)
    (hhi : middle lo hi + k ≤ hi) :
    lo - 1 ≤ middle lo hi + next k ∧ middle lo hi + next k ≤ hi + 1 := by
  unfold middle at hlo hhi ⊢
  by_cases hk : 0 < k
  · rw [next, if_pos hk]; omega
  · rw [next, if_neg hk]; omega

end Zigzag
