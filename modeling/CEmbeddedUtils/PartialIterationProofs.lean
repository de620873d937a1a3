import Mathlib.Data.Option.Basic

/-! # Iterating a partial step

    A step that is a partial function leads from a position along one path,
    which goes on for ever or gets stuck at one place.  Whether it reaches a
    given length and where it gets stuck exclude each other. -/

namespace PartialIteration

variable {α : Type}

/-- The position after `count` steps, if there are that many. -/
def iter (next : α → Option α) : Nat → α → Option α
  | 0, x => some x
  | count + 1, x => (iter next count x).bind next

variable {next : α → Option α} {x y z : α} {m n : Nat}

theorem iter_succ (h : iter next n x = some y) : iter next (n + 1) x = next y := by
  rw [iter, h, Option.bind_some]

/-- The path does not go on from where it is stuck. -/
theorem iter_eq_none_of_stuck (h : iter next n x = some y) (hstuck : next y = none)
    (hlt : n < m) : iter next m x = none := by
  induction m with
  | zero => exact absurd hlt (Nat.not_lt_zero n)
  | succ m ih =>
      rcases Nat.lt_or_eq_of_le (Nat.lt_succ_iff.mp hlt) with hlt' | rfl
      · rw [iter, ih hlt', Option.bind_none]
      · rw [iter_succ h, hstuck]

/-- **ONE STUCK POSITION**: a path gets stuck at most once. -/
theorem stuck_unique (hm : iter next m x = some y) (hy : next y = none)
    (hn : iter next n x = some z) (hz : next z = none) : y = z := by
  rcases Nat.lt_trichotomy m n with hlt | rfl | hlt
  · rw [iter_eq_none_of_stuck hm hy hlt] at hn
    exact nomatch hn
  · rw [hm] at hn
    exact Option.some.inj hn
  · rw [iter_eq_none_of_stuck hn hz hlt] at hm
    exact nomatch hm

end PartialIteration
