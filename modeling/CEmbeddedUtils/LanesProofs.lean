import Mathlib.Algebra.BigOperators.Fin
import Mathlib.Data.Nat.ModEq
import Mathlib.Tactic.Ring

/-! # Lanes — adding up the digits of a number in place

    A number is read as LANES of `s` bits each, the lowest first.  Folding it adds
    the two halves of every lane of `2 * s` bits and leaves the sum in that lane:
    what a machine does to a whole word with one mask, one shift and one addition.
    No sum leaves its lane, so folding keeps the sum of all lanes, and after some
    folds from lanes of one bit the number of ones stands in a few wide lanes.

    * `laneSum_foldPairs` — folding keeps the sum of the lanes;
    * `sub_eq_foldPairs`, `add_and_lowMask` — two shorter ways to fold, for lanes of
      one bit and for lanes with room;
    * `laneSum_one` — the sum of lanes of one bit is the number of one bits. -/

namespace Lanes

/-- The sum of the first `m` lanes of `s` bits. -/
def laneSum (s : Nat) : Nat → Nat → Nat
  | 0, _ => 0
  | m + 1, x => x % 2 ^ s + laneSum s m (x / 2 ^ s)

/-- Ones in the low halves of `m` lanes of `2 * s` bits. -/
def lowMask (s : Nat) : Nat → Nat
  | 0 => 0
  | m + 1 => (2 ^ s - 1) + 2 ^ (2 * s) * lowMask s m

/-- The two halves of each of `m` lanes of `2 * s` bits, added. -/
def foldPairs (s m x : Nat) : Nat := (x &&& lowMask s m) + (x / 2 ^ s &&& lowMask s m)

/-! ## One lane more -/

theorem two_pow_double (s : Nat) : 2 ^ (2 * s) = 2 ^ s * 2 ^ s := by
  rw [two_mul, pow_add]

theorem low_lt (s : Nat) : 2 ^ s - 1 < 2 ^ (2 * s) := by
  have hpos := Nat.two_pow_pos s
  have hle := Nat.le_mul_of_pos_right (2 ^ s) hpos
  rw [two_pow_double]
  omega

/-- The lowest lane is put together from its halves. -/
theorem mod_lane (s x : Nat) :
    x % 2 ^ (2 * s) = x % 2 ^ s + 2 ^ s * (x / 2 ^ s % 2 ^ s) := by
  rw [two_pow_double, Nat.mod_mul]

/-- The lowest lane and the others, of a number put together from them. -/
theorem split_lane {k low : Nat} (h : low < 2 ^ k) (rest : Nat) :
    (low + 2 ^ k * rest) % 2 ^ k = low ∧ (low + 2 ^ k * rest) / 2 ^ k = rest := by
  rw [Nat.add_mul_mod_self_left, Nat.mod_eq_of_lt h, Nat.add_mul_div_left _ _ (Nat.two_pow_pos k),
    Nat.div_eq_of_lt h, Nat.zero_add]
  exact ⟨rfl, rfl⟩

/-- Masking takes the low half of the lowest lane and goes on with the others. -/
theorem and_lowMask_succ (s m x : Nat) :
    x &&& lowMask s (m + 1)
      = x % 2 ^ s + 2 ^ (2 * s) * (x / 2 ^ (2 * s) &&& lowMask s m) := by
  obtain ⟨hlow, hrest⟩ := split_lane (low_lt s) (lowMask s m)
  have hdvd : 2 ^ s ∣ 2 ^ (2 * s) := Nat.pow_dvd_pow 2 (Nat.le_mul_of_pos_left s Nat.two_pos)
  calc x &&& lowMask s (m + 1)
      = (x &&& lowMask s (m + 1)) % 2 ^ (2 * s)
          + 2 ^ (2 * s) * ((x &&& lowMask s (m + 1)) / 2 ^ (2 * s)) :=
        (Nat.mod_add_div _ _).symm
    _ = (x % 2 ^ (2 * s) &&& (2 ^ s - 1))
          + 2 ^ (2 * s) * (x / 2 ^ (2 * s) &&& lowMask s m) := by
        rw [Nat.and_mod_two_pow, Nat.and_div_two_pow, lowMask, hlow, hrest]
    _ = x % 2 ^ s + 2 ^ (2 * s) * (x / 2 ^ (2 * s) &&& lowMask s m) := by
        rw [Nat.and_two_pow_sub_one_eq_mod, Nat.mod_mod_of_dvd _ hdvd]

/-- Folding adds the halves of the lowest lane and goes on with the others. -/
theorem foldPairs_succ (s m x : Nat) :
    foldPairs s (m + 1) x
      = (x % 2 ^ s + x / 2 ^ s % 2 ^ s)
        + 2 ^ (2 * s) * foldPairs s m (x / 2 ^ (2 * s)) := by
  rw [foldPairs, and_lowMask_succ, and_lowMask_succ, Nat.div_right_comm, foldPairs]
  ring

/-- The sum of two halves stays in the lane. -/
theorem halves_lt {s : Nat} (hs : 1 ≤ s) (x : Nat) :
    x % 2 ^ s + x / 2 ^ s % 2 ^ s < 2 ^ (2 * s) := by
  have hlow := Nat.mod_lt x (Nat.two_pow_pos s)
  have hhigh := Nat.mod_lt (x / 2 ^ s) (Nat.two_pow_pos s)
  have htwo : 2 * 2 ^ s ≤ 2 ^ s * 2 ^ s :=
    Nat.mul_le_mul_right _ (Nat.le_self_pow (by omega) 2)
  rw [two_pow_double]
  omega

/-! ## The sum of the lanes -/

/-- **FOLDING KEEPS THE SUM**: `m` lanes of the folded number add up to twice as many
    lanes of half the width. -/
theorem laneSum_foldPairs {s : Nat} (hs : 1 ≤ s) (m : Nat) :
    ∀ x, laneSum (2 * s) m (foldPairs s m x) = laneSum s (2 * m) x := by
  induction m with
  | zero => intro x; rfl
  | succ m ih =>
      intro x
      obtain ⟨hlow, hrest⟩ := split_lane (halves_lt hs x)
        (foldPairs s m (x / 2 ^ (2 * s)))
      rw [laneSum, foldPairs_succ, hlow, hrest, ih, Nat.mul_succ, laneSum, laneSum,
        Nat.div_div_eq_div_mul, ← two_pow_double, Nat.add_assoc]

/-- Lanes of `s` bits add up to at most that many times their largest value. -/
theorem laneSum_le (s m : Nat) : ∀ x, laneSum s m x ≤ m * (2 ^ s - 1) := by
  induction m with
  | zero => intro x; exact Nat.zero_le _
  | succ m ih =>
      intro x
      have hlane := Nat.mod_lt x (Nat.two_pow_pos s)
      have hrest := ih (x / 2 ^ s)
      rw [laneSum, Nat.succ_mul]
      omega

/-- **LANES OF ONE BIT** add up to the number of one bits. -/
theorem laneSum_one (m : Nat) :
    ∀ x, laneSum 1 m x = (Finset.univ.filter fun k : Fin m => x.testBit k = true).card := by
  induction m with
  | zero => intro x; rfl
  | succ m ih =>
      intro x
      rw [Fin.card_filter_univ_succ, laneSum, ih, pow_one]
      simp only [Fin.val_zero, Fin.val_succ, Nat.testBit_zero, Nat.testBit_succ,
        decide_eq_true_eq]
      rcases Nat.mod_two_eq_zero_or_one x with hbit | hbit
      · rw [hbit, if_neg Nat.zero_ne_one, Nat.zero_add]
      · rw [hbit, if_pos rfl, Nat.add_comm]

/-! ## Shorter ways to fold -/

/-- A number that its lanes hold is put together from their halves. -/
theorem halves_add {s m : Nat} :
    ∀ {x}, x < 2 ^ (2 * s * m) →
      (x &&& lowMask s m) + 2 ^ s * (x / 2 ^ s &&& lowMask s m) = x := by
  induction m with
  | zero =>
      intro x hx
      rw [Nat.mul_zero, pow_zero, Nat.lt_one_iff] at hx
      rw [hx, Nat.zero_and, Nat.zero_div, Nat.zero_and, Nat.mul_zero]
  | succ m ih =>
      intro x hx
      have hrest : x / 2 ^ (2 * s) < 2 ^ (2 * s * m) := by
        rw [Nat.div_lt_iff_lt_mul (Nat.two_pow_pos _), ← pow_add]
        exact hx
      rw [and_lowMask_succ, and_lowMask_succ, Nat.div_right_comm]
      calc x % 2 ^ s + 2 ^ (2 * s) * (x / 2 ^ (2 * s) &&& lowMask s m)
            + 2 ^ s * (x / 2 ^ s % 2 ^ s
              + 2 ^ (2 * s) * (x / 2 ^ (2 * s) / 2 ^ s &&& lowMask s m))
          = x % 2 ^ s + 2 ^ s * (x / 2 ^ s % 2 ^ s)
            + 2 ^ (2 * s) * ((x / 2 ^ (2 * s) &&& lowMask s m)
              + 2 ^ s * (x / 2 ^ (2 * s) / 2 ^ s &&& lowMask s m)) := by ring
        _ = x := by rw [← mod_lane, ih hrest, Nat.mod_add_div]

/-- **LANES OF ONE BIT FOLD BY A SUBTRACTION**: a lane of two bits less its upper bit is
    the sum of the two. -/
theorem sub_eq_foldPairs {m x : Nat} (hx : x < 2 ^ (2 * m)) :
    (x / 2 &&& lowMask 1 m) ≤ x ∧ x - (x / 2 &&& lowMask 1 m) = foldPairs 1 m x := by
  have hhalves := halves_add (s := 1) (m := m) (by rw [Nat.mul_one]; exact hx)
  rw [pow_one] at hhalves
  rw [foldPairs, pow_one]
  omega

/-- Every lane of `s` bits holds at most `c`. -/
def LanesLe (s c x : Nat) : Prop := ∀ j, x / 2 ^ (s * j) % 2 ^ s ≤ c

/-- The lanes further up. -/
theorem LanesLe.div {s c x : Nat} (h : LanesLe s c x) (k : Nat) :
    LanesLe s c (x / 2 ^ (s * k)) := by
  intro j
  rw [Nat.div_div_eq_div_mul, ← pow_add, ← Nat.mul_add]
  exact h (k + j)

/-- Two lanes of halves with room do not carry when they are added. -/
theorem lanes_add_lt {s c x : Nat} (hc : 2 * c < 2 ^ s) (h0 : x % 2 ^ s ≤ c)
    (h1 : x / 2 ^ s % 2 ^ s ≤ c) (h2 : x / 2 ^ s / 2 ^ s % 2 ^ s ≤ c) :
    x % 2 ^ (2 * s) + x / 2 ^ s % 2 ^ (2 * s) < 2 ^ (2 * s) := by
  have hhigh : 2 ^ s * (x / 2 ^ s % 2 ^ s) + 2 ^ s * (x / 2 ^ s / 2 ^ s % 2 ^ s)
      ≤ 2 ^ s * (2 * c) := by
    rw [← Nat.mul_add]
    exact Nat.mul_le_mul_left _ (by omega)
  have hroom : 2 ^ s * (2 * c) + 2 ^ s ≤ 2 ^ s * 2 ^ s := by
    rw [← Nat.mul_succ]
    exact Nat.mul_le_mul_left _ hc
  rw [mod_lane, mod_lane, two_pow_double]
  omega

/-- **LANES WITH ROOM FOLD WITH ONE MASK**: where no sum of two lanes leaves the lane,
    the mask may come after the addition. -/
theorem add_and_lowMask {s c : Nat} (hc : 2 * c < 2 ^ s) (m : Nat) :
    ∀ {x}, LanesLe s c x → (x + x / 2 ^ s) &&& lowMask s m = foldPairs s m x := by
  induction m with
  | zero =>
      intro x _
      rw [foldPairs, lowMask, Nat.and_zero, Nat.and_zero, Nat.and_zero]
  | succ m ih =>
      intro x h
      have h0 : x % 2 ^ s ≤ c := by
        have hlane := h 0
        rw [Nat.mul_zero, pow_zero, Nat.div_one] at hlane
        exact hlane
      have h1 : x / 2 ^ s % 2 ^ s ≤ c := by
        have hlane := h 1
        rw [Nat.mul_one] at hlane
        exact hlane
      have h2 : x / 2 ^ s / 2 ^ s % 2 ^ s ≤ c := by
        have hlane := h 2
        rw [Nat.mul_comm s 2, two_pow_double, ← Nat.div_div_eq_div_mul] at hlane
        exact hlane
      -- neither the lowest half nor the lowest lane of the sum carries
      have hhalf : (x + x / 2 ^ s) % 2 ^ s = x % 2 ^ s + x / 2 ^ s % 2 ^ s := by
        rw [Nat.add_mod, Nat.mod_eq_of_lt (by omega)]
      have hlane : (x + x / 2 ^ s) / 2 ^ (2 * s)
          = x / 2 ^ (2 * s) + x / 2 ^ (2 * s) / 2 ^ s := by
        rw [Nat.div_right_comm x (2 ^ (2 * s))]
        exact Nat.add_div_eq_of_add_mod_lt (lanes_add_lt hc h0 h1 h2)
      rw [and_lowMask_succ, hhalf, hlane, foldPairs_succ]
      have hrest := h.div 2
      rw [Nat.mul_comm s 2] at hrest
      rw [ih hrest]

/-- The lanes of a folded number hold at most twice the largest value of a half. -/
theorem lanesLe_foldPairs {s : Nat} (hs : 1 ≤ s) (m : Nat) :
    ∀ x, LanesLe (2 * s) (2 * (2 ^ s - 1)) (foldPairs s m x) := by
  induction m with
  | zero =>
      intro x j
      rw [foldPairs, lowMask, Nat.and_zero, Nat.and_zero, Nat.zero_div, Nat.zero_mod]
      exact Nat.zero_le _
  | succ m ih =>
      intro x j
      obtain ⟨hlow, hrest⟩ := split_lane (halves_lt hs x)
        (foldPairs s m (x / 2 ^ (2 * s)))
      rw [foldPairs_succ]
      cases j with
      | zero =>
          have hl := Nat.mod_lt x (Nat.two_pow_pos s)
          have hh := Nat.mod_lt (x / 2 ^ s) (Nat.two_pow_pos s)
          rw [Nat.mul_zero, pow_zero, Nat.div_one, hlow]
          omega
      | succ j =>
          rw [Nat.mul_succ, pow_add, Nat.mul_comm (2 ^ (2 * s * j)), ← Nat.div_div_eq_div_mul,
            hrest]
          exact ih _ j

end Lanes
