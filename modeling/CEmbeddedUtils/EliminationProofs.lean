import Mathlib.Data.Finset.Card
import Mathlib.Data.Finset.Filter
import Mathlib.Order.Basic

/-! # Search by elimination

    A search for a target keeps the set of indices that may still hold it.  A
    look at one of them rules out that index and, when the entry there can be
    compared with the target, everything on one side of it.  No index is
    looked at twice, so the search ends; and as long as the answers are true
    it never rules out an index that holds the target. -/

namespace Elimination

variable {ι α : Type} [LinearOrder ι]

/-- What a look at an index tells: the target is to the left of it, to the
    right of it, or the entry cannot be read. -/
inductive Verdict where
  | left
  | right
  | absent

/-- The candidates that a verdict on `i` leaves. -/
def rest (i : ι) (verdict : Verdict) (candidates : Finset ι) : Finset ι :=
  match verdict with
  | .left => candidates.filter (· < i)
  | .right => candidates.filter (i < ·)
  | .absent => candidates.erase i

theorem rest_subset (i : ι) (verdict : Verdict) (candidates : Finset ι) :
    rest i verdict candidates ⊆ candidates := by
  cases verdict with
  | left => exact Finset.filter_subset _ _
  | right => exact Finset.filter_subset _ _
  | absent => exact Finset.erase_subset _ _

/-- Every verdict rules out the index it is on. -/
theorem not_mem_rest (i : ι) (verdict : Verdict) (candidates : Finset ι) :
    i ∉ rest i verdict candidates := by
  cases verdict with
  | left => exact fun h => lt_irrefl i (Finset.mem_filter.mp h).2
  | right => exact fun h => lt_irrefl i (Finset.mem_filter.mp h).2
  | absent => exact Finset.notMem_erase i candidates

/-- Every look at a candidate leaves fewer. -/
theorem card_rest_lt {i : ι} {candidates : Finset ι} (hi : i ∈ candidates)
    (verdict : Verdict) : (rest i verdict candidates).card < candidates.card :=
  Finset.card_lt_card
    ⟨rest_subset i verdict candidates, fun h => not_mem_rest i verdict candidates (h hi)⟩

/-! ## Looking at each index once -/

/-- The looks of a search over `domain` so far: none is at a remaining
    candidate, and there is one index less for each. -/
structure Looked (domain candidates : Finset ι) (looks : List ι) : Prop where
  fresh : ∀ i ∈ looks, i ∉ candidates
  count : candidates.card + looks.length ≤ domain.card

omit [LinearOrder ι] in
theorem Looked.start (domain : Finset ι) : Looked domain domain [] :=
  ⟨fun _ h => absurd h List.not_mem_nil, Nat.le_refl _⟩

/-- A look at a candidate keeps the account. -/
theorem Looked.look {domain candidates : Finset ι} {looks : List ι}
    (h : Looked domain candidates looks) {i : ι} (hi : i ∈ candidates) (verdict : Verdict) :
    Looked domain (rest i verdict candidates) (looks ++ [i]) := by
  constructor
  · intro j hj
    rcases List.mem_append.mp hj with hj | hj
    · exact fun hmem => h.fresh j hj (rest_subset i verdict candidates hmem)
    · rw [List.mem_singleton.mp hj]
      exact not_mem_rest i verdict candidates
  · have hcard := card_rest_lt hi verdict
    have hcount := h.count
    rw [List.length_append, List.length_singleton]
    omega

/-! ## Searching a sorted array with unreadable entries -/

/-- The readable entries at `domain` are in non-decreasing order. -/
def SortedOn [LinearOrder α] (domain : Finset ι) (entries : ι → Option α) : Prop :=
  ∀ i ∈ domain, ∀ j ∈ domain, i ≤ j → ∀ a b, entries i = some a → entries j = some b → a ≤ b

/-- The true verdict on `i`; none when the target is there. -/
def verdict [LinearOrder α] (entries : ι → Option α) (target : α) (i : ι) : Option Verdict :=
  match entries i with
  | none => some .absent
  | some value =>
      if value = target then none else if target < value then some .left else some .right

omit [LinearOrder ι] in
/-- The target is found exactly where there is no verdict. -/
theorem verdict_eq_none [LinearOrder α] {entries : ι → Option α} {target : α} {i : ι}
    (h : verdict entries target i = none) : entries i = some target := by
  cases hentry : entries i with
  | none => simp [verdict, hentry] at h
  | some value =>
      by_cases hvalue : value = target
      · rw [hvalue]
      · by_cases hlt : target < value <;> simp [verdict, hentry, hvalue, hlt] at h

/-- **A TRUE VERDICT KEEPS THE TARGET**: no index that holds it is ruled out. -/
theorem mem_rest_of_holds [LinearOrder α] {domain candidates : Finset ι}
    {entries : ι → Option α} {target : α} (hsorted : SortedOn domain entries)
    (hsub : candidates ⊆ domain) {i j : ι} (hi : i ∈ candidates) (hj : j ∈ candidates)
    (hholds : entries j = some target) {v : Verdict}
    (hv : verdict entries target i = some v) : j ∈ rest i v candidates := by
  cases hentry : entries i with
  | none =>
      simp only [verdict, hentry, Option.some.injEq] at hv
      subst hv
      refine Finset.mem_erase.mpr ⟨?_, hj⟩
      rintro rfl
      rw [hentry] at hholds
      exact nomatch hholds
  | some value =>
      by_cases hvalue : value = target
      · simp [verdict, hentry, hvalue] at hv
      · by_cases hlt : target < value
        · -- an index at or right of `i` holds a value above the target
          simp only [verdict, hentry, if_neg hvalue, if_pos hlt, Option.some.injEq] at hv
          subst hv
          refine Finset.mem_filter.mpr ⟨hj, lt_of_not_ge fun hle => ?_⟩
          exact absurd hlt (not_lt_of_ge
            (hsorted i (hsub hi) j (hsub hj) hle value target hentry hholds))
        · simp only [verdict, hentry, if_neg hvalue, if_neg hlt, Option.some.injEq] at hv
          subst hv
          refine Finset.mem_filter.mpr ⟨hj, lt_of_not_ge fun hle => hvalue ?_⟩
          exact le_antisymm (not_lt.mp hlt)
            (hsorted j (hsub hj) i (hsub hi) hle target value hholds hentry)

end Elimination
