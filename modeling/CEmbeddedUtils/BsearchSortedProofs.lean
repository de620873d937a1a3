import CEmbeddedUtils.BsearchIterProofs
import CEmbeddedUtils.LoopProofs

/-! # Binary search with unreadable entries

    A caller with an array answers each index truthfully: skip an entry that
    cannot be read, and compare a readable one with the target.  When the
    readable entries are in order, such a search ends at an index that holds
    the target, or shows that there is none. -/

namespace CembBsearchSorted

open BoundedLoop CembBsearchIter Elimination SignedInt

variable {α : Type} [LinearOrder α]

/-- The answer of a caller with the array `entries`; `none` is an entry that
    cannot be read. -/
def truthfulAnswer (entries : Int → Option α) (target : α) (index : Int) :
    BsearchNotification :=
  match entries index with
  | none => .bsearchNotifyErrSkip
  | some value =>
      if value = target then .bsearchNotifyEq
      else if target < value then .bsearchNotifyLeft
      else .bsearchNotifyRight

/-- One round of the caller's loop, while the status is `BSEARCH_CONTINUE`. -/
def searchRound (entries : Int → Option α) (target : α) (iter : BsearchIterator) :
    Option (Control BsearchIterator BsearchIterator) :=
  if iter.status = .bsearchContinue then do
    let index ← bsearchIterGetCheckIndex iter
    let iter' ← bsearchIterNotify iter (truthfulAnswer entries target index.val)
    some (.again iter')
  else some (.done iter)

/-- A true answer is the true verdict, or that the target is there. -/
theorem truthfulAnswer_eq (entries : Int → Option α) (target : α) (index : Int) :
    truthfulAnswer entries target index
      = (verdict entries target index).elim .bsearchNotifyEq notificationOf := by
  rw [truthfulAnswer, verdict]
  cases entries index with
  | none => rfl
  | some value =>
      show (if value = target then _ else _) = Option.elim (if value = target then _ else _) _ _
      by_cases heq : value = target
      · rw [if_pos heq, if_pos heq]
        rfl
      · rw [if_neg heq, if_neg heq]
        by_cases hlt : target < value
        · rw [if_pos hlt, if_pos hlt]
          rfl
        · rw [if_neg hlt, if_neg hlt]
          rfl

/-- What the search of an array has settled when it has ended. -/
structure Settled (range : SearchRange) (entries : Int → Option α) (target : α)
    (iter : BsearchIterator) : Prop where
  ended : iter.status ≠ .bsearchContinue
  found : iter.status = .bsearchDoneFound → ∃ index,
    bsearchIterGetFoundIndex iter = some index ∧ index.val ∈ range.indices ∧
      entries index.val = some target
  notFound : iter.status = .bsearchDoneNotFound →
    ∀ i ∈ range.indices, entries i ≠ some target

/-- The invariant of the loop: a running search still has every index that
    holds the target among its candidates. -/
def Truthful (range : SearchRange) (entries : Int → Option α) (target : α)
    (iter : BsearchIterator) : Prop :=
  Settled range entries target iter ∨
    (Searching range iter ∧
      ∀ i ∈ range.indices, entries i = some target → i ∈ candidates iter)

/-- The candidates of a running search. -/
noncomputable def remaining (iter : BsearchIterator) : Nat :=
  if iter.status = .bsearchContinue then (candidates iter).card else 0

section Round

variable {range : SearchRange} {entries : Int → Option α} {target : α} {iter : BsearchIterator}

/-- A round of a running search asks for the index and passes the answer on. -/
theorem searchRound_running (h : Searching range iter) {iter' : BsearchIterator}
    (hnotify : bsearchIterNotify iter (truthfulAnswer entries target (checkIdx iter))
      = some iter') : searchRound entries target iter = some (.again iter') := by
  obtain ⟨hfits, hindex⟩ := h.inReach.getCheckIndex
  rw [searchRound, if_pos h.status, hindex]
  show (bsearchIterNotify iter (truthfulAnswer entries target (checkIdx iter))).bind _ = _
  rw [hnotify]
  rfl

/-- A running search has candidates. -/
theorem remaining_of_searching (h : Searching range iter) :
    remaining iter = (candidates iter).card := if_pos h.status

theorem remaining_of_ended (h : iter.status ≠ .bsearchContinue) : remaining iter = 0 :=
  if_neg h

theorem Searching.remaining_pos (h : Searching range iter) : 0 < remaining iter := by
  rw [remaining_of_searching h]
  exact Finset.card_pos.mpr ⟨_, h.check_mem⟩

/-- The target is at the index checked: the search ends there. -/
theorem Truthful.round_found (h : Searching range iter)
    (hv : verdict entries target (checkIdx iter) = none) :
    ∃ iter', searchRound entries target iter = some (.again iter') ∧
      Truthful range entries target iter' ∧ remaining iter' < remaining iter := by
  obtain ⟨hfits, hindex⟩ := h.inReach.getCheckIndex
  have hended : { iter with status := .bsearchDoneFound }.status ≠ .bsearchContinue :=
    fun h => nomatch h
  refine ⟨{ iter with status := .bsearchDoneFound }, searchRound_running h ?_, .inl ?_, ?_⟩
  · rw [truthfulAnswer_eq, hv]
    exact h.notify_ends (.inl ⟨rfl, rfl⟩)
  · refine ⟨hended, fun _ => ⟨_, hindex, ?_, verdict_eq_none hv⟩,
      (fun h => nomatch h)⟩
    exact h.candidates_subset h.check_mem
  · rw [remaining_of_ended hended]
    exact Searching.remaining_pos h

/-- A true verdict on the index checked: the search goes on with fewer
    candidates, or ends because there are none. -/
theorem Truthful.round_verdict (hsorted : SortedOn range.indices entries)
    (h : Searching range iter)
    (hkept : ∀ i ∈ range.indices, entries i = some target → i ∈ candidates iter)
    {v : Verdict} (hv : verdict entries target (checkIdx iter) = some v) :
    ∃ iter', searchRound entries target iter = some (.again iter') ∧
      Truthful range entries target iter' ∧ remaining iter' < remaining iter := by
  obtain ⟨iter', hnotify, hnarrowed, -⟩ := h.notify_verdict v
  have hkept' : ∀ i ∈ range.indices, entries i = some target →
      i ∈ rest (checkIdx iter) v (candidates iter) := fun i hi hholds =>
    mem_rest_of_holds hsorted h.candidates_subset h.check_mem (hkept i hi hholds) hholds hv
  have hround : searchRound entries target iter = some (.again iter') :=
    searchRound_running h (by rw [truthfulAnswer_eq, hv]; exact hnotify)
  refine ⟨iter', hround, ?_⟩
  cases hnarrowed with
  | goesOn hs' hleft =>
      refine ⟨.inr ⟨hs', by rw [hleft]; exact hkept'⟩, ?_⟩
      rw [remaining_of_searching h, remaining_of_searching hs', hleft]
      exact card_rest_lt h.check_mem v
  | exhausted hstatus _ hnone =>
      have hended : iter'.status ≠ .bsearchContinue := by
        rw [hstatus]
        exact fun h => nomatch h
      -- no candidate is left, and an index that held the target would be one
      refine ⟨.inl ⟨hended, fun hfound => ?_, fun _ i hi hholds => ?_⟩, ?_⟩
      · rw [hstatus] at hfound
        exact nomatch hfound
      · have hmem := hkept' i hi hholds
        rw [hnone] at hmem
        exact Finset.notMem_empty i hmem
      · rw [remaining_of_ended hended]
        exact Searching.remaining_pos h

/-- **ONE ROUND** either finds the search ended and settled, or keeps the
    invariant and leaves fewer candidates. -/
theorem Truthful.round (hsorted : SortedOn range.indices entries)
    (h : Truthful range entries target iter) :
    (∃ iter', searchRound entries target iter = some (.done iter') ∧
      Settled range entries target iter') ∨
    (∃ iter', searchRound entries target iter = some (.again iter') ∧
      Truthful range entries target iter' ∧ remaining iter' < remaining iter) := by
  rcases h with hsettled | ⟨hs, hkept⟩
  · exact .inl ⟨iter, if_neg hsettled.ended, hsettled⟩
  · cases hv : verdict entries target (checkIdx iter) with
    | none => exact .inr (Truthful.round_found hs hv)
    | some v => exact .inr (Truthful.round_verdict hsorted hs hkept hv)

omit [LinearOrder α] in
/-- A settled search has found the target exactly when an index holds it. -/
theorem Settled.outcome (h : Settled range entries target iter) :
    ((∃ i ∈ range.indices, entries i = some target) →
      iter.status = .bsearchDoneFound ∧ ∃ index, bsearchIterGetFoundIndex iter = some index ∧
        index.val ∈ range.indices ∧ entries index.val = some target) ∧
    ((¬ ∃ i ∈ range.indices, entries i = some target) →
      iter.status = .bsearchDoneNotFound) := by
  cases hstatus : iter.status with
  | bsearchContinue => exact absurd hstatus h.ended
  | bsearchDoneFound =>
      obtain ⟨index, hindex, hmem, hholds⟩ := h.found hstatus
      exact ⟨fun _ => ⟨rfl, index, hindex, hmem, hholds⟩,
        fun hnone => absurd ⟨index.val, hmem, hholds⟩ hnone⟩
  | bsearchDoneNotFound =>
      refine ⟨?_, fun _ => rfl⟩
      rintro ⟨i, hi, hholds⟩
      exact absurd hholds (h.notFound hstatus i hi)

end Round

/-- **SOUND AND COMPLETE**: the search of a range whose readable entries are in
    order ends; at a readable index that holds the target if there is one, and
    without a result otherwise. -/
theorem bsearch_iter_sound_complete (iter : BsearchIterator) (startIdx stopIdx : SInt 32)
    (hstart : 0 ≤ startIdx.val) (hlt : startIdx.val < stopIdx.val)
    (hstop : stopIdx.val < maxVal 32) (entries : Int → Option α) (target : α)
    (hsorted : ∀ i j, startIdx.val ≤ i → i ≤ j → j ≤ stopIdx.val →
      ∀ a b, entries i = some a → entries j = some b → a ≤ b) :
    ∃ iter₀ rounds iter', bsearchIterInit iter startIdx stopIdx = some (.errNone, iter₀) ∧
      loop (searchRound entries target) rounds iter₀ = some iter' ∧
      ((∃ i, startIdx.val ≤ i ∧ i ≤ stopIdx.val ∧ entries i = some target) →
        iter'.status = .bsearchDoneFound ∧
        ∃ index, bsearchIterGetFoundIndex iter' = some index ∧ startIdx.val ≤ index.val ∧
          index.val ≤ stopIdx.val ∧ entries index.val = some target) ∧
      ((¬ ∃ i, startIdx.val ≤ i ∧ i ≤ stopIdx.val ∧ entries i = some target) →
        iter'.status = .bsearchDoneNotFound) := by
  let range : SearchRange := .ofNonneg startIdx stopIdx hstart hlt hstop
  have hsorted' : SortedOn range.indices entries := by
    intro i hi j hj hij
    exact hsorted i j (Finset.mem_Icc.mp hi).1 hij (Finset.mem_Icc.mp hj).2
  obtain ⟨iter₀, hinit, hs₀, hall⟩ := init_searching range iter
  have htruthful : Truthful range entries target iter₀ :=
    .inr ⟨hs₀, fun i hi _ => by rw [hall]; exact hi⟩
  obtain ⟨iter', hloop, hsettled⟩ := loop_spec remaining
    (fun iter (h : Truthful range entries target iter) => h.round hsorted')
    (remaining iter₀ + 1) iter₀ htruthful (Nat.lt_succ_self _)
  have hindices : ∀ i, i ∈ range.indices ↔ startIdx.val ≤ i ∧ i ≤ stopIdx.val :=
    fun i => Finset.mem_Icc
  obtain ⟨hfound, hnotFound⟩ := hsettled.outcome
  simp only [hindices, and_assoc] at hfound hnotFound
  exact ⟨iter₀, _, iter', hinit, hloop, hfound, hnotFound⟩

/-- Four entries, the second of which cannot be read. -/
def gappedEntries (i : Int) : Option Int := if i = 1 then none else some i

/-- The search for the last of four entries past the one that cannot be read. -/
theorem bsearch_iter_sound_complete_gapped :
    ∃ iter₀ rounds iter', bsearchIterInit freshIterator ⟨0, by decide⟩ ⟨3, by decide⟩
        = some (.errNone, iter₀) ∧
      loop (searchRound gappedEntries 3) rounds iter₀ = some iter' ∧
      iter'.status = .bsearchDoneFound := by
  have hentry : ∀ i a, gappedEntries i = some a → i = a := by
    intro i a h
    by_cases hi : i = 1
    · rw [gappedEntries, if_pos hi] at h
      exact nomatch h
    · rw [gappedEntries, if_neg hi] at h
      exact Option.some.inj h
  obtain ⟨iter₀, rounds, iter', hinit, hloop, hfound, -⟩ :=
    bsearch_iter_sound_complete freshIterator ⟨0, by decide⟩ ⟨3, by decide⟩
    (by decide) (by decide) (by decide) gappedEntries 3 (fun i j _ hij _ a b ha hb => by
      rw [← hentry i a ha, ← hentry j b hb]
      exact hij)
  exact ⟨iter₀, rounds, iter', hinit, hloop, (hfound ⟨3, by decide, by decide, rfl⟩).1⟩

end CembBsearchSorted
