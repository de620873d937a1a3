import CEmbeddedUtils.BsearchHalvingProofs
import CEmbeddedUtils.BsearchSortedProofs

/-! # The effort of a search

    A caller's loop asks for an index, reads the entry there and passes the
    answer on.  An answer to the left or to the right halves the window, and a
    skip is paid for by the entry that could not be read, which is never asked
    for again.  So the loop takes as many rounds as a binary search, and one
    more for each unreadable entry; in order or not, the entries make no
    difference to that (`bsearch_iter_effort`).

    Neither do they to what the search reports as found: on entries that are
    not in order it may miss the target, but it does not mistake another entry
    for it. -/

namespace CembBsearchSorted

open BoundedLoop CembBsearchIter Elimination SignedInt

variable {α : Type} [LinearOrder α]

/-- The indices of a set whose entries cannot be read. -/
def unreadable (entries : Int → Option α) (indices : Finset Int) : Finset Int :=
  indices.filter fun i => (entries i).isNone

/-- What a running search can still cost. -/
noncomputable def effort (entries : Int → Option α) (iter : BsearchIterator) : Nat :=
  if iter.status = .bsearchContinue then
    Nat.log 2 (width iter).toNat + (unreadable entries (candidates iter)).card + 1
  else 0

/-- A search that has not been fooled: it runs, or what it has found is the target. -/
structure NotFooled (range : SearchRange) (entries : Int → Option α) (target : α)
    (iter : BsearchIterator) : Prop where
  running : iter.status = .bsearchContinue → Searching range iter
  found : iter.status = .bsearchDoneFound → ∃ index,
    bsearchIterGetFoundIndex iter = some index ∧ index.val ∈ range.indices ∧
      entries index.val = some target

section Round

variable {range : SearchRange} {entries : Int → Option α} {target : α}
  {iter iter' : BsearchIterator}

omit [LinearOrder α] in
theorem effort_of_searching (h : Searching range iter) : effort entries iter
    = Nat.log 2 (width iter).toNat + (unreadable entries (candidates iter)).card + 1 :=
  if_pos h.status

omit [LinearOrder α] in
theorem effort_of_ended (h : iter.status ≠ .bsearchContinue) : effort entries iter = 0 :=
  if_neg h

omit [LinearOrder α] in
/-- An end costs nothing any more. -/
theorem effort_lt_of_ended (h : Searching range iter) (hended : iter'.status ≠ .bsearchContinue) :
    effort entries iter' < effort entries iter := by
  rw [effort_of_ended hended, effort_of_searching h]
  exact Nat.succ_pos _

/-- The window of a running search has an index. -/
theorem Searching.width_pos (h : Searching range iter) : 1 ≤ width iter := by
  have hleft := h.left_le
  have hright := h.le_right
  rw [width]
  omega

/-- A verdict of absence is on an entry that cannot be read. -/
theorem isNone_of_absent {i : Int} (hv : verdict entries target i = some .absent) :
    (entries i).isNone = true := by
  cases hentry : entries i with
  | none => rfl
  | some value =>
      rw [verdict, hentry] at hv
      simp only at hv
      split at hv
      · cases hv
      · split at hv <;> cases hv

omit [LinearOrder α] in
/-- **A CUT** takes one from the logarithm of the window. -/
theorem effort_lt_of_cut (h : Searching range iter) (h' : Searching range iter')
    (hhalf : width iter' * 2 ≤ width iter) (hsub : candidates iter' ⊆ candidates iter) :
    effort entries iter' < effort entries iter := by
  have hpos := Searching.width_pos h'
  have hlog : Nat.log 2 (width iter').toNat + 1 ≤ Nat.log 2 (width iter).toNat := by
    rw [← Nat.log_mul_base Nat.one_lt_two (by omega)]
    exact Nat.log_mono_right (by omega)
  have hcard : (unreadable entries (candidates iter')).card
      ≤ (unreadable entries (candidates iter)).card :=
    Finset.card_le_card (Finset.filter_subset_filter _ hsub)
  rw [effort_of_searching h, effort_of_searching h']
  omega

omit [LinearOrder α] in
/-- **A SKIP** takes one from the entries that cannot be read. -/
theorem effort_lt_of_skip (h : Searching range iter) (h' : Searching range iter')
    (hwidth : width iter' = width iter) (hnone : (entries (checkIdx iter)).isNone = true)
    (hleft : candidates iter' = (candidates iter).erase (checkIdx iter)) :
    effort entries iter' < effort entries iter := by
  have hmem : checkIdx iter ∈ unreadable entries (candidates iter) :=
    Finset.mem_filter.mpr ⟨h.check_mem, hnone⟩
  have herase : unreadable entries (candidates iter')
      = (unreadable entries (candidates iter)).erase (checkIdx iter) := by
    rw [unreadable, hleft, Finset.filter_erase, unreadable]
  have hcard : (unreadable entries (candidates iter')).card
      < (unreadable entries (candidates iter)).card := by
    rw [herase]
    exact Finset.card_erase_lt_of_mem hmem
  rw [effort_of_searching h, effort_of_searching h', hwidth]
  omega

/-- The target is at the index checked: the search ends there. -/
theorem NotFooled.round_found (h : Searching range iter)
    (hv : verdict entries target (checkIdx iter) = none) :
    ∃ iter', searchRound entries target iter = some (.again iter') ∧
      NotFooled range entries target iter' ∧ effort entries iter' < effort entries iter := by
  obtain ⟨hfits, hindex⟩ := h.inReach.getCheckIndex
  have hended : { iter with status := .bsearchDoneFound }.status ≠ .bsearchContinue := by
    intro hrunning
    cases hrunning
  refine ⟨{ iter with status := .bsearchDoneFound }, searchRound_running h ?_, ?_,
    effort_lt_of_ended h hended⟩
  · rw [truthfulAnswer_eq, hv]
    exact h.notify_ends (.inl ⟨rfl, rfl⟩)
  · exact ⟨fun hrunning => absurd hrunning hended,
      fun _ => ⟨_, hindex, h.candidates_subset h.check_mem, verdict_eq_none hv⟩⟩

/-- A verdict on the index checked costs a halving or an unreadable entry. -/
theorem NotFooled.round_verdict (h : Searching range iter) {v : Verdict}
    (hv : verdict entries target (checkIdx iter) = some v) :
    ∃ iter', searchRound entries target iter = some (.again iter') ∧
      NotFooled range entries target iter' ∧ effort entries iter' < effort entries iter := by
  obtain ⟨iter', hnotify, hnarrowed, hwindow⟩ := h.notify_verdict v
  refine ⟨iter', searchRound_running h (by rw [truthfulAnswer_eq, hv]; exact hnotify), ?_⟩
  cases hnarrowed with
  | exhausted hstatus _ _ =>
      have hended : iter'.status ≠ .bsearchContinue := by
        rw [hstatus]
        intro hrunning
        cases hrunning
      refine ⟨⟨fun hrunning => absurd hrunning hended, ?_⟩, effort_lt_of_ended h hended⟩
      intro hfound
      rw [hstatus] at hfound
      cases hfound
  | goesOn h' hleft =>
      refine ⟨⟨fun _ => h', ?_⟩, ?_⟩
      · intro hfound
        rw [h'.status] at hfound
        cases hfound
      · have hwidth := h.width_le v (hwindow h'.status)
        cases v with
        | left =>
            refine effort_lt_of_cut h h' hwidth ?_
            rw [hleft]
            exact rest_subset _ _ _
        | right =>
            refine effort_lt_of_cut h h' hwidth ?_
            rw [hleft]
            exact rest_subset _ _ _
        | absent =>
            obtain ⟨hl, hr⟩ := Prod.mk.inj (hwindow h'.status)
            have hsame : width iter' = width iter := by rw [width, hl, hr, width]
            exact effort_lt_of_skip h h' hsame (isNone_of_absent hv) hleft

/-- **ONE ROUND** finds the search ended, or makes the rest of it cheaper. -/
theorem NotFooled.round (h : NotFooled range entries target iter) :
    (∃ iter', searchRound entries target iter = some (.done iter') ∧
      NotFooled range entries target iter' ∧ iter'.status ≠ .bsearchContinue) ∨
    (∃ iter', searchRound entries target iter = some (.again iter') ∧
      NotFooled range entries target iter' ∧ effort entries iter' < effort entries iter) := by
  by_cases hrunning : iter.status = .bsearchContinue
  · have hs := h.running hrunning
    cases hv : verdict entries target (checkIdx iter) with
    | none => exact .inr (NotFooled.round_found hs hv)
    | some v => exact .inr (NotFooled.round_verdict hs hv)
  · exact .inl ⟨iter, if_neg hrunning, h, hrunning⟩

end Round

/-- **THE EFFORT OF A SEARCH**: whatever the entries and the target are, the loop over a
    range of `n` indices has ended after `log2 n` notifications, one more, and one for each
    entry of the range that cannot be read; and what it reports as found is an index of
    the range whose entry is the target. -/
theorem bsearch_iter_effort (iter : BsearchIterator) (startIdx stopIdx : SInt 32)
    (hstart : 0 ≤ startIdx.val) (hlt : startIdx.val < stopIdx.val)
    (hstop : stopIdx.val < maxVal 32) (entries : Int → Option α) (target : α) :
    ∃ iter₀, bsearchIterInit iter startIdx stopIdx = some (.errNone, iter₀) ∧
      ∀ rounds, Nat.log 2 (stopIdx.val - startIdx.val + 1).toNat + 1
          + (unreadable entries (Finset.Icc startIdx.val stopIdx.val)).card < rounds →
        ∃ iter', loop (searchRound entries target) rounds iter₀ = some iter' ∧
          iter'.status ≠ .bsearchContinue ∧
          (iter'.status = .bsearchDoneFound → ∃ index,
            bsearchIterGetFoundIndex iter' = some index ∧ startIdx.val ≤ index.val ∧
              index.val ≤ stopIdx.val ∧ entries index.val = some target) := by
  let range : SearchRange := .ofNonneg startIdx stopIdx hstart hlt hstop
  obtain ⟨iter₀, hinit, hs₀, hall⟩ := init_searching range iter
  refine ⟨iter₀, hinit, ?_⟩
  intro rounds hrounds
  have h₀ : NotFooled range entries target iter₀ := by
    refine ⟨fun _ => hs₀, ?_⟩
    intro hfound
    rw [hs₀.status] at hfound
    cases hfound
  have hwidth : width iter₀ ≤ stopIdx.val - startIdx.val + 1 := by
    have hleft := hs₀.start_le
    have hright := hs₀.le_stop
    have hstartEq : range.startIdx = startIdx := rfl
    have hstopEq : range.stopIdx = stopIdx := rfl
    rw [width]
    rw [hstartEq] at hleft
    rw [hstopEq] at hright
    omega
  have heffort : effort entries iter₀ < rounds := by
    have hlog : Nat.log 2 (width iter₀).toNat
        ≤ Nat.log 2 (stopIdx.val - startIdx.val + 1).toNat :=
      Nat.log_mono_right (by omega)
    have hindices : range.indices = Finset.Icc startIdx.val stopIdx.val := rfl
    rw [effort_of_searching hs₀, hall, hindices]
    omega
  obtain ⟨iter', hloop, hsound, hended⟩ := loop_spec (effort entries)
    (fun iter (h : NotFooled range entries target iter) => h.round) rounds iter₀ h₀ heffort
  refine ⟨iter', hloop, hended, ?_⟩
  intro hfound
  obtain ⟨index, hindex, hmem, hholds⟩ := hsound.found hfound
  exact ⟨index, hindex, (Finset.mem_Icc.mp hmem).1, (Finset.mem_Icc.mp hmem).2, hholds⟩

/-- Four entries, one of them unreadable: five rounds, of which the last finds the
    search ended. -/
theorem bsearch_iter_effort_gapped :
    ∃ iter₀, bsearchIterInit freshIterator ⟨0, by decide⟩ ⟨3, by decide⟩
        = some (.errNone, iter₀) ∧
      ∃ iter', loop (searchRound gappedEntries 3) 5 iter₀ = some iter' ∧
        iter'.status ≠ .bsearchContinue := by
  obtain ⟨iter₀, hinit, hrounds⟩ := bsearch_iter_effort freshIterator ⟨0, by decide⟩
    ⟨3, by decide⟩ (by decide) (by decide) (by decide) gappedEntries 3
  have hcard : (unreadable gappedEntries (Finset.Icc 0 3)).card = 1 := by decide
  have hlog : Nat.log 2 4 = 2 := by decide
  obtain ⟨iter', hloop, hended, -⟩ := hrounds 5 (by
    show Nat.log 2 4 + 1 + (unreadable gappedEntries (Finset.Icc 0 3)).card < 5
    rw [hcard, hlog]
    decide)
  exact ⟨iter₀, hinit, iter', hloop, hended⟩

end CembBsearchSorted
