import CEmbeddedUtils.BsearchIterProofs

/-! # Where the iterator overflows — ranges that reach the ends of the type

    The iterator accepts every range with its start below its stop.  Its middle
    is safe from overflow only if the ends are at most `INT32_MAX` apart.  The
    checks of a new bound come after the bound is computed: from a window that
    starts at `INT32_MIN` answers to the left lead below it, and from one that
    stops at `INT32_MAX` answers to the right lead above.  On every other range
    no notifications make it overflow. -/

namespace CembBsearchIter

open Elimination SignedInt Transducer Zigzag

/-- One round of a caller as long as the status is `BSEARCH_CONTINUE`; afterwards
    it does not call any more. -/
def runningRound : Step BsearchIterator BsearchNotification (Option (SInt 32)) :=
  fun iter notification =>
    if iter.status = .bsearchContinue then
      (bsearchRound iter notification).map (Prod.map some id)
    else some (none, iter)

/-- An accepted range on which neither init nor any call of a running search
    overflows. -/
def NeverOverflows (iter : BsearchIterator) (startIdx stopIdx : SInt 32) : Prop :=
  ∃ iter₀, bsearchIterInit iter startIdx stopIdx = some (.errNone, iter₀) ∧
    ∀ notifications, ∃ result, run runningRound iter₀ notifications = some result

/-! ## Ranges inside the type -/

/-- **A ROUND OF A RUNNING SEARCH** over a range inside the type is defined. -/
theorem runningRound_searching {range : SearchRange} {iter : BsearchIterator}
    (hs : iter.status = .bsearchContinue → Searching range iter)
    (notification : BsearchNotification) :
    ∃ r iter', runningRound iter notification = some (r, iter') ∧
      (iter'.status = .bsearchContinue → Searching range iter') := by
  by_cases hrunning : iter.status = .bsearchContinue
  · obtain ⟨hfits, iter', hround, houtcome⟩ := (hs hrunning).inReach.round hs notification
    refine ⟨some ⟨checkIdx iter, hfits⟩, iter', ?_, ?_⟩
    · rw [runningRound, if_pos hrunning, hround]
      rfl
    · intro hcontinue
      cases houtcome with
      | goesOn _ _ _ after _ _ => exact after
      | ended hended _ => exact absurd hcontinue hended
  · exact ⟨none, iter, if_neg hrunning, hs⟩

theorem SearchRange.neverOverflows (range : SearchRange) (iter : BsearchIterator) :
    NeverOverflows iter range.startIdx range.stopIdx := by
  obtain ⟨iter₀, hinit, hs₀, -⟩ := init_searching range iter
  refine ⟨iter₀, hinit, ?_⟩
  intro notifications
  obtain ⟨rs, iter', hrun, -⟩ := run_operations
    (I := fun _ iter => iter.status = .bsearchContinue → Searching range iter)
    (fun _ _ notification hs => runningRound_searching hs notification)
    notifications [] iter₀ (fun _ => hs₀)
  exact ⟨_, hrun⟩

/-! ## Ranges that reach an end -/

/-- A running search with a window in which nothing has been skipped. -/
structure FreshWindow (iter : BsearchIterator) : Prop where
  status : iter.status = .bsearchContinue
  offset : iter.pivotOffset.val = 0
  pivot : iter.pivotIdx.val = middle iter.leftIdx.val iter.rightIdx.val
  le : iter.leftIdx.val ≤ iter.rightIdx.val
  span : iter.rightIdx.val - iter.leftIdx.val ≤ maxVal 32

/-- How far the ends of the window are apart. -/
def windowSpan (iter : BsearchIterator) : Nat := (iter.rightIdx.val - iter.leftIdx.val).toNat

section Fresh

variable {iter : BsearchIterator}

theorem FreshWindow.pivot_bounds (h : FreshWindow iter) :
    iter.leftIdx.val ≤ iter.pivotIdx.val ∧ iter.pivotIdx.val ≤ iter.rightIdx.val ∧
      (iter.leftIdx.val < iter.rightIdx.val → iter.pivotIdx.val < iter.rightIdx.val) := by
  have hle := h.le
  have hpivot := h.pivot
  rw [middle] at hpivot
  refine ⟨?_, ?_, ?_⟩ <;> omega

theorem FreshWindow.checkIndex (h : FreshWindow iter) :
    bsearchIterGetCheckIndex iter = some iter.pivotIdx := by
  rw [bsearchIterGetCheckIndex, add_eq_some iter.pivotIdx.fits (by rw [h.offset, add_zero])]

theorem FreshWindow.nextRightIdx (h : FreshWindow iter) :
    nextRightIdx iter = checked 32 (iter.pivotIdx.val - 1) := by
  have hcheck := h.checkIndex
  rw [bsearchIterGetCheckIndex] at hcheck
  rw [CembBsearchIter.nextRightIdx, if_neg (by rw [h.offset]; decide), hcheck]
  rfl

theorem FreshWindow.nextLeftIdx (h : FreshWindow iter) :
    nextLeftIdx iter = checked 32 (iter.pivotIdx.val + 1) := by
  have hcheck := h.checkIndex
  rw [bsearchIterGetCheckIndex] at hcheck
  rw [CembBsearchIter.nextLeftIdx, if_neg (by rw [h.offset]; decide), hcheck]
  rfl

/-- A round is as its notification, which comes after a defined index. -/
theorem FreshWindow.runningRound_eq (h : FreshWindow iter) (notification : BsearchNotification) :
    runningRound iter notification
      = (bsearchIterNotify iter notification).map fun iter' => (some iter.pivotIdx, iter') := by
  rw [runningRound, if_pos h.status, bsearchRound, h.checkIndex]
  show Option.map _ ((bsearchIterNotify iter notification).bind _) = _
  cases bsearchIterNotify iter notification with
  | none => rfl
  | some iter' => rfl

/-- **TO THE LEFT**: the window shrinks towards its left end, and at this end the
    next bound is the index below. -/
theorem FreshWindow.round_left (h : FreshWindow iter)
    (hleft : ¬ Fits 32 (iter.leftIdx.val - 1)) :
    runningRound iter .bsearchNotifyLeft = none ∨
    ∃ r iter', runningRound iter .bsearchNotifyLeft = some (r, iter') ∧
      (FreshWindow iter' ∧ iter'.leftIdx = iter.leftIdx) ∧
        windowSpan iter' < windowSpan iter := by
  obtain ⟨hlow, hhigh, hlt⟩ := h.pivot_bounds
  rw [h.runningRound_eq, bsearchIterNotify, if_neg (not_not_intro h.status)]
  simp only [h.nextRightIdx]
  rcases hlow.eq_or_lt with heq | hinside
  · left
    rw [← heq, checked_of_not_fits hleft]
    rfl
  · right
    have hpivotFits := fits_32.mp iter.pivotIdx.fits
    have hleftFits := fits_32.mp iter.leftIdx.fits
    have hfits : Fits 32 (iter.pivotIdx.val - 1) := fits_32.mpr ⟨by omega, by omega⟩
    have hspan := h.span
    have hnarrow : iter.pivotIdx.val - 1 - iter.leftIdx.val ≤ maxVal 32 := by omega
    have hle : iter.leftIdx.val ≤ iter.pivotIdx.val - 1 := by omega
    obtain ⟨hmid, hmidpoint⟩ :=
      bsearchGetMidpointSafe_eq iter.leftIdx ⟨iter.pivotIdx.val - 1, hfits⟩ hnarrow hle
    have hnot : ¬ (iter.pivotIdx.val - 1 ≥ iter.rightIdx.val ∨
        iter.pivotIdx.val - 1 < iter.leftIdx.val) := by omega
    rw [checked_of_fits hfits]
    simp only [Option.bind_eq_bind, Option.bind_some, if_neg hnot, hmidpoint]
    refine ⟨_, _, rfl, ⟨⟨h.status, rfl, rfl, hle, hnarrow⟩, rfl⟩, ?_⟩
    show (iter.pivotIdx.val - 1 - iter.leftIdx.val).toNat < _
    rw [windowSpan]
    omega

/-- **TO THE RIGHT**: the window shrinks towards its right end, and at this end the
    next bound is the index above. -/
theorem FreshWindow.round_right (h : FreshWindow iter)
    (hright : ¬ Fits 32 (iter.rightIdx.val + 1)) :
    runningRound iter .bsearchNotifyRight = none ∨
    ∃ r iter', runningRound iter .bsearchNotifyRight = some (r, iter') ∧
      (FreshWindow iter' ∧ iter'.rightIdx = iter.rightIdx) ∧
        windowSpan iter' < windowSpan iter := by
  obtain ⟨hlow, hhigh, hlt⟩ := h.pivot_bounds
  rw [h.runningRound_eq, bsearchIterNotify, if_neg (not_not_intro h.status)]
  simp only [h.nextLeftIdx]
  rcases hhigh.eq_or_lt with heq | hinside
  · left
    rw [heq, checked_of_not_fits hright]
    rfl
  · right
    have hpivotFits := fits_32.mp iter.pivotIdx.fits
    have hrightFits := fits_32.mp iter.rightIdx.fits
    have hfits : Fits 32 (iter.pivotIdx.val + 1) := fits_32.mpr ⟨by omega, by omega⟩
    have hspan := h.span
    have hnarrow : iter.rightIdx.val - (iter.pivotIdx.val + 1) ≤ maxVal 32 := by omega
    have hle : iter.pivotIdx.val + 1 ≤ iter.rightIdx.val := by omega
    obtain ⟨hmid, hmidpoint⟩ :=
      bsearchGetMidpointSafe_eq ⟨iter.pivotIdx.val + 1, hfits⟩ iter.rightIdx hnarrow hle
    have hnot : ¬ (iter.pivotIdx.val + 1 ≤ iter.leftIdx.val ∨
        iter.pivotIdx.val + 1 > iter.rightIdx.val) := by omega
    rw [checked_of_fits hfits]
    simp only [Option.bind_eq_bind, Option.bind_some, if_neg hnot, hmidpoint]
    refine ⟨_, _, rfl, ⟨⟨h.status, rfl, rfl, hle, hnarrow⟩, rfl⟩, ?_⟩
    show (iter.rightIdx.val - (iter.pivotIdx.val + 1)).toNat < _
    rw [windowSpan]
    omega

/-- From a window at the lower end of the type some answers overflow. -/
theorem FreshWindow.overflow_left (h : FreshWindow iter)
    (hleft : ¬ Fits 32 (iter.leftIdx.val - 1)) : ∃ ns, run runningRound iter ns = none := by
  refine exists_undefined_run
    (I := fun iter => FreshWindow iter ∧ ¬ Fits 32 (iter.leftIdx.val - 1)) windowSpan ?_
    iter ⟨h, hleft⟩
  rintro iter ⟨h, hleft⟩
  refine ⟨.bsearchNotifyLeft, (h.round_left hleft).imp_right ?_⟩
  rintro ⟨r, iter', hround, ⟨h', hsame⟩, hless⟩
  exact ⟨r, iter', hround, ⟨h', by rw [hsame]; exact hleft⟩, hless⟩

/-- From a window at the upper end of the type some answers overflow. -/
theorem FreshWindow.overflow_right (h : FreshWindow iter)
    (hright : ¬ Fits 32 (iter.rightIdx.val + 1)) : ∃ ns, run runningRound iter ns = none := by
  refine exists_undefined_run
    (I := fun iter => FreshWindow iter ∧ ¬ Fits 32 (iter.rightIdx.val + 1)) windowSpan ?_
    iter ⟨h, hright⟩
  rintro iter ⟨h, hright⟩
  refine ⟨.bsearchNotifyRight, (h.round_right hright).imp_right ?_⟩
  rintro ⟨r, iter', hround, ⟨h', hsame⟩, hless⟩
  exact ⟨r, iter', hround, ⟨h', by rw [hsame]; exact hright⟩, hless⟩

end Fresh

/-- Init computes the difference of the ends. -/
theorem span_le_of_init {iter iter₀ : BsearchIterator} {startIdx stopIdx : SInt 32}
    (hlt : startIdx.val < stopIdx.val)
    (hinit : bsearchIterInit iter startIdx stopIdx = some (.errNone, iter₀)) :
    stopIdx.val - startIdx.val ≤ maxVal 32 := by
  by_contra hwide
  have hfits : ¬ Fits 32 (stopIdx.val - startIdx.val) := by
    intro h
    obtain ⟨-, hhigh⟩ := fits_32.mp h
    rw [maxVal_32] at hwide
    omega
  have hmidpoint : bsearchGetMidpointSafe startIdx stopIdx = none := by
    rw [bsearchGetMidpointSafe, SInt.sub, checked_of_not_fits hfits]
    rfl
  rw [bsearchIterInit, if_neg (Int.not_le.mpr hlt), hmidpoint] at hinit
  cases hinit

/-- An accepted range starts with a window in which nothing has been skipped. -/
theorem freshWindow_of_init {iter iter₀ : BsearchIterator} {startIdx stopIdx : SInt 32}
    (hlt : startIdx.val < stopIdx.val)
    (hinit : bsearchIterInit iter startIdx stopIdx = some (.errNone, iter₀)) :
    FreshWindow iter₀ ∧ iter₀.leftIdx = startIdx ∧ iter₀.rightIdx = stopIdx := by
  have hspan := span_le_of_init hlt hinit
  obtain ⟨hmid, hmidpoint⟩ := bsearchGetMidpointSafe_eq startIdx stopIdx hspan hlt.le
  rw [bsearchIterInit, if_neg (Int.not_le.mpr hlt), hmidpoint] at hinit
  obtain ⟨-, rfl⟩ := Prod.mk.inj (Option.some.inj hinit)
  exact ⟨⟨rfl, rfl, rfl, hlt.le, hspan⟩, rfl, rfl⟩

/-- **WHERE THE ITERATOR NEVER OVERFLOWS**: exactly on the ranges that leave out
    `INT32_MIN` and `INT32_MAX` and whose ends are at most `INT32_MAX` apart. -/
theorem bsearch_iter_never_overflows_iff (iter : BsearchIterator) (startIdx stopIdx : SInt 32)
    (hlt : startIdx.val < stopIdx.val) :
    NeverOverflows iter startIdx stopIdx ↔
      -maxVal 32 ≤ startIdx.val ∧ stopIdx.val < maxVal 32 ∧
        stopIdx.val - startIdx.val ≤ maxVal 32 := by
  constructor
  · rintro ⟨iter₀, hinit, hruns⟩
    obtain ⟨hfresh, hleft, hright⟩ := freshWindow_of_init hlt hinit
    refine ⟨?_, ?_, span_le_of_init hlt hinit⟩
    · by_contra hlow
      have hfits : ¬ Fits 32 (iter₀.leftIdx.val - 1) := by
        intro h
        obtain ⟨h₁, -⟩ := fits_32.mp h
        rw [hleft] at h₁
        rw [maxVal_32] at hlow
        omega
      obtain ⟨ns, hnone⟩ := hfresh.overflow_left hfits
      obtain ⟨result, hsome⟩ := hruns ns
      rw [hnone] at hsome
      exact nomatch hsome
    · by_contra hhigh
      have hfits : ¬ Fits 32 (iter₀.rightIdx.val + 1) := by
        intro h
        obtain ⟨-, h₂⟩ := fits_32.mp h
        rw [hright] at h₂
        rw [maxVal_32] at hhigh
        omega
      obtain ⟨ns, hnone⟩ := hfresh.overflow_right hfits
      obtain ⟨result, hsome⟩ := hruns ns
      rw [hnone] at hsome
      exact nomatch hsome
  · rintro ⟨hlow, hhigh, hspan⟩
    let range : SearchRange := ⟨startIdx, stopIdx, hlow, hlt, hhigh, hspan⟩
    exact range.neverOverflows iter

/-- The condition for a range around zero. -/
theorem bsearch_iter_never_overflows_iff_around_zero :
    NeverOverflows freshIterator ⟨-5, by decide⟩ ⟨7, by decide⟩ :=
  (bsearch_iter_never_overflows_iff freshIterator ⟨-5, by decide⟩ ⟨7, by decide⟩
    (by decide)).mpr (by decide)

/-- **THE LAST TWO INDICES**: two answers to the right of the range that stops at
    `INT32_MAX` compute the index after it. -/
theorem bsearch_iter_overflows_at_last_indices :
    ∃ iter₀, bsearchIterInit freshIterator ⟨2147483646, by decide⟩ ⟨2147483647, by decide⟩
        = some (.errNone, iter₀) ∧
      run runningRound iter₀ [.bsearchNotifyRight, .bsearchNotifyRight] = none ∧
      ¬ NeverOverflows freshIterator ⟨2147483646, by decide⟩ ⟨2147483647, by decide⟩ := by
  refine ⟨_, rfl, rfl, ?_⟩
  rintro ⟨iter₀, hinit, hruns⟩
  obtain ⟨result, hrun⟩ := hruns [.bsearchNotifyRight, .bsearchNotifyRight]
  obtain ⟨-, rfl⟩ := Prod.mk.inj (Option.some.inj hinit)
  exact nomatch hrun

end CembBsearchIter
