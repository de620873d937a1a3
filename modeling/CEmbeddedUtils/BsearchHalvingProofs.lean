import CEmbeddedUtils.BsearchIterProofs

/-! # Every directional answer halves the window

    Skips move the index to check away from the pivot.  An answer to the left or
    to the right still cuts at the pivot or beyond it, on whichever side of the
    pivot it was given, so that each such answer leaves at most half of the
    window; the skips between them do not count. -/

namespace CembBsearchIter

open Elimination SignedInt Transducer Zigzag

/-- A notification that says on which side the target is. -/
def isDirectional : BsearchNotification → Bool
  | .bsearchNotifyLeft => true
  | .bsearchNotifyRight => true
  | _ => false

/-- The number of indices in the window. -/
def width (iter : BsearchIterator) : Int := iter.rightIdx.val - iter.leftIdx.val + 1

section Window

variable {range : SearchRange} {iter iter' : BsearchIterator}

/-- Right of the pivot the cut is at its mirror image on the left. -/
theorem lastLeft_lt_pivot (iter : BsearchIterator) : lastLeft iter < iter.pivotIdx.val := by
  rw [lastLeft, checkIdx]
  by_cases hpos : 0 < iter.pivotOffset.val
  · rw [if_pos hpos, next, if_pos hpos]
    omega
  · rw [if_neg hpos]
    omega

/-- Left of the pivot the cut is one past its mirror image on the right. -/
theorem pivot_lt_firstRight (iter : BsearchIterator) : iter.pivotIdx.val < firstRight iter := by
  rw [firstRight, checkIdx]
  by_cases hneg : iter.pivotOffset.val < 0
  · rw [if_pos hneg, next, if_neg (Int.not_lt.mpr hneg.le)]
    omega
  · rw [if_neg hneg]
    omega

/-- What is left of the middle is at most half of the window. -/
theorem Searching.half_left (h : Searching range iter) :
    (lastLeft iter - iter.leftIdx.val + 1) * 2 ≤ width iter := by
  have hcut := lastLeft_lt_pivot iter
  have hpivot := h.pivot
  rw [middle] at hpivot
  rw [width]
  omega

/-- What is right of the middle is at most half of the window, also where there is
    one index more on the right than on the left. -/
theorem Searching.half_right (h : Searching range iter) :
    (iter.rightIdx.val - firstRight iter + 1) * 2 ≤ width iter := by
  have hcut := pivot_lt_firstRight iter
  have hpivot := h.pivot
  rw [middle] at hpivot
  rw [width]
  omega

/-- **ONE ANSWER** to either side leaves at most half of the window, and a skip
    leaves the window. -/
theorem Searching.width_le (h : Searching range iter) (v : Verdict)
    (hwindow : (iter'.leftIdx.val, iter'.rightIdx.val) = windowAfter iter v) :
    width iter' * 2 ^ [notificationOf v].countP isDirectional ≤ width iter := by
  cases v with
  | left =>
      obtain ⟨hleft, hright⟩ := Prod.mk.inj hwindow
      have hhalf := h.half_left
      rw [← hleft, ← hright] at hhalf
      exact hhalf
  | right =>
      obtain ⟨hleft, hright⟩ := Prod.mk.inj hwindow
      have hhalf := h.half_right
      rw [← hleft, ← hright] at hhalf
      exact hhalf
  | absent =>
      obtain ⟨hleft, hright⟩ := Prod.mk.inj hwindow
      have hsame : width iter' = width iter := by rw [width, hleft, hright, width]
      rw [hsame]
      exact Int.le_of_eq (Int.mul_one _)

end Window

/-- The window of a running search has been halved by every directional answer. -/
structure Halved (range : SearchRange) (past : List BsearchNotification)
    (iter : BsearchIterator) : Prop where
  reach : InReach range iter
  searching : iter.status = .bsearchContinue → Searching range iter ∧
    width iter * 2 ^ past.countP isDirectional ≤ range.stopIdx.val - range.startIdx.val + 1

section Run

variable {range : SearchRange} {past : List BsearchNotification} {iter : BsearchIterator}

/-- **ONE ROUND** with any notification keeps the account. -/
theorem Halved.round (h : Halved range past iter) (notification : BsearchNotification) :
    ∃ index iter', bsearchRound iter notification = some (index, iter') ∧
      Halved range (past ++ [notification]) iter' := by
  obtain ⟨hfits, iter', hround, houtcome⟩ :=
    h.reach.round (fun hrunning => (h.searching hrunning).1) notification
  refine ⟨_, iter', hround, ?_⟩
  cases houtcome with
  | ended hended hreach => exact ⟨hreach, fun hrunning => absurd hrunning hended⟩
  | goesOn v hverdict hs hs' _ hwindow =>
      obtain ⟨-, hhalved⟩ := h.searching hs.status
      have hpow : (0 : Int) ≤ 2 ^ past.countP isDirectional := by positivity
      refine ⟨hs'.inReach, fun _ => ⟨hs', ?_⟩⟩
      rw [hverdict]
      calc width iter' * 2 ^ (past ++ [notificationOf v]).countP isDirectional
          = width iter' * 2 ^ [notificationOf v].countP isDirectional
              * 2 ^ past.countP isDirectional := by
            rw [List.countP_append, Nat.add_comm, pow_add, mul_assoc]
        _ ≤ width iter * 2 ^ past.countP isDirectional :=
            mul_le_mul_of_nonneg_right (hs.width_le v hwindow) hpow
        _ ≤ range.stopIdx.val - range.startIdx.val + 1 := hhalved

/-- A window of at least one index has not been halved more often than the range
    can be. -/
theorem Halved.count_le (h : Halved range past iter) (hrunning : iter.status = .bsearchContinue) :
    past.countP isDirectional
      ≤ Nat.log 2 (range.stopIdx.val - range.startIdx.val + 1).toNat := by
  obtain ⟨hs, hhalved⟩ := h.searching hrunning
  have hwidth : 1 ≤ width iter := by
    have hleft := hs.left_le
    have hright := hs.le_right
    rw [width]
    omega
  have hpow : (0 : Int) ≤ 2 ^ past.countP isDirectional := by positivity
  apply Nat.le_log_of_pow_le Nat.one_lt_two
  zify
  calc (2 : Int) ^ past.countP isDirectional
      = 1 * 2 ^ past.countP isDirectional := (one_mul _).symm
    _ ≤ width iter * 2 ^ past.countP isDirectional := mul_le_mul_of_nonneg_right hwidth hpow
    _ ≤ range.stopIdx.val - range.startIdx.val + 1 := hhalved
    _ ≤ ((range.stopIdx.val - range.startIdx.val + 1).toNat : Int) := Int.self_le_toNat _

end Run

/-- **HALVING**: whatever the notifications are, a search that still runs after `t`
    answers to the left or to the right has a window of at most one `2 ^ t`-th of
    the range; so at most the logarithm of the range many can leave it running. -/
theorem bsearch_iter_halves (iter : BsearchIterator) (startIdx stopIdx : SInt 32)
    (hstart : 0 ≤ startIdx.val) (hlt : startIdx.val < stopIdx.val)
    (hstop : stopIdx.val < maxVal 32) :
    ∃ iter₀, bsearchIterInit iter startIdx stopIdx = some (.errNone, iter₀) ∧
      ∀ notifications, ∃ offered iter',
        run bsearchRound iter₀ notifications = some (offered, iter') ∧
        (iter'.status = .bsearchContinue →
          (iter'.rightIdx.val - iter'.leftIdx.val + 1) * 2 ^ notifications.countP isDirectional
            ≤ stopIdx.val - startIdx.val + 1 ∧
          notifications.countP isDirectional
            ≤ Nat.log 2 (stopIdx.val - startIdx.val + 1).toNat) := by
  let range : SearchRange := .ofNonneg startIdx stopIdx hstart hlt hstop
  obtain ⟨iter₀, hinit, hs₀, hfresh⟩ := init_searching range iter
  refine ⟨iter₀, hinit, fun notifications => ?_⟩
  have hhalved₀ : Halved range [] iter₀ := by
    refine ⟨hs₀.inReach, fun _ => ⟨hs₀, ?_⟩⟩
    have hleft := hs₀.start_le
    have hright := hs₀.le_stop
    rw [List.countP_nil, pow_zero, mul_one, width]
    omega
  obtain ⟨offered, iter', hrun, hhalved⟩ :=
    run_operations (I := Halved range) (fun _ _ notification h => h.round notification)
      notifications [] iter₀ hhalved₀
  rw [List.nil_append] at hhalved
  exact ⟨offered, iter', hrun,
    fun hrunning => ⟨(hhalved.searching hrunning).2, hhalved.count_le hrunning⟩⟩

/-- The window of thirteen indices after a skip and two answers: the search still runs,
    between the indices 3 and 5. -/
theorem bsearch_iter_halves_thirteen :
    ∃ iter₀, bsearchIterInit freshIterator ⟨0, by decide⟩ ⟨12, by decide⟩ = some (.errNone, iter₀) ∧
      ∃ offered iter', run bsearchRound iter₀ [.bsearchNotifyErrSkip, .bsearchNotifyLeft,
        .bsearchNotifyRight] = some (offered, iter') ∧
        iter'.status = .bsearchContinue ∧ iter'.leftIdx.val = 3 ∧ iter'.rightIdx.val = 5 ∧
        (iter'.rightIdx.val - iter'.leftIdx.val + 1) * 2 ^ 2 ≤ 13 := by
  obtain ⟨iter₀, hinit, hruns⟩ := bsearch_iter_halves freshIterator ⟨0, by decide⟩
    ⟨12, by decide⟩ (by decide) (by decide) (by decide)
  obtain ⟨offered, iter', hrun, hhalved⟩ := hruns [.bsearchNotifyErrSkip, .bsearchNotifyLeft,
    .bsearchNotifyRight]
  -- where the three rounds lead, by evaluation
  have hwindow : (bsearchIterInit freshIterator ⟨0, by decide⟩ ⟨12, by decide⟩).bind
      (fun r => (run bsearchRound r.2 [.bsearchNotifyErrSkip, .bsearchNotifyLeft,
        .bsearchNotifyRight]).map fun r => (r.2.status, r.2.leftIdx.val, r.2.rightIdx.val))
      = some (.bsearchContinue, 3, 5) := by decide
  rw [hinit, Option.bind_some, hrun] at hwindow
  obtain ⟨hstatus, hends⟩ := Prod.mk.inj (Option.some.inj hwindow)
  obtain ⟨hleft, hright⟩ := Prod.mk.inj hends
  exact ⟨iter₀, hinit, offered, iter', hrun, hstatus, hleft, hright, (hhalved hstatus).1⟩

end CembBsearchIter
