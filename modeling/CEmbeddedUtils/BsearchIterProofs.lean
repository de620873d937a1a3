import CEmbeddedUtils.ErrorCodes
import CEmbeddedUtils.EliminationProofs
import CEmbeddedUtils.SignedIntProofs
import CEmbeddedUtils.TransducerProofs
import CEmbeddedUtils.ZigzagProofs
import Mathlib

/-! # The binary-search iterator is safe against any caller

    `bsearch_iter.c` hands out an index, is told how the entry there compares
    with the target, and hands out the next.  An entry that cannot be read is
    skipped: the iterator then probes to both sides of the pivot in turn.

    The indices it has not ruled out are those of the window that the zig-zag
    around the pivot has still to come to.  On this set the iterator is a
    search by elimination, whatever the answers are; this gives its safety
    against any caller and, with true answers, its correctness. -/

namespace CembBsearchIter

open Elimination SignedInt Transducer Zigzag

inductive BsearchIteratorStatus where
  | bsearchContinue
  | bsearchDoneNotFound
  | bsearchDoneFound
  deriving DecidableEq, Repr

inductive BsearchNotification where
  | bsearchNotifyLeft
  | bsearchNotifyRight
  | bsearchNotifyEq
  | bsearchNotifyErrSkip
  | bsearchNotifyErrAbort
  deriving DecidableEq, Repr

/-- `BsearchIterator`. -/
structure BsearchIterator where
  status : BsearchIteratorStatus
  leftIdx : SInt 32
  rightIdx : SInt 32
  pivotIdx : SInt 32
  pivotOffset : SInt 32

/-! ## The source -/

def bsearchGetNextPivotOffset (currentPivotOffset : SInt 32) : Option (SInt 32) :=
  if currentPivotOffset.val = 0 then some ⟨1, by decide⟩
  else if currentPivotOffset.val > 0 then currentPivotOffset.mul ⟨-1, by decide⟩
  else do
    let negated ← currentPivotOffset.mul ⟨-1, by decide⟩
    negated.add ⟨1, by decide⟩

def bsearchGetMidpointSafe (leftIdx rightIdx : SInt 32) : Option (SInt 32) := do
  let difference ← rightIdx.sub leftIdx
  let half ← difference.div ⟨2, by decide⟩
  leftIdx.add half

def bsearchIterInit (iter : BsearchIterator) (startIdx stopIdx : SInt 32) :
    Option (ErrorCode × BsearchIterator) :=
  if startIdx.val ≥ stopIdx.val then some (.errInvalidArg, iter)
  else do
    let pivotIdx ← bsearchGetMidpointSafe startIdx stopIdx
    some (.errNone,
      { status := .bsearchContinue
        leftIdx := startIdx
        rightIdx := stopIdx
        pivotIdx := pivotIdx
        pivotOffset := ⟨0, by decide⟩ })

def bsearchIterDeinit (iter : BsearchIterator) : BsearchIterator :=
  if iter.status = .bsearchContinue then { iter with status := .bsearchDoneNotFound } else iter

def bsearchIterGetCheckIndex (iter : BsearchIterator) : Option (SInt 32) :=
  iter.pivotIdx.add iter.pivotOffset

def bsearchIterGetFoundIndex (iter : BsearchIterator) : Option (SInt 32) :=
  if iter.status = .bsearchDoneFound then iter.pivotIdx.add iter.pivotOffset
  else some ⟨-1, by decide⟩

/-- `next_right_idx` of a notification to the left. -/
def nextRightIdx (iter : BsearchIterator) : Option (SInt 32) :=
  if iter.pivotOffset.val > 0 then do
    let nextPivotOffset ← bsearchGetNextPivotOffset iter.pivotOffset
    iter.pivotIdx.add nextPivotOffset
  else do
    let checkIdx ← iter.pivotIdx.add iter.pivotOffset
    checkIdx.sub ⟨1, by decide⟩

/-- `next_left_idx` of a notification to the right. -/
def nextLeftIdx (iter : BsearchIterator) : Option (SInt 32) :=
  if iter.pivotOffset.val < 0 then do
    let nextPivotOffset ← bsearchGetNextPivotOffset iter.pivotOffset
    iter.pivotIdx.add nextPivotOffset
  else do
    let checkIdx ← iter.pivotIdx.add iter.pivotOffset
    checkIdx.add ⟨1, by decide⟩

def bsearchIterNotify (iter : BsearchIterator) (notification : BsearchNotification) :
    Option BsearchIterator :=
  if iter.status ≠ .bsearchContinue then some iter
  else match notification with
    | .bsearchNotifyEq => some { iter with status := .bsearchDoneFound }
    | .bsearchNotifyLeft => do
        let nextRight ← nextRightIdx iter
        if nextRight.val ≥ iter.rightIdx.val ∨ nextRight.val < iter.leftIdx.val then
          some { iter with status := .bsearchDoneNotFound }
        else do
          let pivotIdx ← bsearchGetMidpointSafe iter.leftIdx nextRight
          some { iter with
            rightIdx := nextRight, pivotIdx := pivotIdx, pivotOffset := ⟨0, by decide⟩ }
    | .bsearchNotifyRight => do
        let nextLeft ← nextLeftIdx iter
        if nextLeft.val ≤ iter.leftIdx.val ∨ nextLeft.val > iter.rightIdx.val then
          some { iter with status := .bsearchDoneNotFound }
        else do
          let pivotIdx ← bsearchGetMidpointSafe nextLeft iter.rightIdx
          some { iter with
            leftIdx := nextLeft, pivotIdx := pivotIdx, pivotOffset := ⟨0, by decide⟩ }
    | .bsearchNotifyErrSkip => do
        let pivotOffset ← bsearchGetNextPivotOffset iter.pivotOffset
        let next ← iter.pivotIdx.add pivotOffset
        if next.val > iter.rightIdx.val ∨ next.val < iter.leftIdx.val then
          some { iter with pivotOffset := pivotOffset, status := .bsearchDoneNotFound }
        else some { iter with pivotOffset := pivotOffset }
    | .bsearchNotifyErrAbort => some { iter with status := .bsearchDoneNotFound }

/-- One round of a caller: ask for the index to check, then notify. -/
def bsearchRound : Step BsearchIterator BsearchNotification (SInt 32) :=
  fun iter notification => do
    let checkIdx ← bsearchIterGetCheckIndex iter
    let iter' ← bsearchIterNotify iter notification
    some (checkIdx, iter')

/-! ## The candidates -/

/-- A range of indices that a caller may search: it leaves out the lowest and the
    highest word, and its ends are at most as far apart as a word can say. -/
structure SearchRange where
  startIdx : SInt 32
  stopIdx : SInt 32
  le_start : -maxVal 32 ≤ startIdx.val
  start_lt : startIdx.val < stopIdx.val
  stop_lt : stopIdx.val < maxVal 32
  span_le : stopIdx.val - startIdx.val ≤ maxVal 32

/-- A range of indices of an array. -/
def SearchRange.ofNonneg (startIdx stopIdx : SInt 32) (hstart : 0 ≤ startIdx.val)
    (hlt : startIdx.val < stopIdx.val) (hstop : stopIdx.val < maxVal 32) : SearchRange where
  startIdx := startIdx
  stopIdx := stopIdx
  le_start := by rw [maxVal_32]; omega
  start_lt := hlt
  stop_lt := hstop
  span_le := by omega

/-- All indices of the range. -/
noncomputable def SearchRange.indices (range : SearchRange) : Finset Int :=
  Finset.Icc range.startIdx.val range.stopIdx.val

/-- Every index of the range, and the one next to it on each side, is a word. -/
theorem SearchRange.fits (range : SearchRange) {z : Int} (hlow : range.startIdx.val - 1 ≤ z)
    (hhigh : z ≤ range.stopIdx.val + 1) : Fits 32 z := by
  have hstart := range.le_start
  have hstop := range.stop_lt
  rw [maxVal_32] at hstart hstop
  exact fits_32.mpr ⟨by omega, by omega⟩

/-- A window of the range is as wide as a word can say. -/
theorem SearchRange.span_le_of_window (range : SearchRange) {lo hi : Int}
    (hlow : range.startIdx.val ≤ lo) (hhigh : hi ≤ range.stopIdx.val) :
    hi - lo ≤ maxVal 32 :=
  (sub_le_sub hhigh hlow).trans range.span_le

/-- The index that the iterator points at. -/
def checkIdx (iter : BsearchIterator) : Int := iter.pivotIdx.val + iter.pivotOffset.val

/-- The indices not ruled out: those of the window that the zig-zag around the
    pivot has still to come to. -/
noncomputable def candidates (iter : BsearchIterator) : Finset Int :=
  (Finset.Icc iter.leftIdx.val iter.rightIdx.val).filter fun i =>
    rank iter.pivotOffset.val ≤ rank (i - iter.pivotIdx.val)

/-- A running search over the range: the pivot is the middle of the window,
    and the index to check is inside. -/
structure Searching (range : SearchRange) (iter : BsearchIterator) : Prop where
  status : iter.status = .bsearchContinue
  start_le : range.startIdx.val ≤ iter.leftIdx.val
  le_stop : iter.rightIdx.val ≤ range.stopIdx.val
  pivot : iter.pivotIdx.val = middle iter.leftIdx.val iter.rightIdx.val
  left_le : iter.leftIdx.val ≤ checkIdx iter
  le_right : checkIdx iter ≤ iter.rightIdx.val

theorem mem_candidates {iter : BsearchIterator} {i : Int} :
    i ∈ candidates iter ↔ (iter.leftIdx.val ≤ i ∧ i ≤ iter.rightIdx.val) ∧
      rank iter.pivotOffset.val ≤ rank (i - iter.pivotIdx.val) := by
  rw [candidates, Finset.mem_filter, Finset.mem_Icc]

/-- In a new window nothing is ruled out. -/
theorem candidates_of_offset_zero {iter : BsearchIterator} (h : iter.pivotOffset.val = 0) :
    candidates iter = Finset.Icc iter.leftIdx.val iter.rightIdx.val := by
  rw [candidates, h, rank_zero]
  exact Finset.filter_true_of_mem fun i _ => rank_nonneg _

section Searching

variable {range : SearchRange} {iter : BsearchIterator}

theorem Searching.candidates_subset (h : Searching range iter) :
    candidates iter ⊆ range.indices := by
  intro i hi
  obtain ⟨⟨hleft, hright⟩, -⟩ := mem_candidates.mp hi
  exact Finset.mem_Icc.mpr ⟨h.start_le.trans hleft, hright.trans h.le_stop⟩

/-- The index to check is a candidate. -/
theorem Searching.check_mem (h : Searching range iter) : checkIdx iter ∈ candidates iter := by
  refine mem_candidates.mpr ⟨⟨h.left_le, h.le_right⟩, ?_⟩
  rw [checkIdx, add_sub_cancel_left]

/-- The last index left of the one checked that is not yet visited. -/
def lastLeft (iter : BsearchIterator) : Int :=
  if 0 < iter.pivotOffset.val then iter.pivotIdx.val + next iter.pivotOffset.val
  else checkIdx iter - 1

/-- The first index right of the one checked that is not yet visited. -/
def firstRight (iter : BsearchIterator) : Int :=
  if iter.pivotOffset.val < 0 then iter.pivotIdx.val + next iter.pivotOffset.val
  else checkIdx iter + 1

/-- **AN ANSWER TO THE LEFT** leaves a whole window: the skipped indices on the
    other side of the pivot are cut off with the rest. -/
theorem Searching.rest_left (h : Searching range iter) :
    rest (checkIdx iter) .left (candidates iter)
      = Finset.Icc iter.leftIdx.val (lastLeft iter) := by
  have hright := h.le_right
  ext i
  rw [rest, Finset.mem_filter, mem_candidates, Finset.mem_Icc]
  unfold lastLeft checkIdx at *
  by_cases hpos : 0 < iter.pivotOffset.val
  · -- right of the pivot: the indices down to its mirror image are skipped
    rw [if_pos hpos]
    have hnext := le_next_iff (j := i - iter.pivotIdx.val) hpos
    constructor
    · rintro ⟨⟨⟨hl, -⟩, hrank⟩, hlt⟩
      have := hnext.mpr ⟨by omega, hrank⟩
      exact ⟨hl, by omega⟩
    · rintro ⟨hl, hle⟩
      obtain ⟨hlt, hrank⟩ := hnext.mp (by omega)
      exact ⟨⟨⟨hl, by omega⟩, hrank⟩, by omega⟩
  · -- left of the pivot or on it: everything further left is unvisited
    rw [if_neg hpos]
    constructor
    · rintro ⟨⟨⟨hl, -⟩, -⟩, hlt⟩
      exact ⟨hl, by omega⟩
    · rintro ⟨hl, hle⟩
      have hrank := le_rank_of_lt (j := i - iter.pivotIdx.val) (Int.not_lt.mp hpos) (by omega)
      exact ⟨⟨⟨hl, by omega⟩, hrank⟩, by omega⟩

/-- **AN ANSWER TO THE RIGHT** leaves a whole window. -/
theorem Searching.rest_right (h : Searching range iter) :
    rest (checkIdx iter) .right (candidates iter)
      = Finset.Icc (firstRight iter) iter.rightIdx.val := by
  have hleft := h.left_le
  ext i
  rw [rest, Finset.mem_filter, mem_candidates, Finset.mem_Icc]
  unfold firstRight checkIdx at *
  by_cases hneg : iter.pivotOffset.val < 0
  · rw [if_pos hneg]
    have hnext := next_le_iff (j := i - iter.pivotIdx.val) hneg
    constructor
    · rintro ⟨⟨⟨-, hr⟩, hrank⟩, hlt⟩
      have := hnext.mpr ⟨by omega, hrank⟩
      exact ⟨by omega, hr⟩
    · rintro ⟨hle, hr⟩
      obtain ⟨hlt, hrank⟩ := hnext.mp (by omega)
      exact ⟨⟨⟨by omega, hr⟩, hrank⟩, by omega⟩
  · rw [if_neg hneg]
    constructor
    · rintro ⟨⟨⟨-, hr⟩, -⟩, hlt⟩
      exact ⟨by omega, hr⟩
    · rintro ⟨hle, hr⟩
      have hrank := le_rank_of_gt (j := i - iter.pivotIdx.val) (Int.not_lt.mp hneg) (by omega)
      exact ⟨⟨⟨by omega, hr⟩, hrank⟩, by omega⟩

/-- **A SKIP** leaves what the zig-zag comes to after the index checked. -/
theorem mem_rest_absent {i : Int} :
    i ∈ rest (checkIdx iter) .absent (candidates iter) ↔
      (iter.leftIdx.val ≤ i ∧ i ≤ iter.rightIdx.val) ∧
        rank (next iter.pivotOffset.val) ≤ rank (i - iter.pivotIdx.val) := by
  rw [rest, Finset.mem_erase, mem_candidates, rank_next]
  constructor
  · rintro ⟨hne, hwindow, hrank⟩
    refine ⟨hwindow, Int.add_one_le_iff.mpr (lt_of_le_of_ne hrank fun heq => hne ?_)⟩
    rw [checkIdx, rank_injective heq, add_sub_cancel]
  · rintro ⟨hwindow, hrank⟩
    refine ⟨?_, hwindow, by omega⟩
    rintro rfl
    rw [checkIdx, add_sub_cancel_left] at hrank
    omega

end Searching

/-! ## One notification -/

/-- The next offset is the next one of the zig-zag. -/
theorem bsearchGetNextPivotOffset_eq {offset : SInt 32} (h : -maxVal 32 < offset.val) :
    ∃ hfits, bsearchGetNextPivotOffset offset = some ⟨next offset.val, hfits⟩ := by
  obtain ⟨-, hhigh⟩ := fits_32.mp offset.fits
  rw [maxVal_32] at h
  rw [bsearchGetNextPivotOffset]
  by_cases hzero : offset.val = 0
  · have hnext : next offset.val = 1 := by rw [hzero]; rfl
    rw [if_pos hzero]
    exact ⟨by rw [hnext]; decide, congrArg some (SInt.ext hnext.symm)⟩
  · rw [if_neg hzero]
    by_cases hpos : offset.val > 0
    · have hnext : next offset.val = -offset.val := if_pos hpos
      rw [if_pos hpos, hnext]
      exact ⟨fits_32.mpr ⟨by omega, by omega⟩, mul_eq_some _ (by rw [Int.mul_neg_one])⟩
    · have hnext : next offset.val = -offset.val + 1 := if_neg hpos
      have hneg : Fits 32 (-offset.val) := fits_32.mpr ⟨by omega, by omega⟩
      rw [if_neg hpos, hnext, mul_eq_some hneg (by rw [Int.mul_neg_one])]
      exact ⟨fits_32.mpr ⟨by omega, by omega⟩, add_eq_some _ rfl⟩

/-- The midpoint of a window is its middle. -/
theorem bsearchGetMidpointSafe_eq (leftIdx rightIdx : SInt 32)
    (hspan : rightIdx.val - leftIdx.val ≤ maxVal 32) (hle : leftIdx.val ≤ rightIdx.val) :
    ∃ hfits, bsearchGetMidpointSafe leftIdx rightIdx
      = some ⟨middle leftIdx.val rightIdx.val, hfits⟩ := by
  obtain ⟨hleft, -⟩ := fits_32.mp leftIdx.fits
  obtain ⟨-, hright⟩ := fits_32.mp rightIdx.fits
  rw [maxVal_32] at hspan
  have hdifference : Fits 32 (rightIdx.val - leftIdx.val) := fits_32.mpr ⟨by omega, by omega⟩
  have hhalf : Fits 32 ((rightIdx.val - leftIdx.val) / 2) := fits_32.mpr ⟨by omega, by omega⟩
  have hmiddle : Fits 32 (middle leftIdx.val rightIdx.val) := by
    unfold middle
    exact fits_32.mpr ⟨by omega, by omega⟩
  refine ⟨hmiddle, ?_⟩
  have htdiv : (rightIdx.val - leftIdx.val).tdiv 2 = (rightIdx.val - leftIdx.val) / 2 :=
    Int.tdiv_eq_ediv_of_nonneg (by omega)
  rw [bsearchGetMidpointSafe, sub_eq_some hdifference rfl]
  show (SInt.div _ _).bind _ = _
  rw [div_eq_some (by decide) hhalf htdiv]
  exact add_eq_some hmiddle rfl

/-- A fresh search over a window of the range. -/
theorem searching_fresh {range : SearchRange} {iter : BsearchIterator}
    (hstatus : iter.status = .bsearchContinue)
    (hstart : range.startIdx.val ≤ iter.leftIdx.val)
    (hle : iter.leftIdx.val ≤ iter.rightIdx.val) (hstop : iter.rightIdx.val ≤ range.stopIdx.val)
    (hpivot : iter.pivotIdx.val = middle iter.leftIdx.val iter.rightIdx.val)
    (hoffset : iter.pivotOffset.val = 0) : Searching range iter := by
  have hcheck : checkIdx iter = middle iter.leftIdx.val iter.rightIdx.val := by
    rw [checkIdx, hpivot, hoffset, add_zero]
  refine ⟨hstatus, hstart, hstop, hpivot, ?_, ?_⟩ <;> rw [hcheck, middle] <;> omega

/-- The index to check is in the range or next to it: it is a word. -/
def InReach (range : SearchRange) (iter : BsearchIterator) : Prop :=
  range.startIdx.val - 1 ≤ checkIdx iter ∧ checkIdx iter ≤ range.stopIdx.val + 1

/-- What a notification that does not end the search by itself leaves: the
    candidates `remaining` to go on with, or a search that ends without any. -/
inductive Narrowed (range : SearchRange) (remaining : Finset Int)
    (iter : BsearchIterator) : Prop where
  | goesOn (searching : Searching range iter) (left : candidates iter = remaining)
  | exhausted (status : iter.status = .bsearchDoneNotFound) (reach : InReach range iter)
      (none_left : remaining = ∅)

section Notify

variable {range : SearchRange} {iter : BsearchIterator}

theorem Searching.inReach (h : Searching range iter) : InReach range iter := by
  have hstart := h.start_le
  have hstop := h.le_stop
  have hleft := h.left_le
  have hright := h.le_right
  exact ⟨by omega, by omega⟩

theorem InReach.getCheckIndex (h : InReach range iter) :
    ∃ hfits, bsearchIterGetCheckIndex iter = some ⟨checkIdx iter, hfits⟩ :=
  ⟨range.fits h.1 h.2, add_eq_some _ rfl⟩

/-- The offset of a running search is far from the end of the type. -/
theorem Searching.offset_gt (h : Searching range iter) : -maxVal 32 < iter.pivotOffset.val := by
  have hspan := range.span_le_of_window h.start_le h.le_stop
  have hbounds := h.pivot
  have hleft := h.left_le
  have hright := h.le_right
  rw [maxVal_32] at hspan ⊢
  unfold checkIdx at hleft hright
  unfold middle at hbounds
  omega

theorem Searching.next_bounds (h : Searching range iter) :
    iter.leftIdx.val - 1 ≤ iter.pivotIdx.val + next iter.pivotOffset.val ∧
      iter.pivotIdx.val + next iter.pivotOffset.val ≤ iter.rightIdx.val + 1 := by
  have hleft := h.left_le
  have hright := h.le_right
  rw [checkIdx, h.pivot] at hleft hright
  rw [h.pivot]
  exact Zigzag.next_bounds hleft hright

theorem Searching.lastLeft_bounds (h : Searching range iter) :
    iter.leftIdx.val - 1 ≤ lastLeft iter ∧ lastLeft iter < iter.rightIdx.val := by
  have hleft := h.left_le
  have hright := h.le_right
  have hnext := h.next_bounds
  rw [lastLeft]
  by_cases hpos : 0 < iter.pivotOffset.val
  · have hnext' : next iter.pivotOffset.val = -iter.pivotOffset.val := if_pos hpos
    rw [hnext'] at hnext ⊢
    rw [if_pos hpos]
    rw [checkIdx] at hright
    exact ⟨hnext.1, by omega⟩
  · rw [if_neg hpos]
    exact ⟨by omega, by omega⟩

theorem Searching.firstRight_bounds (h : Searching range iter) :
    iter.leftIdx.val < firstRight iter ∧ firstRight iter ≤ iter.rightIdx.val + 1 := by
  have hleft := h.left_le
  have hright := h.le_right
  have hnext := h.next_bounds
  rw [firstRight]
  by_cases hneg : iter.pivotOffset.val < 0
  · have hnext' : next iter.pivotOffset.val = -iter.pivotOffset.val + 1 :=
      if_neg (Int.not_lt.mpr hneg.le)
    rw [hnext'] at hnext ⊢
    rw [if_pos hneg]
    rw [checkIdx] at hleft
    exact ⟨by omega, hnext.2⟩
  · rw [if_neg hneg]
    exact ⟨by omega, by omega⟩

theorem Searching.nextRightIdx_eq (h : Searching range iter) :
    ∃ hfits, nextRightIdx iter = some ⟨lastLeft iter, hfits⟩ := by
  have hstart := h.start_le
  have hstop := h.le_stop
  obtain ⟨hlow, hhigh⟩ := h.lastLeft_bounds
  have hfits : Fits 32 (lastLeft iter) := range.fits (by omega) (by omega)
  refine ⟨hfits, ?_⟩
  rw [nextRightIdx]
  by_cases hpos : iter.pivotOffset.val > 0
  · -- right of the pivot: what lies between the two probes has been skipped already
    obtain ⟨hnext, heq⟩ := bsearchGetNextPivotOffset_eq h.offset_gt
    rw [if_pos hpos, heq]
    exact add_eq_some hfits (if_pos hpos).symm
  · obtain ⟨hcheck, heq⟩ := h.inReach.getCheckIndex
    rw [bsearchIterGetCheckIndex] at heq
    rw [if_neg hpos, heq]
    exact sub_eq_some hfits (if_neg hpos).symm

theorem Searching.nextLeftIdx_eq (h : Searching range iter) :
    ∃ hfits, nextLeftIdx iter = some ⟨firstRight iter, hfits⟩ := by
  have hstart := h.start_le
  have hstop := h.le_stop
  obtain ⟨hlow, hhigh⟩ := h.firstRight_bounds
  have hfits : Fits 32 (firstRight iter) := range.fits (by omega) (by omega)
  refine ⟨hfits, ?_⟩
  rw [nextLeftIdx]
  by_cases hneg : iter.pivotOffset.val < 0
  · -- left of the pivot: the next probe is the first index right of the skipped ones
    obtain ⟨hnext, heq⟩ := bsearchGetNextPivotOffset_eq h.offset_gt
    rw [if_pos hneg, heq]
    exact add_eq_some hfits (if_pos hneg).symm
  · obtain ⟨hcheck, heq⟩ := h.inReach.getCheckIndex
    rw [bsearchIterGetCheckIndex] at heq
    rw [if_neg hneg, heq]
    exact add_eq_some hfits (if_neg hneg).symm

/-- The bounds of the window that a verdict leaves, where it leaves one. -/
def windowAfter (iter : BsearchIterator) : Verdict → Int × Int
  | .left => (iter.leftIdx.val, lastLeft iter)
  | .right => (firstRight iter, iter.rightIdx.val)
  | .absent => (iter.leftIdx.val, iter.rightIdx.val)

theorem Searching.notify_left (h : Searching range iter) :
    ∃ iter', bsearchIterNotify iter .bsearchNotifyLeft = some iter' ∧
      Narrowed range (rest (checkIdx iter) .left (candidates iter)) iter' ∧
      (iter'.status = .bsearchContinue →
        (iter'.leftIdx.val, iter'.rightIdx.val) = windowAfter iter .left) := by
  have hstart := h.start_le
  have hstop := h.le_stop
  obtain ⟨hlow, hhigh⟩ := h.lastLeft_bounds
  obtain ⟨hfits, hnext⟩ := h.nextRightIdx_eq
  rw [h.rest_left, bsearchIterNotify, if_neg (not_not_intro h.status)]
  simp only [hnext, Option.bind_eq_bind, Option.bind_some]
  by_cases hout : lastLeft iter ≥ iter.rightIdx.val ∨ lastLeft iter < iter.leftIdx.val
  · -- only the second test can hold: the new bound is below the old one
    rw [if_pos hout]
    refine ⟨_, rfl, .exhausted rfl h.inReach (Finset.Icc_eq_empty ?_), fun h => nomatch h⟩
    omega
  · have hwindow : iter.leftIdx.val ≤ lastLeft iter := by omega
    have hwithin : lastLeft iter ≤ range.stopIdx.val := by omega
    obtain ⟨hmid, hmidpoint⟩ := bsearchGetMidpointSafe_eq iter.leftIdx
      ⟨lastLeft iter, hfits⟩ (range.span_le_of_window hstart hwithin) hwindow
    rw [if_neg hout, hmidpoint]
    refine ⟨_, rfl, .goesOn ?_ (candidates_of_offset_zero rfl), fun _ => rfl⟩
    exact searching_fresh h.status hstart hwindow hwithin rfl rfl

theorem Searching.notify_right (h : Searching range iter) :
    ∃ iter', bsearchIterNotify iter .bsearchNotifyRight = some iter' ∧
      Narrowed range (rest (checkIdx iter) .right (candidates iter)) iter' ∧
      (iter'.status = .bsearchContinue →
        (iter'.leftIdx.val, iter'.rightIdx.val) = windowAfter iter .right) := by
  have hstart := h.start_le
  have hstop := h.le_stop
  obtain ⟨hlow, hhigh⟩ := h.firstRight_bounds
  obtain ⟨hfits, hnext⟩ := h.nextLeftIdx_eq
  rw [h.rest_right, bsearchIterNotify, if_neg (not_not_intro h.status)]
  simp only [hnext, Option.bind_eq_bind, Option.bind_some]
  by_cases hout : firstRight iter ≤ iter.leftIdx.val ∨ firstRight iter > iter.rightIdx.val
  · -- only the second test can hold: the new bound is above the old one
    rw [if_pos hout]
    refine ⟨_, rfl, .exhausted rfl h.inReach (Finset.Icc_eq_empty ?_), fun h => nomatch h⟩
    omega
  · have hwindow : firstRight iter ≤ iter.rightIdx.val := by omega
    have hwithin : range.startIdx.val ≤ firstRight iter := by omega
    obtain ⟨hmid, hmidpoint⟩ := bsearchGetMidpointSafe_eq
      ⟨firstRight iter, hfits⟩ iter.rightIdx (range.span_le_of_window hwithin hstop) hwindow
    rw [if_neg hout, hmidpoint]
    refine ⟨_, rfl, .goesOn ?_ (candidates_of_offset_zero rfl), fun _ => rfl⟩
    exact searching_fresh h.status hwithin hwindow hstop rfl rfl

theorem Searching.notify_skip (h : Searching range iter) :
    ∃ iter', bsearchIterNotify iter .bsearchNotifyErrSkip = some iter' ∧
      Narrowed range (rest (checkIdx iter) .absent (candidates iter)) iter' ∧
      (iter'.status = .bsearchContinue →
        (iter'.leftIdx.val, iter'.rightIdx.val) = windowAfter iter .absent) := by
  have hstart := h.start_le
  have hstop := h.le_stop
  have hbounds := h.next_bounds
  obtain ⟨hfits, hoffset⟩ := bsearchGetNextPivotOffset_eq h.offset_gt
  have hnext : Fits 32 (iter.pivotIdx.val + next iter.pivotOffset.val) :=
    range.fits (by omega) (by omega)
  rw [bsearchIterNotify, if_neg (not_not_intro h.status)]
  simp only [hoffset, Option.bind_eq_bind, Option.bind_some]
  rw [add_eq_some hnext rfl]
  simp only [Option.bind_some]
  by_cases hout : iter.pivotIdx.val + next iter.pivotOffset.val > iter.rightIdx.val ∨
      iter.pivotIdx.val + next iter.pivotOffset.val < iter.leftIdx.val
  · rw [if_pos hout]
    have hlow : range.startIdx.val - 1 ≤ iter.pivotIdx.val + next iter.pivotOffset.val := by
      omega
    have hhigh : iter.pivotIdx.val + next iter.pivotOffset.val ≤ range.stopIdx.val + 1 := by
      omega
    refine ⟨_, rfl, .exhausted rfl ⟨hlow, hhigh⟩ ?_, fun h => nomatch h⟩
    -- the zig-zag has left the window: it has been all through it
    refine Finset.eq_empty_of_forall_notMem fun i hi => ?_
    obtain ⟨hwindow, hrank⟩ := mem_rest_absent.mp hi
    have hleft := h.left_le
    have hright := h.le_right
    rw [checkIdx, h.pivot] at hleft hright
    rw [h.pivot] at hout hrank
    rw [rank_next] at hrank
    have hvisited := rank_le_of_next_outside (j := i - middle iter.leftIdx.val iter.rightIdx.val)
      hleft hright hout (by omega) (by omega)
    omega
  · have hlow : iter.leftIdx.val ≤ iter.pivotIdx.val + next iter.pivotOffset.val := by omega
    have hhigh : iter.pivotIdx.val + next iter.pivotOffset.val ≤ iter.rightIdx.val := by omega
    rw [if_neg hout]
    -- the window stays; the candidates are its indices the zig-zag has yet to reach
    refine ⟨_, rfl, .goesOn ⟨h.status, hstart, hstop, h.pivot, hlow, hhigh⟩ ?_, fun _ => rfl⟩
    ext i
    rw [mem_candidates, mem_rest_absent]

/-- The notification that gives a verdict. -/
def notificationOf : Verdict → BsearchNotification
  | .left => .bsearchNotifyLeft
  | .right => .bsearchNotifyRight
  | .absent => .bsearchNotifyErrSkip

/-- **ONE VERDICT** leaves the iterator with the candidates that a search by
    elimination leaves, in the window for it, and ends it when there are none. -/
theorem Searching.notify_verdict (h : Searching range iter) (v : Verdict) :
    ∃ iter', bsearchIterNotify iter (notificationOf v) = some iter' ∧
      Narrowed range (rest (checkIdx iter) v (candidates iter)) iter' ∧
      (iter'.status = .bsearchContinue →
        (iter'.leftIdx.val, iter'.rightIdx.val) = windowAfter iter v) := by
  cases v with
  | left => exact h.notify_left
  | right => exact h.notify_right
  | absent => exact h.notify_skip

/-- The two other notifications end the search where it is. -/
theorem Searching.notify_ends (h : Searching range iter) {notification : BsearchNotification}
    {status : BsearchIteratorStatus}
    (hend : (notification = .bsearchNotifyEq ∧ status = .bsearchDoneFound) ∨
      (notification = .bsearchNotifyErrAbort ∧ status = .bsearchDoneNotFound)) :
    bsearchIterNotify iter notification = some { iter with status := status } := by
  rcases hend with ⟨rfl, rfl⟩ | ⟨rfl, rfl⟩
  · exact if_neg (not_not_intro h.status)
  · exact if_neg (not_not_intro h.status)

end Notify

/-- A search over a range starts with the whole range. -/
theorem init_searching (range : SearchRange) (iter : BsearchIterator) :
    ∃ iter₀, bsearchIterInit iter range.startIdx range.stopIdx = some (.errNone, iter₀) ∧
      Searching range iter₀ ∧ candidates iter₀ = range.indices := by
  obtain ⟨hfits, hmidpoint⟩ := bsearchGetMidpointSafe_eq _ _ range.span_le range.start_lt.le
  refine ⟨⟨.bsearchContinue, range.startIdx, range.stopIdx, ⟨_, hfits⟩, ⟨0, by decide⟩⟩, ?_, ?_, ?_⟩
  · rw [bsearchIterInit, if_neg (Int.not_le.mpr range.start_lt), hmidpoint]
    rfl
  · exact searching_fresh rfl (le_refl _) range.start_lt.le (le_refl _) rfl rfl
  · exact candidates_of_offset_zero rfl

/-! ## Any caller -/

/-- The notifications are the three verdicts and the two that end the search. -/
theorem notification_cases (notification : BsearchNotification) :
    (∃ v, notification = notificationOf v) ∨
      notification = .bsearchNotifyEq ∨ notification = .bsearchNotifyErrAbort := by
  cases notification with
  | bsearchNotifyLeft => exact .inl ⟨.left, rfl⟩
  | bsearchNotifyRight => exact .inl ⟨.right, rfl⟩
  | bsearchNotifyErrSkip => exact .inl ⟨.absent, rfl⟩
  | bsearchNotifyEq => exact .inr (.inl rfl)
  | bsearchNotifyErrAbort => exact .inr (.inr rfl)

/-- What one round leaves: a search that goes on with what a verdict left of the
    candidates and of the window, or one that has ended. -/
inductive RoundOutcome (range : SearchRange) (iter : BsearchIterator)
    (notification : BsearchNotification) (iter' : BsearchIterator) : Prop where
  | goesOn (v : Verdict) (verdict : notification = notificationOf v)
      (before : Searching range iter) (after : Searching range iter')
      (left : candidates iter' = rest (checkIdx iter) v (candidates iter))
      (window : (iter'.leftIdx.val, iter'.rightIdx.val) = windowAfter iter v)
  | ended (status : iter'.status ≠ .bsearchContinue) (reach : InReach range iter')

/-- **ONE ROUND** with any notification, of a search that runs or has ended. -/
theorem InReach.round {range : SearchRange} {iter : BsearchIterator} (h : InReach range iter)
    (hsearching : iter.status = .bsearchContinue → Searching range iter)
    (notification : BsearchNotification) :
    ∃ hfits iter', bsearchRound iter notification = some (⟨checkIdx iter, hfits⟩, iter') ∧
      RoundOutcome range iter notification iter' := by
  obtain ⟨hfits, hindex⟩ := h.getCheckIndex
  have hround : ∀ {iter'}, bsearchIterNotify iter notification = some iter' →
      bsearchRound iter notification = some (⟨checkIdx iter, hfits⟩, iter') := by
    intro iter' hnotify
    rw [bsearchRound, hindex, hnotify]
    rfl
  by_cases hrunning : iter.status = .bsearchContinue
  · have hs := hsearching hrunning
    rcases notification_cases notification with ⟨v, rfl⟩ | rfl | rfl
    · obtain ⟨iter', hnotify, hnarrowed, hwindow⟩ := hs.notify_verdict v
      refine ⟨hfits, iter', hround hnotify, ?_⟩
      cases hnarrowed with
      | goesOn hs' hleft => exact .goesOn v rfl hs hs' hleft (hwindow hs'.status)
      | exhausted hstatus hreach _ =>
          exact .ended (by rw [hstatus]; exact fun h => nomatch h) hreach
    · exact ⟨hfits, _, hround (hs.notify_ends (.inl ⟨rfl, rfl⟩)), .ended (fun h => nomatch h) h⟩
    · exact ⟨hfits, _, hround (hs.notify_ends (.inr ⟨rfl, rfl⟩)), .ended (fun h => nomatch h) h⟩
  · -- a search that has ended ignores its notifications
    exact ⟨hfits, iter, hround (if_pos hrunning), .ended hrunning h⟩

/-- The index to check is a word, and while the search runs every index handed
    out so far is ruled out. -/
structure Safe (range : SearchRange) (offered : List (SInt 32)) (iter : BsearchIterator) :
    Prop where
  reach : InReach range iter
  searching : iter.status = .bsearchContinue → Searching range iter ∧
    Looked range.indices (candidates iter) (offered.map SInt.val)

/-- **ONE ROUND** with any notification keeps the search safe. -/
theorem Safe.round {range : SearchRange} {offered : List (SInt 32)} {iter : BsearchIterator}
    (h : Safe range offered iter) (notification : BsearchNotification) :
    ∃ index iter', bsearchRound iter notification = some (index, iter') ∧
      Safe range (offered ++ [index]) iter' := by
  obtain ⟨hfits, iter', hround, houtcome⟩ :=
    h.reach.round (fun hrunning => (h.searching hrunning).1) notification
  refine ⟨_, iter', hround, ?_⟩
  cases houtcome with
  | goesOn v _ hs hs' hleft _ =>
      refine ⟨hs'.inReach, fun _ => ⟨hs', ?_⟩⟩
      rw [hleft, List.map_append]
      exact (h.searching hs.status).2.look hs.check_mem v
  | ended hended hreach => exact ⟨hreach, fun hrunning => absurd hrunning hended⟩

/-- A running search after `n` rounds has ruled out `n` indices, and the one to
    check is not among them. -/
theorem Safe.length_lt {range : SearchRange} {offered : List (SInt 32)} {iter : BsearchIterator}
    (h : Safe range offered iter) (hrunning : iter.status = .bsearchContinue) :
    (offered.length : Int) < range.stopIdx.val - range.startIdx.val + 1 := by
  obtain ⟨hs, hlooked⟩ := h.searching hrunning
  have hpos := Finset.card_pos.mpr ⟨_, hs.check_mem⟩
  have hcount := hlooked.count
  have hlt := range.start_lt
  rw [List.length_map, SearchRange.indices, Int.card_Icc] at hcount
  omega

/-- **SAFE AGAINST ANY CALLER**: whatever the notifications are, no arithmetic
    overflows; while the search runs, the index to check is in the window, the
    window in the range, and the index new; and the search runs for at most as
    many notifications as the range has indices. -/
theorem bsearch_iter_safe (iter : BsearchIterator) (startIdx stopIdx : SInt 32)
    (hstart : 0 ≤ startIdx.val) (hlt : startIdx.val < stopIdx.val)
    (hstop : stopIdx.val < maxVal 32) :
    ∃ iter₀, bsearchIterInit iter startIdx stopIdx = some (.errNone, iter₀) ∧
      ∀ notifications, ∃ offered iter',
        run bsearchRound iter₀ notifications = some (offered, iter') ∧
        (iter'.status = .bsearchContinue →
          ∃ index, bsearchIterGetCheckIndex iter' = some index ∧
            startIdx.val ≤ iter'.leftIdx.val ∧ iter'.leftIdx.val ≤ index.val ∧
            index.val ≤ iter'.rightIdx.val ∧ iter'.rightIdx.val ≤ stopIdx.val ∧
            index ∉ offered) ∧
        (stopIdx.val - startIdx.val + 1 ≤ notifications.length →
          iter'.status ≠ .bsearchContinue) := by
  let range : SearchRange := .ofNonneg startIdx stopIdx hstart hlt hstop
  obtain ⟨iter₀, hinit, hs₀, hall⟩ := init_searching range iter
  refine ⟨iter₀, hinit, fun notifications => ?_⟩
  have hsafe₀ : Safe range [] iter₀ :=
    ⟨hs₀.inReach, fun _ => ⟨hs₀, by rw [hall]; exact Looked.start _⟩⟩
  obtain ⟨offered, iter', hrun, hlength, hsafe⟩ :=
    run_history (I := Safe range) (fun _ _ notification h => h.round notification)
      notifications [] iter₀ hsafe₀
  rw [List.nil_append] at hsafe
  refine ⟨offered, iter', hrun, fun hrunning => ?_, fun hmany hrunning => ?_⟩
  · obtain ⟨hs, hlooked⟩ := hsafe.searching hrunning
    obtain ⟨hfits, hindex⟩ := hs.inReach.getCheckIndex
    refine ⟨_, hindex, hs.start_le, hs.left_le, hs.le_right, hs.le_stop, fun hmem => ?_⟩
    exact hlooked.fresh _ (List.mem_map_of_mem hmem) hs.check_mem
  · have hbound := hsafe.length_lt hrunning
    rw [hlength] at hbound
    exact absurd hmany (Int.not_le.mpr hbound)

/-- An iterator before its first search. -/
def freshIterator : BsearchIterator :=
  ⟨.bsearchDoneNotFound, ⟨0, by decide⟩, ⟨0, by decide⟩, ⟨0, by decide⟩, ⟨0, by decide⟩⟩

/-- The safety on three indices with answers that no array gives. -/
theorem bsearch_iter_safe_three :
    ∃ iter₀, bsearchIterInit freshIterator ⟨0, by decide⟩ ⟨2, by decide⟩ = some (.errNone, iter₀) ∧
      ∃ offered iter', run bsearchRound iter₀ [.bsearchNotifyErrSkip, .bsearchNotifyLeft,
        .bsearchNotifyRight] = some (offered, iter') ∧ iter'.status ≠ .bsearchContinue := by
  obtain ⟨iter₀, hinit, hruns⟩ := bsearch_iter_safe freshIterator ⟨0, by decide⟩
    ⟨2, by decide⟩ (by decide) (by decide) (by decide)
  obtain ⟨offered, iter', hrun, -, hends⟩ := hruns _
  exact ⟨iter₀, hinit, offered, iter', hrun, hends (by decide)⟩

end CembBsearchIter
