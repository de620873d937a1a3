import CEmbeddedUtils.CopyQueueConfigProofs

/-! # How long a copy queue lives

    The offsets of a copy queue never come back to the start of its buffer, so
    every element takes up new bytes, also where others have been dequeued.
    What a queue can serve is therefore a number that its config fixes: as many
    enqueues, ever, as there are elements in `queue_size` bytes, whatever is
    dequeued between them.  The first enqueue beyond copies past the end of the
    buffer (`copy_queue_lifetime_iff`).  So a run is that of a bounded FIFO inside
    its buffer exactly when all of its enqueues fit, or, of the calls alone, when
    it takes in no more than that (`copy_queue_fifo_iff`). -/

namespace CembCopyQueue

open Memory Transducer

variable {w n : Nat}

/-- A call that the bounded FIFO takes an element in for. -/
def enqueuedBy (capacity : Nat) (held : List (Element n)) : CopyQueueOp n → Nat
  | .enqueue _ => if held.length = capacity then 0 else 1
  | .dequeue | .peek => 0

/-- How many of the calls a bounded FIFO takes an element in for. -/
def enqueued (capacity : Nat) : List (Element n) → List (CopyQueueOp n) → Nat
  | _, [] => 0
  | held, op :: ops =>
      enqueuedBy capacity held op + enqueued capacity (boundedFifo capacity held op).2 ops

section Lifetime

variable {config : CopyQueueConfig w} {queue queue' : CopyQueue w}
  {held : List (Element config.elementSize.toNat)}
  {op : CopyQueueOp config.elementSize.toNat} {r : ErrorCode × Option (List UInt8)}

/-- A dequeue leaves the tail where it is. -/
theorem dequeue_tailIdx {code : ErrorCode} {out : Option (List UInt8)}
    (h : copyQueueDequeue queue = some (code, out, queue')) : queue'.tailIdx = queue.tailIdx := by
  rw [copyQueueDequeue] at h
  by_cases hempty : copyQueueGetSize queue = 0
  · rw [if_pos hempty] at h
    obtain ⟨-, hrest⟩ := Prod.mk.inj (Option.some.inj h)
    rw [← (Prod.mk.inj hrest).2]
  · rw [if_neg hempty] at h
    obtain ⟨_, -, h₁⟩ := Option.bind_eq_some_iff.mp h
    obtain ⟨_, -, h₂⟩ := Option.bind_eq_some_iff.mp h₁
    obtain ⟨-, hrest⟩ := Prod.mk.inj (Option.some.inj h₂)
    rw [← (Prod.mk.inj hrest).2]

/-- **ONE CALL** moves the tail by the elements it takes in, and never back. -/
theorem step_tail (h : Simulated config config.elementSize.toNat queue held)
    (hstep : copyQueueStep queue op = some (r, queue')) :
    queue'.tailIdx.toNat = queue.tailIdx.toNat
      + enqueuedBy config.elementCount.toNat held op * config.elementSize.toNat := by
  have hfits := fits_of_step h hstep
  obtain ⟨buffer, h⟩ := h
  cases op with
  | enqueue x =>
      obtain ⟨⟨code, queue₁⟩, henqueue, heq⟩ := Option.map_eq_some_iff.mp hstep
      obtain ⟨-, rfl⟩ := Prod.mk.inj heq
      rcases enqueue_eq_some henqueue with ⟨hfull, -, rfl⟩ | ⟨hroom, -, buffer', rfl⟩
      · rw [enqueuedBy, if_pos (h.remaining.mp hfull), Nat.zero_mul, Nat.add_zero]
      · have hsize := config.queueSize.isLt
        have hfit := hfits hroom
        rw [enqueuedBy, if_neg (mt h.remaining.mpr hroom), Nat.one_mul, ← h.elementSize]
        exact SizeT.toNat_add_of_lt (by omega)
  | dequeue =>
      obtain ⟨⟨code, out, queue₁⟩, hdequeue, heq⟩ := Option.map_eq_some_iff.mp hstep
      obtain ⟨-, rfl⟩ := Prod.mk.inj heq
      rw [dequeue_tailIdx hdequeue, enqueuedBy, Nat.zero_mul, Nat.add_zero]
  | peek =>
      obtain ⟨⟨code, out⟩, -, heq⟩ := Option.map_eq_some_iff.mp hstep
      obtain ⟨-, rfl⟩ := Prod.mk.inj heq
      rw [enqueuedBy, Nat.zero_mul, Nat.add_zero]

/-- A call fits if and only if what it takes in does. -/
theorem enqueueFits_iff (h : Simulated config config.elementSize.toNat queue held) :
    EnqueueFits config.queueSize.toNat queue op ↔
      queue.tailIdx.toNat + enqueuedBy config.elementCount.toNat held op
        * config.elementSize.toNat ≤ config.queueSize.toNat := by
  obtain ⟨buffer, h⟩ := h
  cases op with
  | enqueue x =>
      rw [EnqueueFits, enqueuedBy, ne_eq, h.remaining, h.elementSize]
      split
      · next hfull =>
          rw [Nat.zero_mul, Nat.add_zero]
          exact iff_of_true (fun hroom => absurd hfull hroom) h.tail_le
      · next hroom =>
          rw [Nat.one_mul]
          exact ⟨fun hfit => hfit hroom, fun hfit _ => hfit⟩
  | dequeue => exact iff_of_true trivial (by rw [enqueuedBy, Nat.zero_mul]; exact h.tail_le)
  | peek => exact iff_of_true trivial (by rw [enqueuedBy, Nat.zero_mul]; exact h.tail_le)

/-- **EVERY RUN** is defined as long as all that it takes in ends inside the buffer, and
    then it is a run of the FIFO. -/
theorem run_defined_iff (ops : List (CopyQueueOp config.elementSize.toNat)) :
    ∀ {queue : CopyQueue w} {held : List (Element config.elementSize.toNat)},
      Simulated config config.elementSize.toNat queue held →
      ((run copyQueueStep queue ops ≠ none ↔
        queue.tailIdx.toNat + enqueued config.elementCount.toNat held ops
          * config.elementSize.toNat ≤ config.queueSize.toNat) ∧
      ∀ responses queue', run copyQueueStep queue ops = some (responses, queue') →
        responses = (runSpec (boundedFifo config.elementCount.toNat) held ops).1 ∧
        queue'.tailIdx.toNat = queue.tailIdx.toNat
          + enqueued config.elementCount.toNat held ops * config.elementSize.toNat) := by
  induction ops with
  | nil =>
      rintro queue held ⟨buffer, h⟩
      rw [enqueued, Nat.zero_mul]
      refine ⟨iff_of_true (Option.some_ne_none _) h.tail_le, ?_⟩
      intro responses queue' hrun
      obtain ⟨rfl, rfl⟩ := Prod.mk.inj (Option.some.inj hrun)
      exact ⟨rfl, rfl⟩
  | cons op ops ih =>
      intro queue held h
      by_cases hfits : EnqueueFits config.queueSize.toNat queue op
      · obtain ⟨queue₁, hstep, h₁⟩ := step_simulates queue held op h hfits
        obtain ⟨hdefined, hanswers⟩ := ih h₁
        have htail := step_tail h hstep
        have hsum : queue.tailIdx.toNat + enqueued config.elementCount.toNat held (op :: ops)
              * config.elementSize.toNat
            = queue₁.tailIdx.toNat + enqueued config.elementCount.toNat
                (boundedFifo config.elementCount.toNat held op).2 ops
              * config.elementSize.toNat := by
          rw [htail, enqueued, Nat.add_mul, Nat.add_assoc]
        rw [hsum, ← hdefined, run_cons hstep]
        constructor
        · rw [ne_eq, Option.map_eq_none_iff]
        · intro responses queue' hrun
          obtain ⟨⟨rest, queue₂⟩, hrun₁, heq⟩ := Option.map_eq_some_iff.mp hrun
          obtain ⟨rfl, rfl⟩ := Prod.mk.inj heq
          obtain ⟨rfl, htail'⟩ := hanswers rest queue₂ hrun₁
          exact ⟨rfl, htail'⟩
      · -- the call copies past the end of the buffer
        have hundefined : run copyQueueStep queue (op :: ops) = none := by
          cases hrun : run copyQueueStep queue (op :: ops) with
          | none => rfl
          | some p =>
              obtain ⟨r, queue₁, -, hstep, -⟩ := run_cons_eq_some hrun
              exact absurd (fits_of_step h hstep) hfits
        rw [hundefined]
        refine ⟨iff_of_false (fun hne => hne rfl) ?_, fun _ _ hrun => nomatch hrun⟩
        intro hle
        refine hfits ((enqueueFits_iff h).mpr (Nat.le_trans ?_ hle))
        rw [enqueued, Nat.add_mul]
        omega

end Lifetime

/-- A fresh queue is at the start of its buffer, so that a run takes up what it
    takes in. -/
theorem fresh_run_defined_iff {config : CopyQueueConfig w} {queue queue₀ : CopyQueue w}
    (hbuffer : config.queueBuffer.size = config.queueSize.toNat)
    (hinit : copyQueueInit queue config = (.errNone, queue₀))
    (ops : List (CopyQueueOp config.elementSize.toNat)) :
    (run copyQueueStep queue₀ ops ≠ none ↔
      enqueued config.elementCount.toNat [] ops * config.elementSize.toNat
        ≤ config.queueSize.toNat) ∧
    ∀ responses queue', run copyQueueStep queue₀ ops = some (responses, queue') →
      responses = (runSpec (boundedFifo config.elementCount.toNat) [] ops).1 ∧
      queue'.tailIdx.toNat
        = enqueued config.elementCount.toNat [] ops * config.elementSize.toNat := by
  obtain ⟨hhead, hfresh⟩ := fresh_holds hbuffer hinit
  have htail : queue₀.tailIdx.toNat = 0 := by
    rw [hfresh.tail, hhead]
    simp
  have hruns := run_defined_iff ops ⟨config.queueBuffer, hfresh⟩
  rw [htail, Nat.zero_add] at hruns
  exact hruns

/-! ## The FIFO law -/

/-- What a run of the queue should be: defined, that is, inside the buffer;
    with the responses of the bounded FIFO; and refusing without a change. -/
def RunsAsFifo (config : CopyQueueConfig w) (queue₀ : CopyQueue w)
    (ops : List (CopyQueueOp config.elementSize.toNat)) : Prop :=
  ∃ queue', run copyQueueStep queue₀ ops
      = some ((runSpec (boundedFifo config.elementCount.toNat) [] ops).1, queue') ∧
    ∀ (op : CopyQueueOp config.elementSize.toNat) code out queue'',
      copyQueueStep queue' op = some ((code, out), queue'') → code ≠ .errNone →
        queue'' = queue' ∧ out = none

/-- **THE COPY QUEUE IS A BOUNDED FIFO INSIDE ITS BUFFER** exactly on the runs
    whose enqueues all fit.  On the calls alone: exactly on those of which the FIFO
    takes in at most `queue_size / element_size` elements. -/
theorem copy_queue_fifo_iff {config : CopyQueueConfig w} (queue : CopyQueue w)
    (hbuffer : config.queueBuffer.size = config.queueSize.toNat)
    (hcount : 1 ≤ config.elementCount.toNat) (hsize : 1 ≤ config.elementSize.toNat)
    (hfit : config.elementCount.toNat * config.elementSize.toNat ≤ config.queueSize.toNat) :
    ∃ queue₀, copyQueueInit queue config = (.errNone, queue₀) ∧
      ∀ ops : List (CopyQueueOp config.elementSize.toNat),
        (RunsAsFifo config queue₀ ops ↔
          Admits copyQueueStep (EnqueueFits config.queueSize.toNat) queue₀ ops) ∧
        (RunsAsFifo config queue₀ ops ↔
          enqueued config.elementCount.toNat [] ops
            ≤ config.queueSize.toNat / config.elementSize.toNat) := by
  obtain ⟨queue₀, hinit, h₀⟩ := init_simulated queue hbuffer hcount hsize hfit
  refine ⟨queue₀, hinit, ?_⟩
  intro ops
  constructor
  · constructor
    · rintro ⟨queue', hrun, -⟩
      refine admits_of_run
        (I := fun q => ∃ held, Simulated config config.elementSize.toNat q held)
        ?_ ops queue₀ ⟨[], h₀⟩ hrun
      rintro q op r q' ⟨held, h⟩ hstep
      have hfits := fits_of_step h hstep
      obtain ⟨q₁, hstep₁, h₁⟩ := step_simulates q held op h hfits
      obtain ⟨-, rfl⟩ := Prod.mk.inj (Option.some.inj (hstep.symm.trans hstep₁))
      exact ⟨hfits, _, h₁⟩
    · intro hadm
      obtain ⟨queue', hrun, -⟩ := run_refines_of_admits step_simulates ops queue₀ [] h₀ hadm
      exact ⟨queue', hrun, fun _ _ _ _ hstep hcode => step_refused hstep hcode⟩
  · obtain ⟨hdefined, hanswers⟩ := fresh_run_defined_iff hbuffer hinit ops
    rw [Nat.le_div_iff_mul_le hsize, ← hdefined]
    constructor
    · rintro ⟨queue', hrun, -⟩ hnone
      rw [hnone] at hrun
      cases hrun
    · intro hne
      obtain ⟨⟨responses, queue'⟩, hrun⟩ := Option.ne_none_iff_exists'.mp hne
      obtain ⟨rfl, -⟩ := hanswers responses queue' hrun
      exact ⟨queue', hrun, fun _ _ _ _ hstep hcode => step_refused hstep hcode⟩

/-- The law at two elements of two bytes. -/
theorem copy_queue_fifo_iff_two_pairs :
    ∃ queue₀, copyQueueInit ⟨0, 0, 0, none, 0, 0⟩ twoPairsConfig = (.errNone, queue₀) ∧
      ∀ ops, (RunsAsFifo twoPairsConfig queue₀ ops ↔
          Admits copyQueueStep (EnqueueFits twoPairsConfig.queueSize.toNat) queue₀ ops) ∧
        (RunsAsFifo twoPairsConfig queue₀ ops ↔ enqueued 2 [] ops ≤ 2) :=
  copy_queue_fifo_iff ⟨0, 0, 0, none, 0, 0⟩ rfl (by decide) (by decide) (by decide)

/-- One byte for one element of one byte. -/
def oneByteConfig : CopyQueueConfig 8 where
  queueBuffer := ⟨1, fun _ => 0⟩
  queueSize := 1
  elementCount := 1
  elementSize := 1

/-- **THE QUEUE LEAVES ITS BUFFER**: one element goes in and out, the queue is
    empty again, and the next enqueue copies to byte 1 of a buffer of one byte.
    So this run is not that of a FIFO inside its buffer. -/
theorem copy_queue_leaves_buffer :
    ∃ queue₀ queue₁, copyQueueInit ⟨0, 0, 0, none, 0, 0⟩ oneByteConfig = (.errNone, queue₀) ∧
      run copyQueueStep queue₀ [.enqueue (n := 1) ⟨[7], rfl⟩, .dequeue]
        = some ([(.errNone, none), (.errNone, some [7])], queue₁) ∧
      copyQueueGetRemaining queue₁ = 1 ∧ queue₁.tailIdx.toNat = 1 ∧
      copyQueueStep queue₁ (.enqueue (n := 1) ⟨[9], rfl⟩) = none ∧
      ¬ RunsAsFifo oneByteConfig queue₀
        [.enqueue ⟨[7], rfl⟩, .dequeue, .enqueue ⟨[9], rfl⟩] := by
  refine ⟨_, _, rfl, rfl, rfl, rfl, rfl, ?_⟩
  rintro ⟨queue', hrun, -⟩
  have hnone : (none : Option (List (ErrorCode × Option (List UInt8)) × CopyQueue 8))
      = some (_, queue') := hrun
  exact nomatch hnone

/-! ## The lifetime -/

/-- An accepted config has elements of at least one byte. -/
theorem elementSize_pos_of_init {config : CopyQueueConfig w} {queue queue₀ : CopyQueue w}
    (hinit : copyQueueInit queue config = (.errNone, queue₀)) :
    0 < config.elementSize.toNat := by
  have hvalid := validateConfig_of_init hinit
  rcases validateConfig_cases config with ⟨-, hsize, -⟩ | ⟨hinvalid, -⟩
  · exact Nat.pos_of_ne_zero (mt SizeT.toNat_eq_zero.mp hsize)
  · rw [hinvalid] at hvalid
    cases hvalid

/-- **THE LIFETIME OF A QUEUE**: after an accepted init, a run stays inside the buffer if
    and only if the FIFO takes in no more elements over the whole run than
    `queue_size / element_size`; how many are dequeued makes no difference.  Up to there
    the responses are those of the FIFO.  This holds also where init accepts more
    elements than the buffer has room for. -/
theorem copy_queue_lifetime_iff {config : CopyQueueConfig w} {queue queue₀ : CopyQueue w}
    (hbuffer : config.queueBuffer.size = config.queueSize.toNat)
    (hinit : copyQueueInit queue config = (.errNone, queue₀))
    (ops : List (CopyQueueOp config.elementSize.toNat)) :
    (run copyQueueStep queue₀ ops ≠ none ↔
      enqueued config.elementCount.toNat [] ops
        ≤ config.queueSize.toNat / config.elementSize.toNat) ∧
    ∀ responses queue', run copyQueueStep queue₀ ops = some (responses, queue') →
      responses = (runSpec (boundedFifo config.elementCount.toNat) [] ops).1 ∧
      queue'.tailIdx.toNat
        = enqueued config.elementCount.toNat [] ops * config.elementSize.toNat := by
  obtain ⟨hdefined, hanswers⟩ := fresh_run_defined_iff hbuffer hinit ops
  exact ⟨hdefined.trans (Nat.le_div_iff_mul_le (elementSize_pos_of_init hinit)).symm, hanswers⟩

/-- A queue of more elements than its four bytes have room for takes one in; after a
    dequeue the second is out. -/
theorem copy_queue_lifetime_iff_huge_queue :
    ∃ queue₀, copyQueueInit ⟨0, 0, 0, none, 0, 0⟩ hugeQueueConfig = (.errNone, queue₀) ∧
      run copyQueueStep queue₀ [.enqueue (n := 4) ⟨[1, 2, 3, 4], rfl⟩, .dequeue] ≠ none ∧
      run copyQueueStep queue₀ [.enqueue (n := 4) ⟨[1, 2, 3, 4], rfl⟩, .dequeue,
        .enqueue ⟨[5, 6, 7, 8], rfl⟩] = none := by
  have hbuffer : hugeQueueConfig.queueBuffer.size = hugeQueueConfig.queueSize.toNat := rfl
  have hinit : copyQueueInit ⟨0, 0, 0, none, 0, 0⟩ hugeQueueConfig
      = (.errNone, ⟨0, 0x4000000000000001, 4, some ⟨4, fun _ => 0⟩, 0, 0⟩) := by
    rw [copyQueueInit]
    rfl
  have hone := (copy_queue_lifetime_iff hbuffer hinit
    [.enqueue ⟨[1, 2, 3, 4], rfl⟩, .dequeue]).1
  have htwo := (copy_queue_lifetime_iff hbuffer hinit
    [.enqueue ⟨[1, 2, 3, 4], rfl⟩, .dequeue, .enqueue ⟨[5, 6, 7, 8], rfl⟩]).1
  refine ⟨_, hinit, hone.mpr (by decide +kernel), ?_⟩
  exact not_not.mp (mt htwo.mp (by decide +kernel))

end CembCopyQueue
