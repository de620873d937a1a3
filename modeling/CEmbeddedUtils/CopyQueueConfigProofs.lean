import CEmbeddedUtils.CopyQueueProofs

/-! # Which copy queues are accepted, and whether their elements fit

    `copy_queue_validate_config` multiplies two `size_t` and compares the product
    with the size of the buffer.  The product wraps, so that a queue of far more
    elements than the buffer holds can pass the comparison; filling it then writes
    past the buffer.

    `ProductCompares` says of a config, without running anything, when the wrapped
    product decides as the exact one would.  `copy_queue_accepts_fitting_iff` proves
    that init is exact on just these configs, and that just these can be filled. -/

namespace CembCopyQueue

open Memory Transducer

variable {w : Nat}

/-- Elements of at least one byte, at least one of them, that fit in a buffer of at
    least one byte: what init should accept. -/
def FitsBuffer (config : CopyQueueConfig w) : Prop :=
  config.elementSize ≠ 0 ∧ config.queueSize ≠ 0 ∧ config.elementCount ≠ 0 ∧
    config.elementCount.toNat * config.elementSize.toNat ≤ config.queueSize.toNat

/-- Init accepts the config if its elements fit, and else refuses it with one code
    and leaves the queue alone. -/
def InitIsExact (queue : CopyQueue w) (config : CopyQueueConfig w) : Prop :=
  (FitsBuffer config → ∃ queue₀, copyQueueInit queue config = (.errNone, queue₀)) ∧
    (¬ FitsBuffer config → copyQueueInit queue config = (.errInvalidArg, queue))

/-- Once accepted, the queue takes `element_count` elements, whatever they are, and
    writes below `queue_size` only. -/
def FillsInside (queue : CopyQueue w) (config : CopyQueueConfig w) : Prop :=
  ∀ queue₀, copyQueueInit queue config = (.errNone, queue₀) →
    ∀ elements : List (Element config.elementSize.toNat),
      elements.length = config.elementCount.toNat →
        ∃ responses queue₁, run copyQueueStep queue₀ (elements.map CopyQueueOp.enqueue)
          = some (responses, queue₁)

/-- The wrapped product decides as the exact one: a factor or the size of the buffer
    is zero, or the exact product does not wrap, or the wrapped one is too large as
    well. -/
def ProductCompares (config : CopyQueueConfig w) : Prop :=
  config.elementSize = 0 ∨ config.queueSize = 0 ∨ config.elementCount = 0 ∨
    config.elementCount.toNat * config.elementSize.toNat < 2 ^ w ∨
    config.queueSize < config.elementCount * config.elementSize

/-! ## What init accepts -/

section Init

variable {config : CopyQueueConfig w}

/-- The comparisons of the source, and the one code for those that fail. -/
theorem validateConfig_cases (config : CopyQueueConfig w) :
    (copyQueueValidateConfig config = .errNone ∧ config.elementSize ≠ 0 ∧
      config.queueSize ≠ 0 ∧ config.elementCount ≠ 0 ∧
      ¬ config.queueSize < config.elementCount * config.elementSize) ∨
    (copyQueueValidateConfig config = .errInvalidArg ∧
      (config.elementSize = 0 ∨ config.queueSize = 0 ∨ config.elementCount = 0 ∨
        config.queueSize < config.elementCount * config.elementSize)) := by
  unfold copyQueueValidateConfig
  by_cases hsize : config.elementSize = 0
  · exact Or.inr ⟨if_pos hsize, Or.inl hsize⟩
  rw [if_neg hsize]
  by_cases hqueue : config.queueSize = 0
  · exact Or.inr ⟨if_pos hqueue, Or.inr (Or.inl hqueue)⟩
  rw [if_neg hqueue]
  by_cases hcount : config.elementCount = 0
  · exact Or.inr ⟨if_pos hcount, Or.inr (Or.inr (Or.inl hcount))⟩
  rw [if_neg hcount]
  by_cases hproduct : config.queueSize < config.elementCount * config.elementSize
  · exact Or.inr ⟨if_pos hproduct, Or.inr (Or.inr (Or.inr hproduct))⟩
  · exact Or.inl ⟨if_neg hproduct, hsize, hqueue, hcount, hproduct⟩

/-- An accepted config has passed the comparisons. -/
theorem validateConfig_of_init {queue queue₀ : CopyQueue w}
    (hinit : copyQueueInit queue config = (.errNone, queue₀)) :
    copyQueueValidateConfig config = .errNone := by
  rcases validateConfig_cases config with ⟨hvalid, -⟩ | ⟨hinvalid, -⟩
  · exact hvalid
  · rw [copyQueueInit, hinvalid] at hinit
    cases hinit

/-- Where the product does not wrap, the comparison is the exact one. -/
theorem not_lt_product_iff
    (hexact : config.elementCount.toNat * config.elementSize.toNat < 2 ^ w) :
    ¬ config.queueSize < config.elementCount * config.elementSize ↔
      config.elementCount.toNat * config.elementSize.toNat ≤ config.queueSize.toNat := by
  rw [BitVec.lt_def, SizeT.toNat_mul_of_lt hexact, not_lt]

/-- Elements that fit have a product that does not wrap. -/
theorem FitsBuffer.product_lt (h : FitsBuffer config) :
    config.elementCount.toNat * config.elementSize.toNat < 2 ^ w :=
  Nat.lt_of_le_of_lt h.2.2.2 config.queueSize.isLt

/-- Of the configs whose product compares, init accepts those that fit. -/
theorem fitsBuffer_iff_of_compares (h : ProductCompares config) :
    FitsBuffer config ↔ copyQueueValidateConfig config = .errNone := by
  rcases validateConfig_cases config with
    ⟨hvalid, hsize, hqueue, hcount, hproduct⟩ | ⟨hinvalid, hfails⟩
  · refine iff_of_true ⟨hsize, hqueue, hcount, ?_⟩ hvalid
    rcases h with h | h | h | h | h
    · exact absurd h hsize
    · exact absurd h hqueue
    · exact absurd h hcount
    · exact (not_lt_product_iff h).mp hproduct
    · exact absurd h hproduct
  · refine iff_of_false ?_ (by rw [hinvalid]; nofun)
    intro hfits
    rcases hfails with hzero | hzero | hzero | hover
    · exact hfits.1 hzero
    · exact hfits.2.1 hzero
    · exact hfits.2.2.1 hzero
    · exact (not_lt_product_iff hfits.product_lt).mpr hfits.2.2.2 hover

/-- A config whose product wraps below the size of the buffer is accepted. -/
theorem accepted_of_not_compares (h : ¬ ProductCompares config) (queue : CopyQueue w) :
    (∃ queue₀, copyQueueInit queue config = (.errNone, queue₀)) ∧
      2 ^ w ≤ config.elementCount.toNat * config.elementSize.toNat := by
  rcases validateConfig_cases config with ⟨hvalid, -⟩ | ⟨-, hfails⟩
  · refine ⟨⟨_, by rw [copyQueueInit, hvalid]⟩, Nat.le_of_not_lt ?_⟩
    intro hexact
    exact h (Or.inr (Or.inr (Or.inr (Or.inl hexact))))
  · refine absurd ?_ h
    rcases hfails with hzero | hzero | hzero | hover
    · exact Or.inl hzero
    · exact Or.inr (Or.inl hzero)
    · exact Or.inr (Or.inr (Or.inl hzero))
    · exact Or.inr (Or.inr (Or.inr (Or.inr hover)))

/-- **INIT IS EXACT** on the configs whose product compares, and on no others. -/
theorem initIsExact_iff (queue : CopyQueue w) :
    InitIsExact queue config ↔ ProductCompares config := by
  constructor
  · rintro ⟨-, hrefuses⟩
    by_contra hwraps
    obtain ⟨⟨queue₀, hinit⟩, hover⟩ := accepted_of_not_compares hwraps queue
    have hmisfit : ¬ FitsBuffer config := fun hfits =>
      absurd hfits.product_lt (Nat.not_lt.mpr hover)
    rw [hrefuses hmisfit] at hinit
    cases hinit
  · intro hcompares
    have hfits := fitsBuffer_iff_of_compares hcompares
    constructor
    · intro h
      exact ⟨_, by rw [copyQueueInit, hfits.mp h]⟩
    · intro h
      rcases validateConfig_cases config with ⟨hvalid, -⟩ | ⟨hinvalid, -⟩
      · exact absurd (hfits.mpr hvalid) h
      · rw [copyQueueInit, hinvalid]

end Init

/-! ## Filling a queue -/

section Fill

variable {config : CopyQueueConfig w}

/-- An enqueue leaves the head where it is. -/
theorem enqueue_headIdx {queue queue' : CopyQueue w} {element : List UInt8} {code : ErrorCode}
    (h : copyQueueEnqueue queue element = some (code, queue')) :
    queue'.headIdx = queue.headIdx := by
  rcases enqueue_eq_some h with ⟨-, -, rfl⟩ | ⟨-, -, buffer, rfl⟩
  · rfl
  · rfl

/-- The queue holds elements and nothing has left it: they start where its buffer
    does. -/
def FilledTo (config : CopyQueueConfig w) (queue : CopyQueue w) : Prop :=
  queue.headIdx = 0 ∧ ∃ held, Simulated config config.elementSize.toNat queue held

/-- With bytes for all its places, a queue filled from the start takes one element
    more or is full. -/
theorem FilledTo.enqueue {queue : CopyQueue w}
    (hfit : config.elementCount.toNat * config.elementSize.toNat ≤ config.queueSize.toNat)
    (h : FilledTo config queue) (x : Element config.elementSize.toNat) :
    ∃ r queue', copyQueueStep queue (.enqueue x) = some (r, queue') ∧
      FilledTo config queue' := by
  obtain ⟨hhead, held, buffer, hholds⟩ := h
  have hfits : EnqueueFits config.queueSize.toNat queue (.enqueue x) := by
    intro hroom
    have htail := hholds.tail
    rw [hhead, SizeT.toNat_eq_zero.mpr rfl, Nat.zero_add] at htail
    have hlt : held.length + 1 ≤ config.elementCount.toNat :=
      Nat.lt_of_le_of_ne hholds.count_le (mt hholds.remaining.mpr hroom)
    have hle := Nat.mul_le_mul_right config.elementSize.toNat hlt
    rw [htail, hholds.elementSize, ← Nat.succ_mul]
    exact Nat.le_trans hle hfit
  obtain ⟨queue', hstep, h'⟩ := step_simulates queue held _ ⟨buffer, hholds⟩ hfits
  refine ⟨_, queue', hstep, ?_, _, h'⟩
  obtain ⟨⟨code, queue₁⟩, henqueue, heq⟩ := Option.map_eq_some_iff.mp hstep
  obtain ⟨-, rfl⟩ := Prod.mk.inj heq
  rw [enqueue_headIdx henqueue, hhead]

/-- And so it takes any number of them. -/
theorem FilledTo.fill
    (hfit : config.elementCount.toNat * config.elementSize.toNat ≤ config.queueSize.toNat)
    (elements : List (Element config.elementSize.toNat)) :
    ∀ {queue : CopyQueue w}, FilledTo config queue →
      ∃ responses queue₁, run copyQueueStep queue (elements.map CopyQueueOp.enqueue)
        = some (responses, queue₁) := by
  induction elements with
  | nil =>
      intro queue _
      exact ⟨[], queue, rfl⟩
  | cons x elements ih =>
      intro queue h
      obtain ⟨r, queue', hstep, h'⟩ := h.enqueue hfit x
      obtain ⟨responses, queue₁, hrun⟩ := ih h'
      refine ⟨r :: responses, queue₁, ?_⟩
      rw [List.map_cons, run_cons hstep, hrun]
      rfl

/-- A run of enqueues that is defined leaves room in the buffer for all it put in. -/
theorem Holds.fill_le (elements : List (Element config.elementSize.toNat)) :
    ∀ {queue queue₁ : CopyQueue w} {held : List (Element config.elementSize.toNat)}
      {buffer : Block UInt8} {responses : List (ErrorCode × Option (List UInt8))},
      Holds config config.elementSize.toNat queue held buffer →
      held.length + elements.length ≤ config.elementCount.toNat →
      run copyQueueStep queue (elements.map CopyQueueOp.enqueue) = some (responses, queue₁) →
        (held.length + elements.length) * config.elementSize.toNat
          ≤ config.queueSize.toNat := by
  induction elements with
  | nil =>
      intro queue queue₁ held buffer responses h _ _
      have htail := h.tail
      have htail_le := h.tail_le
      show held.length * config.elementSize.toNat ≤ _
      omega
  | cons x elements ih =>
      intro queue queue₁ held buffer responses h hplaces hrun
      rw [List.length_cons] at hplaces
      obtain ⟨r, queue', rs, hstep, hrest, -⟩ := run_cons_eq_some hrun
      have hroom : held.length ≠ config.elementCount.toNat := by omega
      have hfits := fits_of_step ⟨buffer, h⟩ hstep (mt h.remaining.mp hroom)
      obtain ⟨queue₂, henqueue, h₂⟩ := h.enqueue x hroom hfits
      rw [copyQueueStep, henqueue] at hstep
      obtain ⟨-, rfl⟩ := Prod.mk.inj (Option.some.inj hstep)
      have hlength : (held ++ [x]).length + elements.length
          = held.length + (elements.length + 1) := by
        rw [List.length_append, List.length_singleton, Nat.add_assoc, Nat.add_comm 1]
      rw [List.length_cons, ← hlength]
      exact ih h₂ (by rw [hlength]; exact hplaces) hrest

/-- **JUST THESE CAN BE FILLED**: an accepted queue takes its elements inside its
    buffer exactly when the product of its config compares. -/
theorem fillsInside_iff (queue : CopyQueue w)
    (hbuffer : config.queueBuffer.size = config.queueSize.toNat) :
    FillsInside queue config ↔ ProductCompares config := by
  constructor
  · intro hfills
    by_contra hwraps
    obtain ⟨⟨queue₀, hinit⟩, hover⟩ := accepted_of_not_compares hwraps queue
    obtain ⟨responses, queue₁, hrun⟩ := hfills queue₀ hinit
      (List.replicate config.elementCount.toNat
        ⟨List.replicate config.elementSize.toNat 0, List.length_replicate⟩)
      List.length_replicate
    have hle := (fresh_holds hbuffer hinit).2.fill_le _ (by simp) hrun
    rw [List.length_nil, Nat.zero_add, List.length_replicate] at hle
    have hlt := config.queueSize.isLt
    omega
  · intro hcompares queue₀ hinit elements _
    obtain ⟨hhead, hholds⟩ := fresh_holds hbuffer hinit
    have hfits : FitsBuffer config :=
      (fitsBuffer_iff_of_compares hcompares).mpr (validateConfig_of_init hinit)
    exact FilledTo.fill hfits.2.2.2 elements ⟨hhead, [], _, hholds⟩

end Fill

/-- **INIT ACCEPTS QUEUES WHOSE ELEMENTS FIT** — it accepts these and refuses all
    others without a change, and what it accepts can be filled inside its buffer —
    exactly for the configs whose product compares. -/
theorem copy_queue_accepts_fitting_iff (queue : CopyQueue w) {config : CopyQueueConfig w}
    (hbuffer : config.queueBuffer.size = config.queueSize.toNat) :
    (InitIsExact queue config ∧ FillsInside queue config ↔ ProductCompares config) ∧
      (InitIsExact queue config ↔ ProductCompares config) ∧
      (FillsInside queue config ↔ ProductCompares config) := by
  rw [initIsExact_iff, fillsInside_iff queue hbuffer, and_self]
  exact ⟨Iff.rfl, Iff.rfl, Iff.rfl⟩

/-- Four bytes for two elements of two bytes. -/
def twoPairsConfig : CopyQueueConfig 8 where
  queueBuffer := ⟨4, fun _ => 0⟩
  queueSize := 4
  elementCount := 2
  elementSize := 2

/-- The law at two elements of two bytes, whose product is exact. -/
theorem copy_queue_accepts_fitting_iff_two_pairs :
    InitIsExact ⟨0, 0, 0, none, 0, 0⟩ twoPairsConfig ∧
      FillsInside ⟨0, 0, 0, none, 0, 0⟩ twoPairsConfig := by
  have hcompares : ProductCompares twoPairsConfig := by
    refine Or.inr (Or.inr (Or.inr (Or.inl ?_)))
    decide
  exact (copy_queue_accepts_fitting_iff ⟨0, 0, 0, none, 0, 0⟩ rfl).1.mpr hcompares

/-- Four bytes for more than `2 ^ 62` elements of four bytes. -/
def hugeQueueConfig : CopyQueueConfig 64 where
  queueBuffer := ⟨4, fun _ => 0⟩
  queueSize := 4
  elementCount := 0x4000000000000001
  elementSize := 4

/-- **A QUEUE THAT CANNOT BE FILLED IS ACCEPTED**: the product wraps to 4, which is
    what the buffer has; the first element fills it and the second is copied past its
    end. -/
theorem copy_queue_accepts_huge_queue :
    ∃ queue₀, copyQueueInit ⟨0, 0, 0, none, 0, 0⟩ hugeQueueConfig = (.errNone, queue₀) ∧
      ¬ FitsBuffer hugeQueueConfig ∧
      run copyQueueStep queue₀ [.enqueue (n := 4) ⟨[1, 2, 3, 4], rfl⟩,
        .enqueue ⟨[5, 6, 7, 8], rfl⟩] = none ∧
      ¬ InitIsExact ⟨0, 0, 0, none, 0, 0⟩ hugeQueueConfig ∧
      ¬ FillsInside ⟨0, 0, 0, none, 0, 0⟩ hugeQueueConfig := by
  have hwraps : ¬ ProductCompares hugeQueueConfig := by
    unfold ProductCompares
    decide +kernel
  have hinit : copyQueueInit ⟨0, 0, 0, none, 0, 0⟩ hugeQueueConfig
      = (.errNone, ⟨0, 0x4000000000000001, 4, some ⟨4, fun _ => 0⟩, 0, 0⟩) := by
    rw [copyQueueInit]
    rfl
  refine ⟨_, hinit, ?_, ?_, mt (initIsExact_iff _).mp hwraps,
    mt (fillsInside_iff _ rfl).mp hwraps⟩
  · rintro ⟨-, -, -, hle⟩
    exact absurd hle (by decide +kernel)
  · rfl

end CembCopyQueue
