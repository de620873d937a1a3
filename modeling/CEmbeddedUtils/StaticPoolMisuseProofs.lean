import CEmbeddedUtils.StaticPoolProofs

/-! # The static pool — configurations it cannot serve

    `static_pool_init` accepts a configuration by one comparison of wrapped
    products, and relies on it for everything else.  It lets through three
    kinds of configurations that the pool cannot serve: those without an
    object, which leave the free stack as it was; those with several objects
    of size zero, which are all at one address; and those whose product wraps,
    whose slots do not fit in the buffer.

    `static_pool_deallocate` takes every pointer but `NULL` for a slot. -/

namespace CembStaticPool

open CembPtrStack Memory Transducer

variable {w : Nat}

/-- An init for no objects is accepted, and does not touch the free stack. -/
theorem staticPoolInit_zero {config : StaticPoolConfig w} (pool : StaticPool w)
    (hcount : config.objectCount = 0) :
    staticPoolInit pool config = some (.errNone, ⟨config, pool.freeStack⟩) := by
  have hproduct : config.objectSize * config.objectCount = 0 := by
    rw [hcount]
    exact BitVec.mul_zero
  have haccepted : ¬ config.bufferSize < config.objectSize * config.objectCount := by
    rw [hproduct]
    exact BitVec.not_lt_zero
  simp only [staticPoolInit, staticPoolValidateConfig, if_neg haccepted, ptrStackInit,
    if_pos hcount, Option.bind_eq_bind]
  rw [hcount]
  simp [staticPoolFill]

/-! ## Which configurations are served -/

/-- The pool serves its configuration: one pointer for each object, to a range
    of the buffer of its own. -/
structure Serves (config : StaticPoolConfig w) (pool : StaticPool w) : Prop where
  count : (freeAddresses pool).length = config.objectCount.toNat
  inside : ∀ p ∈ freeAddresses pool, config.buffer ≤ p ∧
    p + config.objectSize.toNat ≤ config.buffer + config.bufferSize.toNat
  apart : (freeAddresses pool).Pairwise fun p q => p ≠ q ∧
    (p + config.objectSize.toNat ≤ q ∨ q + config.objectSize.toNat ≤ p)

/-- The configuration is rejected, or has no objects and finds an empty stack, or
    has objects that fit in the buffer without overflow, of at least one byte
    if there is more than one. -/
def Servable (config : StaticPoolConfig w) (pool : StaticPool w) : Prop :=
  config.bufferSize < config.objectSize * config.objectCount ∨
  (config.objectCount = 0 ∧ pool.freeStack.stackTop = 0) ∨
  (config.objectCount ≠ 0 ∧
    config.objectCount.toNat * config.objectSize.toNat ≤ config.bufferSize.toNat ∧
    (config.objectSize ≠ 0 ∨ config.objectCount.toNat = 1))

section Serves

variable {config : StaticPoolConfig w} {pool : StaticPool w}

/-- The free pointers of a pool that init has filled. -/
theorem freeAddresses_of_filled
    (h : StackHolds config.objectCount pool.freeStack (objectSlots config).reverse) :
    freeAddresses pool = objectSlots config := by
  rw [freeAddresses_eq h, List.reverse_reverse]

/-- Objects of at least one byte that fit are served. -/
theorem serves_of_fit
    (h : StackHolds config.objectCount pool.freeStack (objectSlots config).reverse)
    (hfit : config.objectCount.toNat * config.objectSize.toNat ≤ config.bufferSize.toNat)
    (hsize : config.objectSize ≠ 0) : Serves config pool := by
  have hpos : 1 ≤ config.objectSize.toNat := Nat.pos_of_ne_zero (mt SizeT.toNat_eq_zero.mp hsize)
  have heq : freeAddresses pool = slotAddresses config :=
    (freeAddresses_of_filled h).trans (objectSlots_eq hfit)
  constructor
  · rw [heq, length_slotAddresses]
  · rw [heq]
    intro p hp
    exact slot_in_buffer hfit hp
  · rw [heq]
    refine List.Pairwise.imp_of_mem ?_ (nodup_slotAddresses hpos)
    intro p q hp hq hne
    exact ⟨hne, slots_disjoint hp hq hne⟩

/-- Objects of no bytes are all at one address; only one of them is served. -/
theorem serves_iff_of_size_zero
    (h : StackHolds config.objectCount pool.freeStack (objectSlots config).reverse)
    (hcount : config.objectCount ≠ 0) (hsize : config.objectSize = 0) :
    Serves config pool ↔ config.objectCount.toNat = 1 := by
  have hslot : ∀ i, staticPoolSlot config i = config.buffer := by
    intro i
    simp [staticPoolSlot, hsize]
  have hpos : 0 < config.objectCount.toNat := Nat.pos_of_ne_zero (mt SizeT.toNat_eq_zero.mp hcount)
  have heq : freeAddresses pool = List.replicate config.objectCount.toNat config.buffer := by
    rw [freeAddresses_of_filled h, List.eq_replicate_iff]
    constructor
    · simp [objectSlots]
    · intro p hp
      obtain ⟨i, -, rfl⟩ := List.mem_map.mp hp
      exact hslot i
  constructor
  · intro hserves
    have hapart := hserves.apart
    rw [heq] at hapart
    by_contra hne
    -- the first two of several pointers are the same
    obtain ⟨m, hm⟩ : ∃ m, config.objectCount.toNat = m + 2 :=
      ⟨config.objectCount.toNat - 2, by omega⟩
    rw [hm, List.replicate_succ, List.replicate_succ] at hapart
    have hfirst := (List.pairwise_cons.mp hapart).1 config.buffer List.mem_cons_self
    exact hfirst.1 rfl
  · intro hone
    constructor
    · rw [heq, List.length_replicate]
    · rw [heq]
      intro p hp
      rw [List.eq_of_mem_replicate hp, hsize]
      simp
    · rw [heq, hone]
      simp

/-- Objects whose product wraps are not served: one of the slots before the
    first wrapped offset reaches past the buffer. -/
theorem not_serves_of_wrap
    (h : StackHolds config.objectCount pool.freeStack (objectSlots config).reverse)
    (hsize : config.objectSize ≠ 0)
    (hwrap : 2 ^ w ≤ config.objectCount.toNat * config.objectSize.toNat) :
    ¬ Serves config pool := by
  intro hserves
  have hpos : 0 < config.objectSize.toNat := Nat.pos_of_ne_zero (mt SizeT.toNat_eq_zero.mp hsize)
  have hbuffer := config.bufferSize.isLt
  have hpow : 0 < 2 ^ w := Nat.two_pow_pos w
  -- the last slot whose offset does not wrap
  obtain ⟨i, hi⟩ : ∃ i, i = (2 ^ w - 1) / config.objectSize.toNat := ⟨_, rfl⟩
  have hoffset : i * config.objectSize.toNat ≤ 2 ^ w - 1 := by
    rw [hi]
    exact Nat.div_mul_le_self _ _
  have hnext : 2 ^ w ≤ i * config.objectSize.toNat + config.objectSize.toNat := by
    have hlt := Nat.lt_mul_div_succ (2 ^ w - 1) hpos
    rw [← hi, Nat.mul_comm, Nat.succ_mul] at hlt
    omega
  have hlt : i < config.objectCount.toNat := by
    by_contra hge
    have hle := Nat.mul_le_mul_right config.objectSize.toNat (Nat.le_of_not_lt hge)
    omega
  have hindex : (BitVec.ofNat w i).toNat = i := by
    rw [BitVec.toNat_ofNat, Nat.mod_eq_of_lt (Nat.lt_trans hlt config.objectCount.isLt)]
  have hslot : staticPoolSlot config i = config.buffer + i * config.objectSize.toNat := by
    rw [staticPoolSlot, SizeT.toNat_mul_of_lt (by rw [hindex]; omega), hindex]
  have hmem : staticPoolSlot config i ∈ freeAddresses pool := by
    rw [freeAddresses_of_filled h]
    exact List.mem_map_of_mem (List.mem_range.mpr hlt)
  have hinside := (hserves.inside _ hmem).2
  rw [hslot] at hinside
  omega

/-- A filled pool of an accepted configuration serves it exactly when its
    objects fit and, if there are several, have at least one byte. -/
theorem serves_iff_of_filled
    (h : StackHolds config.objectCount pool.freeStack (objectSlots config).reverse)
    (haccepted : ¬ config.bufferSize < config.objectSize * config.objectCount)
    (hcount : config.objectCount ≠ 0) :
    Serves config pool ↔
      config.objectCount.toNat * config.objectSize.toNat ≤ config.bufferSize.toNat ∧
        (config.objectSize ≠ 0 ∨ config.objectCount.toNat = 1) := by
  by_cases hsize : config.objectSize = 0
  · have hproduct : config.objectCount.toNat * config.objectSize.toNat = 0 := by
      rw [SizeT.toNat_eq_zero.mpr hsize, Nat.mul_zero]
    rw [serves_iff_of_size_zero h hcount hsize, hproduct]
    simp [hsize]
  · constructor
    · intro hserves
      refine ⟨?_, .inl hsize⟩
      by_contra hover
      refine not_serves_of_wrap h hsize ?_ hserves
      -- an exact product above the buffer size would have been rejected
      by_contra hexact
      refine haccepted ?_
      rw [BitVec.lt_def, SizeT.toNat_mul_of_lt (by rw [Nat.mul_comm]; omega), Nat.mul_comm]
      omega
    · rintro ⟨hfit, -⟩
      exact serves_of_fit h hfit hsize

/-- A pool without objects is served exactly when its stack is empty. -/
theorem serves_iff_of_count_zero (hcount : config.objectCount = 0) :
    Serves config pool ↔ pool.freeStack.stackTop = 0 := by
  have hzero : config.objectCount.toNat = 0 := SizeT.toNat_eq_zero.mpr hcount
  constructor
  · intro hserves
    have hlength := hserves.count
    rw [freeAddresses, Block.length_slice, hzero] at hlength
    exact SizeT.toNat_eq_zero.mp hlength
  · intro htop
    have hnil : freeAddresses pool = [] := by
      simp [freeAddresses, htop, Block.slice]
    constructor
    · simp [hnil, hzero]
    · simp [hnil]
    · simp [hnil]

end Serves

/-- **WHICH CONFIGURATIONS ARE SERVED**: from any pool struct, an accepted init
    leaves a pool that serves its configuration exactly when the configuration
    is servable. -/
theorem static_pool_init_serves_iff (pool : StaticPool w) (config : StaticPoolConfig w)
    (hstack : config.objectCount.toNat ≤ config.allocationStack.size) :
    ∃ code pool', staticPoolInit pool config = some (code, pool') ∧
      ((code = .errNone → Serves config pool') ↔ Servable config pool) := by
  by_cases hrejected : config.bufferSize < config.objectSize * config.objectCount
  · refine ⟨.errInvalidArg, pool, ?_, ?_⟩
    · simp only [staticPoolInit, staticPoolValidateConfig, if_pos hrejected]
    · simp [Servable, hrejected]
  · by_cases hcount : config.objectCount = 0
    · refine ⟨.errNone, ⟨config, pool.freeStack⟩, staticPoolInit_zero pool hcount, ?_⟩
      have hserves : Serves config ⟨config, pool.freeStack⟩ ↔ pool.freeStack.stackTop = 0 :=
        serves_iff_of_count_zero hcount
      simp [Servable, hcount, hserves]
    · obtain ⟨pool', hinit, -, hfilled⟩ := init_holds pool hrejected hcount hstack
      refine ⟨.errNone, pool', hinit, ?_⟩
      rw [Servable, ← serves_iff_of_filled hfilled hrejected hcount]
      simp only [hrejected, hcount, true_implies, false_or, false_and, ne_eq, not_false_eq_true,
        true_and]

/-- A pool struct that no init has touched. -/
def zeroPool : StaticPool 64 :=
  ⟨⟨⟨0, fun _ => 0⟩, 0, 0, 0, 0⟩, ⟨⟨0, fun _ => 0⟩, 0, 0⟩⟩

/-- Two objects of half of the address space each, in a buffer of eight bytes. -/
def hugeObjectsConfig : StaticPoolConfig 64 where
  allocationStack := ⟨2, fun _ => 0⟩
  buffer := 4096
  bufferSize := 8
  objectSize := 0x8000000000000000
  objectCount := 2

/-- The condition at these two objects. -/
theorem static_pool_init_serves_iff_huge_objects :
    ∃ code pool', staticPoolInit zeroPool hugeObjectsConfig = some (code, pool') ∧
      ((code = .errNone → Serves hugeObjectsConfig pool')
        ↔ Servable hugeObjectsConfig zeroPool) :=
  static_pool_init_serves_iff zeroPool hugeObjectsConfig
    (Nat.le_refl 2 : hugeObjectsConfig.objectCount.toNat ≤ hugeObjectsConfig.allocationStack.size)

/-- **OBJECTS THAT DO NOT FIT**: their product wraps to zero, init accepts it, and
    the second slot is outside the buffer. -/
theorem static_pool_init_accepts_huge_objects :
    ∃ pool', staticPoolInit zeroPool hugeObjectsConfig = some (.errNone, pool') ∧
      ¬ Serves hugeObjectsConfig pool' := by
  have haccepted : ¬ hugeObjectsConfig.bufferSize
      < hugeObjectsConfig.objectSize * hugeObjectsConfig.objectCount := by
    decide +kernel
  have hcount : hugeObjectsConfig.objectCount ≠ 0 := by decide +kernel
  have hstack : hugeObjectsConfig.objectCount.toNat ≤ hugeObjectsConfig.allocationStack.size :=
    Nat.le_refl 2
  obtain ⟨pool', hinit, -, hfilled⟩ := init_holds zeroPool haccepted hcount hstack
  exact ⟨pool', hinit, not_serves_of_wrap hfilled (by decide +kernel) (by decide +kernel)⟩

/-! ## Pointers that are not slots -/

/-- One call with any pointer. -/
def poolStep : Step (StaticPool w) StaticPoolOp (ErrorCode × Option Nat)
  | pool, .allocate =>
      (staticPoolAllocate pool).map fun (code, stored, pool) => ((code, stored), pool)
  | pool, .deallocate object =>
      (staticPoolDeallocate pool object).map fun (code, stored, pool) => ((code, stored), pool)

/-- The call handles pointers that are not slots as documented: it does not hand
    one out, and it rejects one that it is given and leaves the free stack. -/
def RejectsForeign (config : StaticPoolConfig w) (pool : StaticPool w) (op : StaticPoolOp) :
    Prop :=
  ∃ code stored pool', poolStep pool op = some ((code, stored), pool') ∧
    match op with
    | .allocate => ∀ object, code = .errNone → stored = some object → object ∈ objectSlots config
    | .deallocate object => object ≠ null → object ∉ objectSlots config →
        code = .errOutOfBounds ∧ pool'.freeStack = pool.freeStack

/-- The call gives back a pointer of a kind, or `NULL`, if any. -/
def GivesBack (kind : Nat → Prop) : StaticPoolOp → Prop
  | .allocate => True
  | .deallocate object => object = null ∨ kind object

/-- A pool with only pointers of a kind on its free stack. -/
def StacksOnly (config : StaticPoolConfig w) (kind : Nat → Prop) (pool : StaticPool w) : Prop :=
  ∃ free, StackHolds config.objectCount pool.freeStack free ∧ ∀ object ∈ free, kind object

section Calls

variable {config : StaticPoolConfig w} {kind : Nat → Prop} {pool pool' : StaticPool w}
  {op : StaticPoolOp} {object : Nat} {code : ErrorCode} {stored : Option Nat}

theorem poolStep_null (pool : StaticPool w) :
    poolStep pool (.deallocate null) = some ((.errOutOfBounds, none), pool) := by
  rw [poolStep, staticPoolDeallocate, if_pos rfl]
  rfl

/-- `NULL` is the only pointer that a deallocate rejects. -/
theorem poolStep_deallocate_code (hobject : object ≠ null)
    (h : poolStep pool (.deallocate object) = some ((code, stored), pool')) : code = .errNone := by
  rw [poolStep, staticPoolDeallocate, if_neg hobject] at h
  cases hpush : ptrStackPush pool.freeStack object with
  | none =>
      rw [hpush] at h
      cases h
  | some result =>
      rw [hpush] at h
      exact (congrArg Prod.fst (Prod.mk.inj (Option.some.inj h)).1).symm

/-- A call that handles foreign pointers as documented is given none. -/
theorem RejectsForeign.givesBack (h : RejectsForeign config pool op) :
    GivesBack (· ∈ objectSlots config) op := by
  cases op with
  | allocate => exact trivial
  | deallocate object =>
      by_contra hforeign
      obtain ⟨hobject, hslot⟩ := not_or.mp hforeign
      obtain ⟨code, stored, pool', hstep, hrejects⟩ := h
      obtain ⟨hcode, -⟩ := hrejects hobject hslot
      rw [poolStep_deallocate_code hobject hstep] at hcode
      exact nomatch hcode

/-- An allocate finds the stack empty, or hands out a pointer of the kind. -/
theorem StacksOnly.allocate (h : StacksOnly config kind pool) :
    ∃ code stored pool', poolStep pool .allocate = some ((code, stored), pool') ∧
      (∀ object, stored = some object → kind object) ∧ StacksOnly config kind pool' := by
  obtain ⟨free, hstack, hkind⟩ := h
  cases free with
  | nil =>
      refine ⟨.errNoMem, none, pool, ?_, (fun _ hstored => nomatch hstored), [], hstack, hkind⟩
      rw [poolStep, allocate_empty hstack]
      rfl
  | cons object free =>
      obtain ⟨hobject, hfree⟩ := List.forall_mem_cons.mp hkind
      obtain ⟨freeStack, halloc, hstack'⟩ := allocate_holds hstack
      refine ⟨.errNone, some object, { pool with freeStack := freeStack }, ?_, ?_, free, hstack',
        hfree⟩
      · rw [poolStep, halloc]
        rfl
      · rintro _ ⟨⟩
        exact hobject

/-- A deallocate of any pointer but `NULL` returns no error. -/
theorem StacksOnly.deallocate (h : StacksOnly config kind pool) (hobject : object ≠ null)
    (hkind : kind object) :
    ∃ pool', staticPoolDeallocate pool object = some (.errNone, some null, pool') ∧
      StacksOnly config kind pool' := by
  obtain ⟨free, hstack, hfree⟩ := h
  rcases Nat.lt_or_eq_of_le hstack.length_le with hroom | hfull
  · obtain ⟨freeStack, hdealloc, hstack'⟩ := deallocate_holds hstack hobject hroom
    exact ⟨_, hdealloc, object :: free, hstack', List.forall_mem_cons.mpr ⟨hkind, hfree⟩⟩
  · exact ⟨pool, deallocate_full hstack hobject hfull, free, hstack, hfree⟩

/-- **ONE CALL** keeps the kind, if it is given none but `NULL` of another. -/
theorem StacksOnly.step (h : StacksOnly config kind pool) (hop : GivesBack kind op) :
    ∃ r pool', poolStep pool op = some (r, pool') ∧ StacksOnly config kind pool' := by
  cases op with
  | allocate =>
      obtain ⟨code, stored, pool', hstep, -, h'⟩ := h.allocate
      exact ⟨_, pool', hstep, h'⟩
  | deallocate object =>
      by_cases hobject : object = null
      · subst hobject
        exact ⟨_, pool, poolStep_null pool, h⟩
      · obtain ⟨pool', hdealloc, h'⟩ := h.deallocate hobject (hop.resolve_left hobject)
        refine ⟨(.errNone, some null), pool', ?_, h'⟩
        rw [poolStep, hdealloc]
        rfl

/-- Any pointer at all may be given back. -/
theorem givesBack_any (op : StaticPoolOp) : GivesBack (fun _ => True) op := by
  cases op with
  | allocate => exact trivial
  | deallocate object => exact .inr trivial

/-- With slots only on the stack, a call that is given no foreign pointer
    handles them as documented. -/
theorem StacksOnly.rejects (h : StacksOnly config (· ∈ objectSlots config) pool)
    (hop : GivesBack (· ∈ objectSlots config) op) : RejectsForeign config pool op := by
  cases op with
  | allocate =>
      obtain ⟨code, stored, pool', hstep, hslot, -⟩ := h.allocate
      exact ⟨code, stored, pool', hstep, fun object _ hstored => hslot object hstored⟩
  | deallocate object =>
      obtain ⟨⟨code, stored⟩, pool', hstep, -⟩ := h.step hop
      refine ⟨code, stored, pool', hstep, ?_⟩
      intro hobject hforeign
      exact absurd (hop.resolve_left hobject) hforeign

/-! ### A pool without objects -/

/-- An allocate from an empty stack of any size changes nothing. -/
theorem poolStep_allocate_of_empty (htop : pool.freeStack.stackTop = 0) :
    poolStep pool .allocate = some ((.errNoMem, none), pool) := by
  have hempty : ptrStackGetRemainingCount pool.freeStack = pool.freeStack.maxItemCount := by
    rw [ptrStackGetRemainingCount, htop]
    exact BitVec.sub_zero _
  simp only [poolStep, staticPoolAllocate, ptrStackPop, if_pos hempty, Option.bind_eq_bind,
    Option.bind_some]
  rfl

/-- An allocate from a stack that is not empty hands out what it loads. -/
theorem poolStep_allocate_of_nonempty (htop : pool.freeStack.stackTop ≠ 0)
    (h : poolStep pool .allocate = some ((code, stored), pool')) :
    code = .errNone ∧ ∃ object, stored = some object := by
  have hempty : ¬ ptrStackGetRemainingCount pool.freeStack = pool.freeStack.maxItemCount := by
    intro heq
    rw [ptrStackGetRemainingCount] at heq
    exact htop ((BitVec.sub_right_inj _).mp (heq.trans (BitVec.sub_zero _).symm))
  cases hload : pool.freeStack.stack.load (pool.freeStack.stackTop - 1).toNat with
  | none =>
      simp only [poolStep, staticPoolAllocate, ptrStackPop, if_neg hempty, hload,
        Option.bind_eq_bind, Option.bind_none, Option.map_none] at h
      cases h
  | some object =>
      simp only [poolStep, staticPoolAllocate, ptrStackPop, if_neg hempty, hload,
        Option.bind_eq_bind, Option.bind_some, if_pos, Option.map_some] at h
      obtain ⟨hcode, hstored⟩ := Prod.mk.inj (Prod.mk.inj (Option.some.inj h)).1
      exact ⟨hcode.symm, object, hstored.symm⟩

theorem objectSlots_of_zero (hcount : config.objectCount = 0) : objectSlots config = [] := by
  simp [objectSlots, hcount]

theorem eq_null_of_zero (hcount : config.objectCount = 0)
    (hop : GivesBack (· ∈ objectSlots config) (.deallocate object)) : object = null := by
  refine hop.resolve_right ?_
  rw [objectSlots_of_zero hcount]
  exact List.not_mem_nil

/-- Without objects, a call that is given no foreign pointer and allocates only
    from an empty stack changes nothing, and handles them as documented. -/
theorem rejects_of_zero (hcount : config.objectCount = 0)
    (hop : GivesBack (· ∈ objectSlots config) op)
    (hempty : pool.freeStack.stackTop = 0 ∨ op ≠ .allocate) :
    RejectsForeign config pool op ∧
      ∀ r pool', poolStep pool op = some (r, pool') → pool' = pool := by
  cases op with
  | allocate =>
      have hstep := poolStep_allocate_of_empty (hempty.resolve_right fun hne => hne rfl)
      refine ⟨⟨_, _, _, hstep, fun _ hcode => nomatch hcode⟩, ?_⟩
      intro r pool' h
      rw [hstep] at h
      exact (Prod.mk.inj (Option.some.inj h)).2.symm
  | deallocate object =>
      obtain rfl := eq_null_of_zero hcount hop
      refine ⟨⟨_, _, _, poolStep_null pool, fun hne => absurd rfl hne⟩, ?_⟩
      intro r pool' h
      rw [poolStep_null] at h
      exact (Prod.mk.inj (Option.some.inj h)).2.symm

/-- Without objects but with pointers on the stack, only a call that does not
    allocate handles foreign pointers as documented, and it changes nothing. -/
theorem RejectsForeign.idle (h : RejectsForeign config pool op) (hcount : config.objectCount = 0)
    (htop : pool.freeStack.stackTop ≠ 0) :
    ∃ r pool', poolStep pool op = some (r, pool') ∧ pool' = pool ∧ op ≠ .allocate := by
  have hop := h.givesBack
  cases op with
  | allocate =>
      obtain ⟨code, stored, pool', hstep, hslot⟩ := h
      obtain ⟨hcode, object, hstored⟩ := poolStep_allocate_of_nonempty htop hstep
      have hmem := hslot object hcode hstored
      rw [objectSlots_of_zero hcount] at hmem
      exact absurd hmem List.not_mem_nil
  | deallocate object =>
      obtain rfl := eq_null_of_zero hcount hop
      exact ⟨_, pool, poolStep_null pool, rfl, fun heq => nomatch heq⟩

end Calls

section Runs

variable {config : StaticPoolConfig w} {pool : StaticPool w}

/-- With slots on the stack at the start, foreign pointers are handled as
    documented exactly when none is given back. -/
theorem admits_iff_of_filled
    (h : StackHolds config.objectCount pool.freeStack (objectSlots config).reverse)
    (ops : List StaticPoolOp) :
    Admits poolStep (RejectsForeign config) pool ops ↔
      ∀ op ∈ ops, GivesBack (· ∈ objectSlots config) op := by
  constructor
  · refine forall_of_admits (I := StacksOnly config fun _ => True) ?_ ops pool
      ⟨_, h, fun _ _ => trivial⟩
    intro pool op h hrejects
    obtain ⟨r, pool', hstep, h'⟩ := h.step (givesBack_any op)
    exact ⟨r, pool', hstep, h', hrejects.givesBack⟩
  · refine admits_of_forall_mem (I := StacksOnly config (· ∈ objectSlots config)) ?_ ops pool
      ⟨_, h, fun _ hobject => List.mem_reverse.mp hobject⟩
    intro pool op h hop
    refine ⟨h.rejects hop, ?_⟩
    intro r₁ pool₁ h₁
    obtain ⟨r, pool', hstep, h'⟩ := h.step hop
    rw [hstep] at h₁
    obtain ⟨-, rfl⟩ := Prod.mk.inj (Option.some.inj h₁)
    exact h'

/-- Without objects and pointers on the stack, the same holds. -/
theorem admits_iff_of_empty (hcount : config.objectCount = 0)
    (htop : pool.freeStack.stackTop = 0) (ops : List StaticPoolOp) :
    Admits poolStep (RejectsForeign config) pool ops ↔
      ∀ op ∈ ops, GivesBack (· ∈ objectSlots config) op := by
  constructor
  · refine forall_of_admits (I := fun pool => pool.freeStack.stackTop = 0) ?_ ops pool htop
    intro pool op htop hrejects
    have hop := hrejects.givesBack
    obtain ⟨-, hkeeps⟩ := rejects_of_zero hcount hop (.inl htop)
    obtain ⟨code, stored, pool', hstep, -⟩ := hrejects
    obtain rfl := hkeeps _ pool' hstep
    exact ⟨_, _, hstep, htop, hop⟩
  · refine admits_of_forall_mem (I := fun pool => pool.freeStack.stackTop = 0) ?_ ops pool htop
    intro pool op htop hop
    obtain ⟨hrejects, hkeeps⟩ := rejects_of_zero hcount hop (.inl htop)
    refine ⟨hrejects, ?_⟩
    intro r pool' hstep
    rw [hkeeps r pool' hstep]
    exact htop

/-- Without objects but with pointers on the stack, a run may not allocate either. -/
theorem admits_iff_of_leftover (hcount : config.objectCount = 0)
    (htop : pool.freeStack.stackTop ≠ 0) (ops : List StaticPoolOp) :
    Admits poolStep (RejectsForeign config) pool ops ↔
      ∀ op ∈ ops, GivesBack (· ∈ objectSlots config) op ∧ op ≠ .allocate := by
  constructor
  · refine forall_of_admits (I := fun pool => pool.freeStack.stackTop ≠ 0) ?_ ops pool htop
    intro pool op htop hrejects
    obtain ⟨r, pool', hstep, rfl, hop⟩ := hrejects.idle hcount htop
    exact ⟨r, pool', hstep, htop, hrejects.givesBack, hop⟩
  · refine admits_of_forall_mem (I := fun _ => True) ?_ ops pool trivial
    rintro pool op - ⟨hop, hne⟩
    exact ⟨(rejects_of_zero hcount hop (.inr hne)).1, fun _ _ _ => trivial⟩

/-- Without objects, an allocate has to find an empty stack besides. -/
theorem admits_iff_of_zero (hcount : config.objectCount = 0) (ops : List StaticPoolOp) :
    Admits poolStep (RejectsForeign config) pool ops ↔
      (∀ op ∈ ops, GivesBack (· ∈ objectSlots config) op) ∧
      (pool.freeStack.stackTop = 0 ∨ .allocate ∉ ops) := by
  by_cases htop : pool.freeStack.stackTop = 0
  · rw [admits_iff_of_empty hcount htop]
    exact (and_iff_left (.inl htop)).symm
  · rw [admits_iff_of_leftover hcount htop, or_iff_right htop]
    constructor
    · intro hops
      exact ⟨fun op hop => (hops op hop).1, fun hmem => (hops _ hmem).2 rfl⟩
    · rintro ⟨hops, hnone⟩ op hop
      refine ⟨hops op hop, ?_⟩
      rintro rfl
      exact hnone hop

end Runs

/-- **FOREIGN POINTERS**: whatever pointers a program gives back, a pointer that
    is not a slot is taken without an error; and the calls of a run handle such
    pointers as documented exactly when the run gives none back and, on a pool
    without objects, does not allocate what an earlier use left on the stack. -/
theorem static_pool_rejects_foreign_iff {config : StaticPoolConfig w} {pool pool₀ : StaticPool w}
    (hinit : staticPoolInit pool config = some (.errNone, pool₀))
    (hstack : config.objectCount.toNat ≤ config.allocationStack.size)
    (ops : List StaticPoolOp) :
    (config.objectCount ≠ 0 →
      ∃ responses pool₁, run poolStep pool₀ ops = some (responses, pool₁) ∧
        ∀ object, object ≠ null → object ∉ objectSlots config →
          ∃ pool₂, staticPoolDeallocate pool₁ object = some (.errNone, some null, pool₂)) ∧
    (Admits poolStep (RejectsForeign config) pool₀ ops ↔
      (∀ op ∈ ops, GivesBack (· ∈ objectSlots config) op) ∧
      (config.objectCount = 0 → pool.freeStack.stackTop = 0 ∨ .allocate ∉ ops)) := by
  by_cases hcount : config.objectCount = 0
  · rw [staticPoolInit_zero pool hcount] at hinit
    obtain ⟨-, rfl⟩ := Prod.mk.inj (Option.some.inj hinit)
    refine ⟨fun hne => absurd hcount hne, ?_⟩
    simp only [hcount, true_implies]
    exact admits_iff_of_zero hcount ops
  · have haccepted : ¬ config.bufferSize < config.objectSize * config.objectCount := by
      intro hrejected
      simp [staticPoolInit, staticPoolValidateConfig, if_pos hrejected] at hinit
    obtain ⟨pool', hinit', -, hfilled⟩ := init_holds pool haccepted hcount hstack
    obtain ⟨-, rfl⟩ := Prod.mk.inj (Option.some.inj (hinit'.symm.trans hinit))
    constructor
    · intro _
      -- any pointer at all may come to lie on the stack
      have hany : StacksOnly config (fun _ => True) pool' := ⟨_, hfilled, fun _ _ => trivial⟩
      have hstep : ∀ (pool : StaticPool w) op, StacksOnly config (fun _ => True) pool → True →
          ∃ r pool', poolStep pool op = some (r, pool') ∧
            StacksOnly config (fun _ => True) pool' :=
        fun _ op h _ => h.step (givesBack_any op)
      obtain ⟨responses, pool₁, hrun, h₁⟩ := run_invariant_of_admits hstep ops pool' hany
        (admits_of_forall (fun _ _ => trivial) ops pool')
      refine ⟨responses, pool₁, hrun, ?_⟩
      intro object hobject _
      obtain ⟨pool₂, hdealloc, -⟩ := h₁.deallocate hobject trivial
      exact ⟨pool₂, hdealloc⟩
    · rw [admits_iff_of_filled hfilled]
      exact (and_iff_left fun hzero => absurd hzero hcount).symm

/-- One object of four bytes at address 100. -/
def oneObjectConfig : StaticPoolConfig 8 where
  allocationStack := ⟨1, fun _ => 0⟩
  buffer := 100
  bufferSize := 4
  objectSize := 4
  objectCount := 1

/-- The pool of this object, with the object free. -/
def oneObjectPool : StaticPool 8 :=
  ⟨oneObjectConfig, ⟨⟨1, Function.update (fun _ => 0) 0 100⟩, 1, 1⟩⟩

/-- The condition for the object out, a foreign pointer back and an object out. -/
theorem static_pool_rejects_foreign_iff_one_object :
    Admits poolStep (RejectsForeign oneObjectConfig) oneObjectPool
        [.allocate, .deallocate 7, .allocate] ↔
      (∀ op ∈ [StaticPoolOp.allocate, .deallocate 7, .allocate],
        GivesBack (· ∈ objectSlots oneObjectConfig) op) ∧
      (oneObjectConfig.objectCount = 0 → oneObjectPool.freeStack.stackTop = 0 ∨
        .allocate ∉ [StaticPoolOp.allocate, .deallocate 7, .allocate]) := by
  have hinit : staticPoolInit oneObjectPool oneObjectConfig = some (.errNone, oneObjectPool) := rfl
  exact (static_pool_rejects_foreign_iff hinit (by decide) _).2

/-- **A FOREIGN POINTER HANDED OUT**: the pool takes address 7 for its slot, and the
    next allocate hands it out. -/
theorem static_pool_hands_out_foreign :
    ∃ pool', staticPoolInit oneObjectPool oneObjectConfig = some (.errNone, oneObjectPool) ∧
      run poolStep oneObjectPool [.allocate, .deallocate 7, .allocate]
        = some ([(.errNone, some 100), (.errNone, some null), (.errNone, some 7)], pool') ∧
      7 ∉ objectSlots oneObjectConfig ∧
      ¬ Admits poolStep (RejectsForeign oneObjectConfig) oneObjectPool
        [.allocate, .deallocate 7, .allocate] := by
  refine ⟨_, rfl, rfl, by decide, ?_⟩
  intro hadm
  obtain ⟨-, hrest⟩ := hadm
  obtain ⟨hrejects, -⟩ := hrest _ _ rfl
  obtain ⟨_, _, _, hstep, hreject⟩ := hrejects
  obtain ⟨hcode, -⟩ := hreject (by decide) (by decide)
  rw [hcode] at hstep
  exact nomatch hstep

end CembStaticPool
