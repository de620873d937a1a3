import CEmbeddedUtils.PtrStackProofs
import CEmbeddedUtils.TransducerProofs
import Mathlib.Data.List.Perm.Basic
import Mathlib.Data.List.Nodup

/-! # The static pool — no slot lost, no slot handed out twice

    `static_pool.c` cuts a buffer into `object_count` slots and keeps the
    addresses of the free ones on a pointer stack.  It has no record of the
    slots that are out: who holds what is the client's business.  So the
    invariant joins the pool to its client.  The free addresses and the held
    ones together are always the slot addresses, each once, as long as the
    client gives back what it holds; everything else follows from that.

    An address is a natural number and `NULL` is 0.  An address inside the
    buffer is the buffer's address plus a byte offset; the offset is computed
    in `size_t`. -/

namespace CembStaticPool

open CembPtrStack Memory Transducer

variable {w : Nat}

/-- `NULL`. -/
def null : Nat := 0

/-- `StaticPoolConfig`. -/
structure StaticPoolConfig (w : Nat) where
  allocationStack : Block Nat
  buffer : Nat
  bufferSize : SizeT w
  objectSize : SizeT w
  objectCount : SizeT w

/-- `StaticPool`. -/
structure StaticPool (w : Nat) where
  config : StaticPoolConfig w
  freeStack : PtrStack w Nat

/-! ## The source -/

def staticPoolValidateConfig (config : StaticPoolConfig w) : ErrorCode :=
  if config.bufferSize < config.objectSize * config.objectCount then .errInvalidArg
  else .errNone

/-- `&buffer[idx * object_size]`. -/
def staticPoolSlot (config : StaticPoolConfig w) (idx : Nat) : Nat :=
  config.buffer + (BitVec.ofNat w idx * config.objectSize).toNat

/-- The `for` loop of `static_pool_init`, up to index `count`. -/
def staticPoolFill (config : StaticPoolConfig w) (freeStack : PtrStack w Nat)
    (count : Nat) : Option (PtrStack w Nat) :=
  (List.range count).foldlM
    (fun freeStack idx => (ptrStackPush freeStack (staticPoolSlot config idx)).map Prod.snd)
    freeStack

/-- The result of `ptr_stack_init` is not looked at. -/
def staticPoolInit (pool : StaticPool w) (config : StaticPoolConfig w) :
    Option (ErrorCode × StaticPool w) :=
  match staticPoolValidateConfig config with
  | .errNone => do
      let (_, freeStack) :=
        ptrStackInit pool.freeStack config.allocationStack config.objectCount
      let freeStack ← staticPoolFill config freeStack config.objectCount.toNat
      some (.errNone, { config := config, freeStack := freeStack })
  | ret => some (ret, pool)

def staticPoolDeinit (pool : StaticPool w) : StaticPool w :=
  { pool with freeStack := ptrStackDeinit pool.freeStack }

/-- The second component is what is stored through `object_pointer`, if
    anything. -/
def staticPoolAllocate (pool : StaticPool w) :
    Option (ErrorCode × Option Nat × StaticPool w) := do
  let (ret, tempToken, freeStack) ← ptrStackPop pool.freeStack
  if ret = .errNone then
    some (.errNone, tempToken, { pool with freeStack := freeStack })
  else
    some (.errNoMem, none, { pool with freeStack := freeStack })

/-- `object` is the pointer before the call; the second component is what is
    stored in its place, if anything. -/
def staticPoolDeallocate (pool : StaticPool w) (object : Nat) :
    Option (ErrorCode × Option Nat × StaticPool w) :=
  if object = null then some (.errOutOfBounds, none, pool)
  else do
    let (_, freeStack) ← ptrStackPush pool.freeStack object
    some (.errNone, some null, { pool with freeStack := freeStack })

def staticPoolGetAvailableCount (pool : StaticPool w) : SizeT w :=
  pool.config.objectCount - ptrStackGetRemainingCount pool.freeStack

/-! ## The pool and its client -/

/-- The contents of the free stack. -/
def freeAddresses (pool : StaticPool w) : List Nat :=
  pool.freeStack.stack.slice 0 pool.freeStack.stackTop.toNat

/-- The slot addresses `buffer + i * object_size`. -/
def slotAddresses (config : StaticPoolConfig w) : List Nat :=
  (List.range config.objectCount.toNat).map fun i =>
    config.buffer + i * config.objectSize.toNat

/-- The addresses that the loop of init computes, whose offsets may wrap. -/
def objectSlots (config : StaticPoolConfig w) : List Nat :=
  (List.range config.objectCount.toNat).map (staticPoolSlot config)

/-- A pool with the pointers its client holds. -/
structure PoolClient (w : Nat) where
  pool : StaticPool w
  held : List Nat

inductive StaticPoolOp where
  | allocate
  | deallocate (object : Nat)

/-- One call; the client keeps what it is given and forgets what it gives back. -/
def clientStep : Step (PoolClient w) StaticPoolOp (ErrorCode × Option Nat)
  | client, .allocate =>
      (staticPoolAllocate client.pool).map fun (code, stored, pool) =>
        ((code, stored), { pool := pool, held := stored.toList ++ client.held })
  | client, .deallocate object =>
      (staticPoolDeallocate client.pool object).map fun (code, stored, pool) =>
        ((code, stored), { pool := pool, held := client.held.erase object })

/-- The client gives back only what it holds, or `NULL`. -/
def GivesBackOwn (client : PoolClient w) : StaticPoolOp → Prop
  | .allocate => True
  | .deallocate object => object = null ∨ object ∈ client.held

/-! ## Slots -/

section Slots

variable {config : StaticPoolConfig w}

/-- Without overflow the loop's address is the slot address. -/
theorem staticPoolSlot_eq
    (hfit : config.objectCount.toNat * config.objectSize.toNat ≤ config.bufferSize.toNat)
    {idx : Nat} (hidx : idx < config.objectCount.toNat) :
    staticPoolSlot config idx = config.buffer + idx * config.objectSize.toNat := by
  have hlt : idx < 2 ^ w := Nat.lt_trans hidx config.objectCount.isLt
  have hnat : (BitVec.ofNat w idx).toNat = idx := by
    rw [BitVec.toNat_ofNat, Nat.mod_eq_of_lt hlt]
  have hle : idx * config.objectSize.toNat
      ≤ config.objectCount.toNat * config.objectSize.toNat :=
    Nat.mul_le_mul_right _ (Nat.le_of_lt hidx)
  have hmul : (BitVec.ofNat w idx * config.objectSize).toNat
      = idx * config.objectSize.toNat := by
    rw [SizeT.toNat_mul_of_lt, hnat]
    rw [hnat]
    exact Nat.lt_of_le_of_lt (Nat.le_trans hle hfit) config.bufferSize.isLt
  rw [staticPoolSlot, hmul]

/-- Objects that fit are where init puts them. -/
theorem objectSlots_eq
    (hfit : config.objectCount.toNat * config.objectSize.toNat ≤ config.bufferSize.toNat) :
    objectSlots config = slotAddresses config := by
  rw [objectSlots, slotAddresses]
  apply List.map_congr_left
  intro i hi
  exact staticPoolSlot_eq hfit (List.mem_range.mp hi)

theorem mem_slotAddresses {p : Nat} :
    p ∈ slotAddresses config ↔
      ∃ i, i < config.objectCount.toNat ∧ config.buffer + i * config.objectSize.toNat = p := by
  simp only [slotAddresses, List.mem_map, List.mem_range]

theorem length_slotAddresses :
    (slotAddresses config).length = config.objectCount.toNat := by
  simp [slotAddresses]

/-- Different slot indices have disjoint byte ranges. -/
theorem slot_disjoint {i j : Nat} (hij : i < j) :
    config.buffer + i * config.objectSize.toNat + config.objectSize.toNat
      ≤ config.buffer + j * config.objectSize.toNat := by
  have h : (i + 1) * config.objectSize.toNat ≤ j * config.objectSize.toNat :=
    Nat.mul_le_mul_right _ hij
  rw [Nat.succ_mul] at h
  omega

/-- Different slot addresses have disjoint byte ranges. -/
theorem slots_disjoint {p q : Nat} (hp : p ∈ slotAddresses config)
    (hq : q ∈ slotAddresses config) (hne : p ≠ q) :
    p + config.objectSize.toNat ≤ q ∨ q + config.objectSize.toNat ≤ p := by
  obtain ⟨i, -, rfl⟩ := mem_slotAddresses.mp hp
  obtain ⟨j, -, rfl⟩ := mem_slotAddresses.mp hq
  rcases Nat.lt_trichotomy i j with hij | rfl | hji
  · exact Or.inl (slot_disjoint hij)
  · exact absurd rfl hne
  · exact Or.inr (slot_disjoint hji)

/-- A slot lies inside the buffer. -/
theorem slot_in_buffer
    (hfit : config.objectCount.toNat * config.objectSize.toNat ≤ config.bufferSize.toNat)
    {p : Nat} (hp : p ∈ slotAddresses config) :
    config.buffer ≤ p ∧
      p + config.objectSize.toNat ≤ config.buffer + config.bufferSize.toNat := by
  obtain ⟨i, hi, rfl⟩ := mem_slotAddresses.mp hp
  have hlast : config.buffer + i * config.objectSize.toNat + config.objectSize.toNat
      ≤ config.buffer + config.objectCount.toNat * config.objectSize.toNat :=
    slot_disjoint hi
  omega

/-- No slot address occurs twice. -/
theorem nodup_slotAddresses (hsize : 1 ≤ config.objectSize.toNat) :
    (slotAddresses config).Nodup := by
  refine List.Nodup.map_on ?_ List.nodup_range
  intro i _ j _ heq
  rcases Nat.lt_trichotomy i j with hij | hij | hji
  · have hdisj : config.buffer + i * config.objectSize.toNat + config.objectSize.toNat
        ≤ config.buffer + j * config.objectSize.toNat := slot_disjoint hij
    omega
  · exact hij
  · have hdisj : config.buffer + j * config.objectSize.toNat + config.objectSize.toNat
        ≤ config.buffer + i * config.objectSize.toNat := slot_disjoint hji
    omega

end Slots

/-! ## The free stack -/

section FreeStack

variable {config : StaticPoolConfig w} {pool : StaticPool w} {capacity : SizeT w}
  {free : List Nat} {object : Nat}

theorem freeAddresses_eq (h : StackHolds capacity pool.freeStack free) :
    freeAddresses pool = free.reverse := by
  rw [freeAddresses, h.top, h.cells]

/-- The loop of init pushes the slots in order, also where their offsets wrap. -/
theorem fill_holds {freeStack : PtrStack w Nat} (h : StackHolds config.objectCount freeStack []) :
    ∀ count, count ≤ config.objectCount.toNat →
      ∃ freeStack', staticPoolFill config freeStack count = some freeStack' ∧
        StackHolds config.objectCount freeStack'
          ((List.range count).map (staticPoolSlot config)).reverse := by
  intro count
  induction count with
  | zero => intro _; exact ⟨freeStack, rfl, h⟩
  | succ count ih =>
      intro hle
      obtain ⟨stack₁, hfill, h₁⟩ := ih (Nat.le_of_succ_le hle)
      have hroom : ((List.range count).map (staticPoolSlot config)).reverse.length
          < config.objectCount.toNat := by
        simpa using Nat.lt_of_succ_le hle
      obtain ⟨stack₂, hpush, h₂⟩ := h₁.push hroom (staticPoolSlot config count)
      refine ⟨stack₂, ?_, ?_⟩
      · have hfill' : (List.range count).foldlM
            (fun freeStack idx =>
              (ptrStackPush freeStack (staticPoolSlot config idx)).map Prod.snd) freeStack
            = some stack₁ := hfill
        rw [staticPoolFill, List.range_succ, List.foldlM_append, hfill']
        simp only [Option.bind_eq_bind, Option.bind_some, List.foldlM_cons, hpush,
          Option.map_some, List.foldlM_nil]
        rfl
      · rw [List.range_succ, List.map_append, List.reverse_append, List.map_singleton,
          List.reverse_singleton, List.singleton_append]
        exact h₂

/-- An accepted init of at least one object leaves the slots on the free stack. -/
theorem init_holds (pool : StaticPool w)
    (haccepted : ¬ config.bufferSize < config.objectSize * config.objectCount)
    (hcount : config.objectCount ≠ 0)
    (hstack : config.objectCount.toNat ≤ config.allocationStack.size) :
    ∃ pool', staticPoolInit pool config = some (.errNone, pool') ∧ pool'.config = config ∧
      StackHolds config.objectCount pool'.freeStack (objectSlots config).reverse := by
  obtain ⟨freeStack, hfill, h⟩ :=
    fill_holds (stackHolds_init hstack) config.objectCount.toNat (Nat.le_refl _)
  refine ⟨⟨config, freeStack⟩, ?_, rfl, h⟩
  simp only [staticPoolInit, staticPoolValidateConfig, if_neg haccepted, ptrStackInit,
    if_neg hcount, hfill, Option.bind_eq_bind, Option.bind_some]

/-- An allocate from a pool with free pointers hands out the top one. -/
theorem allocate_holds (h : StackHolds capacity pool.freeStack (object :: free)) :
    ∃ freeStack, staticPoolAllocate pool
        = some (.errNone, some object, { pool with freeStack := freeStack }) ∧
      StackHolds capacity freeStack free := by
  obtain ⟨freeStack, hpop, hstack⟩ := h.pop
  refine ⟨freeStack, ?_, hstack⟩
  simp only [staticPoolAllocate, hpop, Option.bind_eq_bind, Option.bind_some, if_pos]

/-- An allocate from a pool without free pointers changes nothing. -/
theorem allocate_empty (h : StackHolds capacity pool.freeStack []) :
    staticPoolAllocate pool = some (.errNoMem, none, pool) := by
  simp only [staticPoolAllocate, h.pop_empty, Option.bind_eq_bind, Option.bind_some]
  rfl

/-- A deallocate puts the pointer on top, whatever it points to. -/
theorem deallocate_holds (h : StackHolds capacity pool.freeStack free) (hobject : object ≠ null)
    (hroom : free.length < capacity.toNat) :
    ∃ freeStack, staticPoolDeallocate pool object
        = some (.errNone, some null, { pool with freeStack := freeStack }) ∧
      StackHolds capacity freeStack (object :: free) := by
  obtain ⟨freeStack, hpush, hstack⟩ := h.push hroom object
  refine ⟨freeStack, ?_, hstack⟩
  simp only [staticPoolDeallocate, if_neg hobject, hpush, Option.bind_eq_bind, Option.bind_some]

/-- A full stack does not take the pointer, and the result is not looked at. -/
theorem deallocate_full (h : StackHolds capacity pool.freeStack free) (hobject : object ≠ null)
    (hfull : free.length = capacity.toNat) :
    staticPoolDeallocate pool object = some (.errNone, some null, pool) := by
  simp only [staticPoolDeallocate, if_neg hobject, h.push_full hfull, Option.bind_eq_bind,
    Option.bind_some]

end FreeStack

/-! ## The invariant -/

/-- The free addresses and the held ones are the slot addresses. -/
structure Accounted (config : StaticPoolConfig w) (client : PoolClient w)
    (free : List Nat) : Prop where
  objectCount : client.pool.config.objectCount = config.objectCount
  stack : StackHolds config.objectCount client.pool.freeStack free
  slots : (free ++ client.held).Perm (slotAddresses config)

/-- An accepted init leaves every slot free. -/
theorem init_accounted {config : StaticPoolConfig w} (pool : StaticPool w)
    (hstack : config.allocationStack.size = config.objectCount.toNat)
    (hcount : 1 ≤ config.objectCount.toNat)
    (hfit : config.objectCount.toNat * config.objectSize.toNat ≤ config.bufferSize.toNat) :
    ∃ pool₀, staticPoolInit pool config = some (.errNone, pool₀) ∧
      Accounted config ⟨pool₀, []⟩ (slotAddresses config).reverse := by
  have hprod : (config.objectSize * config.objectCount).toNat
      = config.objectCount.toNat * config.objectSize.toNat := by
    rw [SizeT.toNat_mul_of_lt, Nat.mul_comm]
    rw [Nat.mul_comm]
    exact Nat.lt_of_le_of_lt hfit config.bufferSize.isLt
  have haccepted : ¬ config.bufferSize < config.objectSize * config.objectCount := by
    rw [BitVec.lt_def, hprod]
    omega
  have hne : config.objectCount ≠ 0 := by
    rw [ne_eq, ← SizeT.toNat_eq_zero]
    omega
  obtain ⟨pool₀, hinit, hconfig, h⟩ := init_holds pool haccepted hne (Nat.le_of_eq hstack.symm)
  rw [objectSlots_eq hfit] at h
  refine ⟨pool₀, hinit, by rw [hconfig], h, ?_⟩
  rw [List.append_nil]
  exact List.reverse_perm _

section Steps

variable {config : StaticPoolConfig w} {client : PoolClient w} {free : List Nat}

/-- An allocate from a pool with free slots hands out the top one. -/
theorem Accounted.allocate {object : Nat}
    (h : Accounted config client (object :: free)) :
    ∃ pool', staticPoolAllocate client.pool = some (.errNone, some object, pool') ∧
      Accounted config ⟨pool', object :: client.held⟩ free := by
  obtain ⟨freeStack, halloc, hstack⟩ := allocate_holds h.stack
  exact ⟨_, halloc, h.objectCount, hstack, List.perm_middle.trans h.slots⟩

/-- A slot given back is free again. -/
theorem Accounted.deallocate {object : Nat} (h : Accounted config client free)
    (hobject : object ≠ null) (hheld : object ∈ client.held) :
    ∃ pool', staticPoolDeallocate client.pool object = some (.errNone, some null, pool') ∧
      Accounted config ⟨pool', client.held.erase object⟩ (object :: free) := by
  have hlen : free.length + client.held.length = config.objectCount.toNat := by
    rw [← List.length_append, h.slots.length_eq, length_slotAddresses]
  have hpos : 0 < client.held.length := List.length_pos_of_mem hheld
  obtain ⟨freeStack, hdealloc, hstack⟩ := deallocate_holds h.stack hobject (by omega)
  have hcons : (client.held).Perm (object :: client.held.erase object) :=
    List.perm_cons_erase hheld
  have hperm : (object :: free ++ client.held.erase object).Perm (free ++ client.held) :=
    List.perm_middle.symm.trans (hcons.symm.append_left free)
  exact ⟨_, hdealloc, h.objectCount, hstack, hperm.trans h.slots⟩

/-- The pointers a client holds are slots, none of them free. -/
theorem Accounted.held_slot (h : Accounted config client free) {p : Nat}
    (hp : p ∈ client.held) : p ∈ slotAddresses config :=
  h.slots.mem_iff.mp (List.mem_append_right _ hp)

/-- The number of available slots is that of the free addresses. -/
theorem Accounted.available (h : Accounted config client free) :
    (staticPoolGetAvailableCount client.pool).toNat = free.length := by
  have hle := h.stack.length_le
  have hrem := h.stack.remaining
  rw [staticPoolGetAvailableCount, h.objectCount, SizeT.toNat_sub_of_le (by omega), hrem]
  omega

end Steps

/-- **ONE CALL KEEPS THE ACCOUNTS**, when the client gives back its own. -/
theorem accounted_step {config : StaticPoolConfig w} (hbuffer : config.buffer ≠ null)
    (client : PoolClient w) (op : StaticPoolOp)
    (h : ∃ free, Accounted config client free) (hown : GivesBackOwn client op) :
    ∃ r client', clientStep client op = some (r, client') ∧
      ∃ free, Accounted config client' free := by
  obtain ⟨free, h⟩ := h
  -- a held pointer is a slot, and the buffer does not start at NULL
  have hnull : ∀ p ∈ client.held, p ≠ null := by
    rintro p hp rfl
    obtain ⟨i, -, hi⟩ := mem_slotAddresses.mp (h.held_slot hp)
    exact hbuffer (Nat.eq_zero_of_add_eq_zero_right hi)
  cases op with
  | allocate =>
      cases free with
      | nil =>
          refine ⟨(.errNoMem, none), client, ?_, [], h⟩
          rw [clientStep, allocate_empty h.stack]
          rfl
      | cons object free =>
          obtain ⟨pool', halloc, h'⟩ := h.allocate
          refine ⟨(.errNone, some object), _, ?_, free, h'⟩
          rw [clientStep, halloc]
          rfl
  | deallocate object =>
      by_cases hobject : object = null
      · -- the source refuses NULL, and the client loses nothing by the call
        have hkeep : client.held.erase object = client.held :=
          List.erase_of_not_mem fun hmem => hnull object hmem hobject
        refine ⟨(.errOutOfBounds, none), client, ?_, free, h⟩
        rw [clientStep, staticPoolDeallocate, if_pos hobject, Option.map_some, hkeep]
      · obtain ⟨pool', hdealloc, h'⟩ :=
          h.deallocate hobject (hown.resolve_left hobject)
        refine ⟨(.errNone, some null), _, ?_, object :: free, h'⟩
        rw [clientStep, hdealloc]
        rfl

/-- **THE POOL NEVER HANDS OUT OVERLAPPING OR FOREIGN MEMORY.**  After any calls
    of a client that gives back only what it holds, the free addresses and the
    held ones are the slot addresses; an allocate hands out a slot inside the
    buffer and apart from every held one, or fails exactly when all are held
    and then changes nothing; and the available count is what is not held. -/
theorem static_pool_hands_out_disjoint_slots {config : StaticPoolConfig w}
    (pool : StaticPool w)
    (hstack : config.allocationStack.size = config.objectCount.toNat)
    (hbuffer : config.buffer ≠ null) (hcount : 1 ≤ config.objectCount.toNat)
    (hsize : 1 ≤ config.objectSize.toNat)
    (hfit : config.objectCount.toNat * config.objectSize.toNat ≤ config.bufferSize.toNat) :
    ∃ pool₀, staticPoolInit pool config = some (.errNone, pool₀) ∧
      ∀ ops, Admits clientStep GivesBackOwn ⟨pool₀, []⟩ ops →
        ∃ responses client, run clientStep ⟨pool₀, []⟩ ops = some (responses, client) ∧
          (freeAddresses client.pool ++ client.held).Perm (slotAddresses config) ∧
          (∃ code stored pool', staticPoolAllocate client.pool = some (code, stored, pool') ∧
            (code = .errNoMem ↔ client.held.length = config.objectCount.toNat) ∧
            (code = .errNoMem → stored = none ∧ pool' = client.pool) ∧
            (code ≠ .errNoMem → code = .errNone ∧ ∃ p, stored = some p ∧
              config.buffer ≤ p ∧
              p + config.objectSize.toNat ≤ config.buffer + config.bufferSize.toNat ∧
              ∀ q ∈ client.held, p + config.objectSize.toNat ≤ q ∨
                q + config.objectSize.toNat ≤ p)) ∧
          (staticPoolGetAvailableCount client.pool).toNat + client.held.length
            = config.objectCount.toNat := by
  obtain ⟨pool₀, hinit, h₀⟩ := init_accounted pool hstack hcount hfit
  refine ⟨pool₀, hinit, ?_⟩
  intro ops hadm
  obtain ⟨responses, client, hrun, free, h⟩ := run_invariant_of_admits
    (accounted_step hbuffer) ops ⟨pool₀, []⟩ ⟨_, h₀⟩ hadm
  have hlen : free.length + client.held.length = config.objectCount.toNat := by
    rw [← List.length_append, h.slots.length_eq, length_slotAddresses]
  refine ⟨responses, client, hrun, ?_, ?_, by rw [h.available, hlen]⟩
  · rw [freeAddresses_eq h.stack]
    exact ((List.reverse_perm free).append_right _).trans h.slots
  · cases free with
    | nil =>
        have hall : client.held.length = config.objectCount.toNat := by simpa using hlen
        exact ⟨.errNoMem, none, client.pool, allocate_empty h.stack,
          ⟨fun _ => hall, fun _ => rfl⟩, fun _ => ⟨rfl, rfl⟩, fun hne => absurd rfl hne⟩
    | cons p free =>
        obtain ⟨pool', halloc, -⟩ := h.allocate
        have hslot : p ∈ slotAddresses config :=
          h.slots.mem_iff.mp (List.mem_append_left _ List.mem_cons_self)
        have hnot : p ∉ client.held := by
          have hnodup : (p :: free ++ client.held).Nodup :=
            h.slots.nodup_iff.mpr (nodup_slotAddresses hsize)
          intro hp
          exact (List.nodup_cons.mp hnodup).1 (List.mem_append_right _ hp)
        obtain ⟨hlow, hhigh⟩ := slot_in_buffer hfit hslot
        refine ⟨.errNone, some p, pool', halloc, ⟨nofun, ?_⟩, nofun, fun _ => ⟨rfl, p, rfl,
          hlow, hhigh, ?_⟩⟩
        · intro hall
          rw [List.length_cons] at hlen
          omega
        · intro q hq
          refine slots_disjoint hslot (h.held_slot hq) ?_
          rintro rfl
          exact hnot hq

/-- Two objects of four bytes at address 100. -/
def twoObjectsConfig : StaticPoolConfig 8 where
  allocationStack := ⟨2, fun _ => 0⟩
  buffer := 100
  bufferSize := 8
  objectSize := 4
  objectCount := 2

/-- The law at two objects of four bytes: both out, one back, one out again. -/
theorem static_pool_hands_out_disjoint_slots_two_objects :
    ∃ pool₀ responses client,
      staticPoolInit ⟨twoObjectsConfig, ⟨⟨0, fun _ => 0⟩, 0, 0⟩⟩ twoObjectsConfig
        = some (.errNone, pool₀) ∧
      run clientStep ⟨pool₀, []⟩ [.allocate, .allocate, .deallocate 104, .allocate]
        = some (responses, client) ∧
      (freeAddresses client.pool ++ client.held).Perm (slotAddresses twoObjectsConfig) := by
  obtain ⟨pool₀, hinit, hruns⟩ := static_pool_hands_out_disjoint_slots
    ⟨twoObjectsConfig, ⟨⟨0, fun _ => 0⟩, 0, 0⟩⟩
    (rfl : twoObjectsConfig.allocationStack.size = twoObjectsConfig.objectCount.toNat)
    (by decide) (by decide) (by decide) (by decide)
  obtain rfl := (Prod.mk.inj (Option.some.inj hinit)).2
  obtain ⟨responses, client, hrun, hperm, -⟩ :=
    hruns [.allocate, .allocate, .deallocate 104, .allocate]
      (Admits.cons trivial rfl (Admits.cons trivial rfl
        (Admits.cons (Or.inr (by decide)) rfl (Admits.cons trivial rfl trivial))))
  exact ⟨_, responses, client, hinit, hrun, hperm⟩

end CembStaticPool
