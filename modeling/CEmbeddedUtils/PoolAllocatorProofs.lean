import CEmbeddedUtils.FamilyProofs
import CEmbeddedUtils.StaticPoolProofs

/-! # The pool interface — several pools behind one set of functions

    `i_pool_allocator.c` calls a pool through a table of function pointers and a
    context, and `static_pool_as_i_pool_allocator` makes such a table for a static
    pool.  A program has any number of pools, and of interfaces to them.

    The interfaces add nothing and mix nothing up: each pool sees the calls made
    through its own interfaces, in their order, and no other.  So what holds for one
    pool and its client holds for all of them together; and where their buffers do
    not overlap, neither do the objects that they hand out. -/

namespace CembPoolAllocator

open CembPtrStack CembStaticPool Transducer

variable {w : Nat} {κ μ ν ι : Type}

/-- `IPoolAllocator`.  The functions work on the memory that the context points
    into. -/
structure IPoolAllocator (w : Nat) (κ μ : Type) where
  context : κ
  allocate : κ → μ → Option (ErrorCode × Option Nat × μ)
  deallocate : κ → Nat → μ → Option (ErrorCode × Option Nat × μ)
  getAvailableCount : κ → μ → SizeT w

/-! ## The source -/

def iPoolAllocatorAllocate (interface : IPoolAllocator w κ μ) (memory : μ) :
    Option (ErrorCode × Option Nat × μ) :=
  interface.allocate interface.context memory

def iPoolAllocatorDeallocate (interface : IPoolAllocator w κ μ) (object : Nat) (memory : μ) :
    Option (ErrorCode × Option Nat × μ) :=
  interface.deallocate interface.context object memory

def iPoolAllocatorGetAvailableCount (interface : IPoolAllocator w κ μ) (memory : μ) : SizeT w :=
  interface.getAvailableCount interface.context memory

/-- The static pools of a program, by their addresses. -/
abbrev Pools (w : Nat) (ι : Type) := ι → StaticPool w

/-- The second component is what is stored through `interface`. -/
def staticPoolAsIPoolAllocator [DecidableEq ι] (pool : ι) :
    ErrorCode × IPoolAllocator w ι (Pools w ι) :=
  (.errNone,
    { context := pool
      allocate := fun context pools =>
        (staticPoolAllocate (pools context)).map fun (code, stored, pool') =>
          (code, stored, Function.update pools context pool')
      deallocate := fun context object pools =>
        (staticPoolDeallocate (pools context) object).map fun (code, stored, pool') =>
          (code, stored, Function.update pools context pool')
      getAvailableCount := fun context pools => staticPoolGetAvailableCount (pools context) })

/-! ## Calls through interfaces -/

/-- A call of one of the three functions. -/
inductive IPoolCall where
  | allocate
  | deallocate (object : Nat)
  | getAvailableCount

/-- What it answers, and what is stored through `object_ptr`, if anything. -/
inductive IPoolAnswer where
  | allocated (code : ErrorCode) (stored : Option Nat)
  | deallocated (code : ErrorCode) (stored : Option Nat)
  | available (count : Nat)
  deriving DecidableEq

/-- One call through one of the interfaces of a program. -/
def interfaceStep (interfaces : ν → IPoolAllocator w κ μ) : Step μ (ν × IPoolCall) IPoolAnswer
  | memory, (name, .allocate) =>
      (iPoolAllocatorAllocate (interfaces name) memory).map fun (code, stored, memory') =>
        (.allocated code stored, memory')
  | memory, (name, .deallocate object) =>
      (iPoolAllocatorDeallocate (interfaces name) object memory).map
        fun (code, stored, memory') => (.deallocated code stored, memory')
  | memory, (name, .getAvailableCount) =>
      some (.available (iPoolAllocatorGetAvailableCount (interfaces name) memory).toNat, memory)

/-- The same call of a pool's own functions. -/
def directStep : Step (StaticPool w) IPoolCall IPoolAnswer
  | pool, .allocate =>
      (staticPoolAllocate pool).map fun (code, stored, pool') => (.allocated code stored, pool')
  | pool, .deallocate object =>
      (staticPoolDeallocate pool object).map fun (code, stored, pool') =>
        (.deallocated code stored, pool')
  | pool, .getAvailableCount => some (.available (staticPoolGetAvailableCount pool).toNat, pool)

section Dispatch

variable [DecidableEq ι]

/-- The interfaces of a program, each made for one of its pools. -/
def interfacesOf (poolOf : ν → ι) (name : ν) : IPoolAllocator w ι (Pools w ι) :=
  (staticPoolAsIPoolAllocator (poolOf name)).2

/-- **A CALL THROUGH AN INTERFACE** is a call of its pool, among all pools. -/
theorem interfaceStep_eq (poolOf : ν → ι) (pools : Pools w ι) (call : ν × IPoolCall) :
    interfaceStep (interfacesOf poolOf) pools call
      = family (fun _ => directStep) pools (Prod.map poolOf id call) := by
  obtain ⟨name, call⟩ := call
  cases call with
  | allocate =>
      show ((staticPoolAllocate (pools (poolOf name))).map _).map _
        = ((staticPoolAllocate (pools (poolOf name))).map _).map _
      rw [Option.map_map, Option.map_map]
      rfl
  | deallocate object =>
      show ((staticPoolDeallocate (pools (poolOf name)) object).map _).map _
        = ((staticPoolDeallocate (pools (poolOf name)) object).map _).map _
      rw [Option.map_map, Option.map_map]
      rfl
  | getAvailableCount =>
      show some (_, pools) = some (_, Function.update pools (poolOf name) (pools (poolOf name)))
      rw [Function.update_eq_self]
      rfl

/-- **THE INTERFACES MIX NOTHING UP.**  Calls are made through interfaces to any
    pools, in any order.  Where the calls for every pool alone are defined, so are all
    of them; and those for a pool get the answers, and leave it in the state, that its
    own functions would give if it were the only pool. -/
theorem dispatches_to_members (poolOf : ν → ι) (pools : Pools w ι) (calls : List (ν × IPoolCall))
    (hpools : ∀ i, ∃ answers pool', run directStep (pools i)
      (ofMember i (calls.map (Prod.map poolOf id))) = some (answers, pool')) :
    ∃ answers pools', run (interfaceStep (interfacesOf poolOf)) pools calls
        = some (answers, pools') ∧
      ∀ i, run directStep (pools i) (ofMember i (calls.map (Prod.map poolOf id)))
        = some (answersTo i (calls.map (Prod.map poolOf id)) answers, pools' i) := by
  rw [run_map_of_step (Prod.map poolOf id) (interfaceStep_eq poolOf)]
  obtain ⟨answers, pools', hrun⟩ := exists_run_family hpools
  exact ⟨answers, pools', hrun, run_family_member hrun⟩

end Dispatch

/-! ## A pool is a free list -/

/-- What a pool of `capacity` slots does with its free pointers, whatever pointers it
    is given back: the last one given back is the next one handed out. -/
def freeList (capacity : Nat) : Spec (List Nat) IPoolCall IPoolAnswer
  | [], .allocate => (.allocated .errNoMem none, [])
  | object :: free, .allocate => (.allocated .errNone (some object), free)
  | free, .deallocate object =>
      if object = null then (.deallocated .errOutOfBounds none, free)
      else (.deallocated .errNone (some null),
        if free.length = capacity then free else object :: free)
  | free, .getAvailableCount => (.available free.length, free)

/-- The pool has these pointers on its free stack, the next one to hand out first. -/
structure HasFree (config : StaticPoolConfig w) (pool : StaticPool w) (free : List Nat) :
    Prop where
  objectCount : pool.config.objectCount = config.objectCount
  stack : StackHolds config.objectCount pool.freeStack free

/-- The available count is that of the free pointers. -/
theorem HasFree.available {config : StaticPoolConfig w} {pool : StaticPool w} {free : List Nat}
    (h : HasFree config pool free) : (staticPoolGetAvailableCount pool).toNat = free.length := by
  have hle := h.stack.length_le
  have hremaining := h.stack.remaining
  rw [staticPoolGetAvailableCount, h.objectCount, SizeT.toNat_sub_of_le (by omega), hremaining]
  omega

/-- **ONE CALL** does what the free list does. -/
theorem hasFree_simulates (config : StaticPoolConfig w) :
    Simulates directStep (freeList config.objectCount.toNat) (HasFree config) := by
  intro pool free call h
  cases call with
  | allocate =>
      cases free with
      | nil =>
          refine ⟨pool, ?_, h⟩
          rw [directStep, allocate_empty h.stack]
          rfl
      | cons object free =>
          obtain ⟨freeStack, hallocate, hstack⟩ := allocate_holds h.stack
          refine ⟨{ pool with freeStack := freeStack }, ?_, h.objectCount, hstack⟩
          rw [directStep, hallocate]
          rfl
  | deallocate object =>
      rw [freeList]
      by_cases hnull : object = null
      · simp only [if_pos hnull]
        refine ⟨pool, ?_, h⟩
        rw [directStep, staticPoolDeallocate, if_pos hnull]
        rfl
      · simp only [if_neg hnull]
        rcases Nat.lt_or_eq_of_le h.stack.length_le with hroom | hfull
        · obtain ⟨freeStack, hdeallocate, hstack⟩ := deallocate_holds h.stack hnull hroom
          simp only [if_neg (Nat.ne_of_lt hroom)]
          refine ⟨{ pool with freeStack := freeStack }, ?_, h.objectCount, hstack⟩
          rw [directStep, hdeallocate]
          rfl
        · -- a full stack does not take the pointer
          simp only [if_pos hfull]
          refine ⟨pool, ?_, h⟩
          rw [directStep, deallocate_full h.stack hnull hfull]
          rfl
  | getAvailableCount =>
      rw [freeList]
      refine ⟨pool, ?_, h⟩
      rw [directStep, h.available]

/-- An accepted init of at least one object makes all slots free, the last one on top. -/
theorem init_hasFree {pool pool₀ : StaticPool w} {config : StaticPoolConfig w}
    (hinit : staticPoolInit pool config = some (.errNone, pool₀)) (hcount : config.objectCount ≠ 0)
    (hstack : config.objectCount.toNat ≤ config.allocationStack.size) :
    HasFree config pool₀ (objectSlots config).reverse := by
  have haccepted : ¬ config.bufferSize < config.objectSize * config.objectCount := by
    intro hrejected
    simp [staticPoolInit, staticPoolValidateConfig, if_pos hrejected] at hinit
  obtain ⟨pool', hinit', hconfig, h⟩ := init_holds pool haccepted hcount hstack
  obtain ⟨-, rfl⟩ := Prod.mk.inj (Option.some.inj (hinit'.symm.trans hinit))
  exact ⟨by rw [hconfig], h⟩

/-- **EVERY POOL IS A FREE LIST OF ITS OWN.**  Whatever is given back through the
    interfaces of several pools, pointers given back twice, to the wrong pool or of no
    pool included, all calls are defined, and each pool answers its calls as the free
    list of its slots does: it hands out what has last been given back to it, takes
    everything but `NULL` while there is room, and counts what it has. -/
theorem i_pool_allocators_are_free_lists [DecidableEq ι] (poolOf : ν → ι)
    {prior pools : Pools w ι} {configs : ι → StaticPoolConfig w}
    (hinit : ∀ i, staticPoolInit (prior i) (configs i) = some (.errNone, pools i))
    (hcount : ∀ i, (configs i).objectCount ≠ 0)
    (hstack : ∀ i, (configs i).objectCount.toNat ≤ (configs i).allocationStack.size)
    (calls : List (ν × IPoolCall)) :
    ∃ answers pools', run (interfaceStep (interfacesOf poolOf)) pools calls
        = some (answers, pools') ∧
      ∀ i, answersTo i (calls.map (Prod.map poolOf id)) answers
        = (runSpec (freeList (configs i).objectCount.toNat) (objectSlots (configs i)).reverse
            (ofMember i (calls.map (Prod.map poolOf id)))).1 := by
  have hmember := fun i => run_refines (hasFree_simulates (configs i))
    (ofMember i (calls.map (Prod.map poolOf id))) _ _ (init_hasFree (hinit i) (hcount i) (hstack i))
  obtain ⟨answers, pools', hrun, hmembers⟩ := dispatches_to_members poolOf pools calls
    fun i => ⟨_, _, (hmember i).choose_spec.1⟩
  refine ⟨answers, pools', hrun, ?_⟩
  intro i
  obtain ⟨pool', hmemberRun, -⟩ := hmember i
  exact (Prod.mk.inj (Option.some.inj ((hmembers i).symm.trans hmemberRun))).1

/-- Two pools of two objects of four bytes, at addresses 100 and 200. -/
def twoPoolsConfig (second : Bool) : StaticPoolConfig 8 :=
  { twoObjectsConfig with buffer := if second then 200 else 100 }

/-- A pool that has not been set up. -/
def blankPool : StaticPool 8 := ⟨twoObjectsConfig, ⟨⟨0, fun _ => 0⟩, 0, 0⟩⟩

/-- The two pools after their inits. -/
def twoPools : Pools 8 Bool := fun second =>
  ((staticPoolInit blankPool (twoPoolsConfig second)).map Prod.snd).getD blankPool

/-- The first interface is to the first pool, all others are to the second. -/
def firstAndOthers (name : Nat) : Bool := decide (0 < name)

/-- A pointer of the second pool is given back to the first. -/
def mixedUpCalls : List (Nat × IPoolCall) :=
  [(0, .allocate), (1, .allocate), (0, .deallocate 204), (2, .getAvailableCount),
    (0, .allocate)]

/-- The first pool hands out what it has been given by mistake. -/
theorem i_pool_allocators_are_free_lists_two_pools :
    ∃ answers pools', run (interfaceStep (interfacesOf firstAndOthers)) twoPools mixedUpCalls
        = some (answers, pools') ∧
      answersTo false (mixedUpCalls.map (Prod.map firstAndOthers id)) answers
        = [.allocated .errNone (some 104), .deallocated .errNone (some null),
            .allocated .errNone (some 204)] := by
  have hinit : ∀ i, staticPoolInit blankPool (twoPoolsConfig i) = some (.errNone, twoPools i) := by
    intro i
    cases i <;> rfl
  obtain ⟨answers, pools', hrun, hanswers⟩ := i_pool_allocators_are_free_lists firstAndOthers
    hinit (by decide) (by decide) mixedUpCalls
  exact ⟨answers, pools', hrun, hanswers false⟩

/-! ## Clients of several pools -/

/-- The pools of a program, with the pointers held from each. -/
structure PoolsClient (w : Nat) (ι : Type) where
  pools : Pools w ι
  held : ι → List Nat

/-- A pool of the program with the pointers held from it. -/
def PoolsClient.member (client : PoolsClient w ι) (i : ι) : PoolClient w :=
  ⟨client.pools i, client.held i⟩

/-- The pointers `p` and `q` to objects of these sizes do not overlap. -/
def Apart (sizeP sizeQ p q : Nat) : Prop := p + sizeP ≤ q ∨ q + sizeQ ≤ p

instance (sizeP sizeQ p q : Nat) : Decidable (Apart sizeP sizeQ p q) :=
  inferInstanceAs (Decidable (_ ∨ _))

section Clients

variable [DecidableEq ι]

/-- One call through an interface; the client keeps what it is given, and forgets what
    it gives back. -/
def interfaceClientStep (poolOf : ν → ι) :
    Step (PoolsClient w ι) (ν × StaticPoolOp) (ErrorCode × Option Nat)
  | client, (name, .allocate) =>
      (iPoolAllocatorAllocate (interfacesOf poolOf name) client.pools).map
        fun (code, stored, pools) => ((code, stored),
          { pools := pools
            held := Function.update client.held (poolOf name)
              (stored.toList ++ client.held (poolOf name)) })
  | client, (name, .deallocate object) =>
      (iPoolAllocatorDeallocate (interfacesOf poolOf name) object client.pools).map
        fun (code, stored, pools) => ((code, stored),
          { pools := pools
            held := Function.update client.held (poolOf name)
              ((client.held (poolOf name)).erase object) })

/-- The client gives back, through an interface, only what it holds from its pool, or
    `NULL`. -/
def GivesBackOwnThrough (poolOf : ν → ι) (client : PoolsClient w ι)
    (call : ν × StaticPoolOp) : Prop :=
  GivesBackOwn (client.member (poolOf call.1)) call.2

/-- A call through an interface is a call of the member's client. -/
theorem interfaceClientStep_of_member (poolOf : ν → ι) (client : PoolsClient w ι) {name : ν}
    {op : StaticPoolOp} {r : ErrorCode × Option Nat} {member : PoolClient w}
    (h : clientStep (client.member (poolOf name)) op = some (r, member)) :
    interfaceClientStep poolOf client (name, op) = some (r,
      { pools := Function.update client.pools (poolOf name) member.pool
        held := Function.update client.held (poolOf name) member.held }) := by
  cases op with
  | allocate =>
      obtain ⟨⟨code, stored, pool⟩, hpool, heq⟩ := Option.map_eq_some_iff.mp h
      obtain ⟨rfl, rfl⟩ := Prod.mk.inj heq
      have hallocate : staticPoolAllocate (client.pools (poolOf name))
          = some (code, stored, pool) := hpool
      show ((staticPoolAllocate (client.pools (poolOf name))).map _).map _ = _
      rw [hallocate]
      rfl
  | deallocate object =>
      obtain ⟨⟨code, stored, pool⟩, hpool, heq⟩ := Option.map_eq_some_iff.mp h
      obtain ⟨rfl, rfl⟩ := Prod.mk.inj heq
      have hdeallocate : staticPoolDeallocate (client.pools (poolOf name)) object
          = some (code, stored, pool) := hpool
      show ((staticPoolDeallocate (client.pools (poolOf name)) object).map _).map _ = _
      rw [hdeallocate]
      rfl

/-- Every pool and what is held from it account for its slots. -/
def AllAccounted (configs : ι → StaticPoolConfig w) (client : PoolsClient w ι) : Prop :=
  ∀ i, ∃ free, Accounted (configs i) (client.member i) free

/-- **ONE CALL** through an interface keeps the accounts of all pools. -/
theorem allAccounted_step {configs : ι → StaticPoolConfig w}
    (hbuffer : ∀ i, (configs i).buffer ≠ null) (poolOf : ν → ι) (client : PoolsClient w ι)
    (call : ν × StaticPoolOp) (h : AllAccounted configs client)
    (hown : GivesBackOwnThrough poolOf client call) :
    ∃ r client', interfaceClientStep poolOf client call = some (r, client') ∧
      AllAccounted configs client' := by
  obtain ⟨name, op⟩ := call
  obtain ⟨r, member, hstep, haccounted⟩ :=
    accounted_step (hbuffer (poolOf name)) _ op (h (poolOf name)) hown
  refine ⟨r, _, interfaceClientStep_of_member poolOf client hstep, ?_⟩
  intro i
  by_cases hi : i = poolOf name
  · subst hi
    simp only [PoolsClient.member, Function.update_self]
    exact haccounted
  · simp only [PoolsClient.member, Function.update_of_ne hi]
    exact h i

end Clients

/-- The pointers held from one pool do not overlap. -/
theorem held_apart {config : StaticPoolConfig w} {client : PoolClient w} {free : List Nat}
    (h : Accounted config client free) (hsize : 1 ≤ config.objectSize.toNat) :
    client.held.Pairwise (Apart config.objectSize.toNat config.objectSize.toNat) := by
  have hnodup : (free ++ client.held).Nodup :=
    h.slots.nodup_iff.mpr (nodup_slotAddresses hsize)
  refine List.Pairwise.imp_of_mem ?_ (List.nodup_append.mp hnodup).2.1
  intro p q hp hq hne
  exact slots_disjoint (h.held_slot hp) (h.held_slot hq) hne

/-- **SEVERAL POOLS, ONE MEMORY.**  Pools over buffers that do not overlap are called
    through their interfaces, in any order, by clients that give back to each pool what
    they hold from it.  Then all calls are defined; every pointer held is to an object
    inside the buffer of its pool; no two objects held, from one pool or from two,
    overlap; and each pool counts as available what is not held from it. -/
theorem i_pool_allocators_hand_out_disjoint_slots [DecidableEq ι] (poolOf : ν → ι)
    (prior : Pools w ι) (configs : ι → StaticPoolConfig w)
    (hstack : ∀ i, (configs i).allocationStack.size = (configs i).objectCount.toNat)
    (hbuffer : ∀ i, (configs i).buffer ≠ null)
    (hcount : ∀ i, 1 ≤ (configs i).objectCount.toNat)
    (hsize : ∀ i, 1 ≤ (configs i).objectSize.toNat)
    (hfit : ∀ i, (configs i).objectCount.toNat * (configs i).objectSize.toNat
      ≤ (configs i).bufferSize.toNat)
    (hbuffers : ∀ i j, i ≠ j → Apart (configs i).bufferSize.toNat (configs j).bufferSize.toNat
      (configs i).buffer (configs j).buffer) :
    ∃ pools : Pools w ι, (∀ i, staticPoolInit (prior i) (configs i) = some (.errNone, pools i)) ∧
      ∀ calls, Admits (interfaceClientStep poolOf) (GivesBackOwnThrough poolOf)
          ⟨pools, fun _ => []⟩ calls →
        ∃ responses client, run (interfaceClientStep poolOf) ⟨pools, fun _ => []⟩ calls
            = some (responses, client) ∧
          (∀ i, ∀ p ∈ client.held i, (configs i).buffer ≤ p ∧
            p + (configs i).objectSize.toNat
              ≤ (configs i).buffer + (configs i).bufferSize.toNat) ∧
          (∀ i, (client.held i).Pairwise
            (Apart (configs i).objectSize.toNat (configs i).objectSize.toNat)) ∧
          (∀ i j, i ≠ j → ∀ p ∈ client.held i, ∀ q ∈ client.held j,
            Apart (configs i).objectSize.toNat (configs j).objectSize.toNat p q) ∧
          ∀ i, (staticPoolGetAvailableCount (client.pools i)).toNat + (client.held i).length
            = (configs i).objectCount.toNat := by
  have hinit := fun i => init_accounted (prior i) (hstack i) (hcount i) (hfit i)
  choose pools hpools haccounted using hinit
  refine ⟨pools, hpools, ?_⟩
  intro calls hadm
  have hstart : AllAccounted configs ⟨pools, fun _ => []⟩ := fun i => ⟨_, haccounted i⟩
  obtain ⟨responses, client, hrun, h⟩ := run_invariant_of_admits
    (allAccounted_step hbuffer poolOf) calls _ hstart hadm
  have hinside : ∀ i, ∀ p ∈ client.held i, (configs i).buffer ≤ p ∧
      p + (configs i).objectSize.toNat ≤ (configs i).buffer + (configs i).bufferSize.toNat := by
    intro i p hp
    obtain ⟨free, hfree⟩ := h i
    exact slot_in_buffer (hfit i) (hfree.held_slot hp)
  refine ⟨responses, client, hrun, hinside, ?_, ?_, ?_⟩
  · intro i
    obtain ⟨free, hfree⟩ := h i
    exact held_apart hfree (hsize i)
  · -- objects of two pools are apart because the buffers are
    intro i j hij p hp q hq
    obtain ⟨hlowP, hhighP⟩ := hinside i p hp
    obtain ⟨hlowQ, hhighQ⟩ := hinside j q hq
    rcases hbuffers i j hij with hbefore | hafter
    · exact .inl (by omega)
    · exact .inr (by omega)
  · intro i
    obtain ⟨free, hfree⟩ := h i
    have hlen := hfree.slots.length_eq
    rw [List.length_append, length_slotAddresses] at hlen
    have havailable : (staticPoolGetAvailableCount (client.pools i)).toNat = free.length :=
      hfree.available
    rw [havailable]
    exact hlen

/-- Two pools, the second with two interfaces: an object of each, and one given back
    through the other interface of its pool. -/
theorem i_pool_allocators_hand_out_disjoint_slots_two_pools :
    ∃ (responses : List (ErrorCode × Option Nat)) (client : PoolsClient 8 Bool),
      run (interfaceClientStep firstAndOthers) ⟨twoPools, fun _ => []⟩
        [(0, .allocate), (1, .allocate), (2, .deallocate 204), (1, .allocate)]
        = some (responses, client) ∧
      ∀ p ∈ client.held false, ∀ q ∈ client.held true, Apart 4 4 p q := by
  obtain ⟨pools, hpools, hruns⟩ := i_pool_allocators_hand_out_disjoint_slots
    firstAndOthers (fun _ => blankPool) twoPoolsConfig
    (by decide) (by decide) (by decide) (by decide) (by decide) (by decide)
  obtain rfl : pools = twoPools := by
    funext second
    rw [twoPools, hpools]
    rfl
  obtain ⟨responses, client, hrun, -, -, hapart, -⟩ :=
    hruns [(0, .allocate), (1, .allocate), (2, .deallocate 204), (1, .allocate)]
      (Admits.cons trivial rfl (Admits.cons trivial rfl
        (Admits.cons (Or.inr (by decide)) rfl (Admits.cons trivial rfl trivial))))
  exact ⟨responses, client, hrun, hapart false true Bool.false_ne_true⟩

end CembPoolAllocator
