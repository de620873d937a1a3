import CEmbeddedUtils.ErrorCodes
import CEmbeddedUtils.LoopProofs
import CEmbeddedUtils.MemoryProofs
import CEmbeddedUtils.PairingProofs
import CEmbeddedUtils.PartialIterationProofs
import CEmbeddedUtils.SizeTProofs
import CEmbeddedUtils.TransducerProofs

/-! # The simple state machine — when entries and exits pair

    `simple_fsm.c` calls the handlers of the states: on entry, on event, on
    exit.  A handler answers with the state it requests, and the engine makes
    transitions until a state requests itself, a request is out of bounds, or
    there have been too many.  The handlers are arbitrary: each answer may
    depend on every call made before it.

    `started` should say whether a state is entered.  It does not after two
    kinds of errors, which `start` and `on_event` treat differently: `start`
    clears it on a timeout, with a state entered, and `on_event` leaves it set
    on a request out of bounds, with the state exited. -/

namespace CembSimpleFsm

open BoundedLoop Memory Pairing PartialIteration Transducer

variable {w : Nat} {ε : Type}

/-- The calls of handlers so far, each with its state. -/
abbrev Trace (w : Nat) (ε : Type) := List (Mark (SizeT w) ε)

/-- `SimpleFSMStateDelegates`: what each handler answers after the calls made
    before it. -/
structure SimpleFSMStateDelegates (w : Nat) (ε : Type) where
  onEntryHandler : Trace w ε → SizeT w
  onEventHandler : Trace w ε → ε → SizeT w
  onExitHandler : Trace w ε → SizeT w

/-- `SimpleFSMConfig`. -/
structure SimpleFSMConfig (w : Nat) (ε : Type) where
  stateDelegates : Block (SimpleFSMStateDelegates w ε)
  stateCount : SizeT w
  initialState : SizeT w
  maxTransitionCount : SizeT w

/-- `SimpleFSM`, with the calls of handlers made so far. -/
structure SimpleFSM (w : Nat) (ε : Type) where
  started : Bool
  config : SimpleFSMConfig w ε
  state : SizeT w
  trace : Trace w ε

/-! ## The source -/

/-- Call the on-entry handler of the current state. -/
def callOnEntry (fsm : SimpleFSM w ε) : Option (SizeT w × SimpleFSM w ε) := do
  let handler ← fsm.config.stateDelegates.load fsm.state.toNat
  some (handler.onEntryHandler fsm.trace, { fsm with trace := fsm.trace ++ [.entry fsm.state] })

/-- Call the on-event handler of the current state. -/
def callOnEvent (fsm : SimpleFSM w ε) (event : ε) : Option (SizeT w × SimpleFSM w ε) := do
  let handler ← fsm.config.stateDelegates.load fsm.state.toNat
  some (handler.onEventHandler fsm.trace event,
    { fsm with trace := fsm.trace ++ [.event fsm.state event] })

/-- Call the on-exit handler of the current state. -/
def callOnExit (fsm : SimpleFSM w ε) : Option (SizeT w × SimpleFSM w ε) := do
  let handler ← fsm.config.stateDelegates.load fsm.state.toNat
  some (handler.onExitHandler fsm.trace, { fsm with trace := fsm.trace ++ [.exit fsm.state] })

/-- The variables of the loop of `simple_fsm_resolve_transitions`. -/
structure Resolving (w : Nat) (ε : Type) where
  fsm : SimpleFSM w ε
  nextState : SizeT w
  transitionsCount : SizeT w
  isTransitionLimitReached : Bool

def resolveBody (s : Resolving w ε) :
    Option (Control (Resolving w ε) (ErrorCode × SimpleFSM w ε)) :=
  if s.nextState ≠ s.fsm.state ∧ s.isTransitionLimitReached = false then do
    let (onExitNextState, fsm) ← callOnExit s.fsm
    let nextRequestedState :=
      if onExitNextState = fsm.state then s.nextState else onExitNextState
    if nextRequestedState ≥ fsm.config.stateCount then some (.done (.errOutOfBounds, fsm))
    else do
      let (nextState, fsm) ← callOnEntry { fsm with state := nextRequestedState }
      let transitionsCount := s.transitionsCount + 1
      some (.again
        { fsm := fsm
          nextState := nextState
          transitionsCount := transitionsCount
          isTransitionLimitReached := transitionsCount ≥ fsm.config.maxTransitionCount })
  else
    some (.done (if s.isTransitionLimitReached then .errTimeout else .errNone, s.fsm))

def simpleFsmResolveTransitions (fsm : SimpleFSM w ε) (nextState : SizeT w) :
    Option (ErrorCode × SimpleFSM w ε) :=
  loop resolveBody (fsm.config.maxTransitionCount.toNat + 1)
    { fsm := fsm
      nextState := nextState
      transitionsCount := 0
      isTransitionLimitReached := false }

def simpleFsmValidateConfig (config : SimpleFSMConfig w ε) : ErrorCode :=
  if config.stateCount = 0 then .errInvalidArg
  else if config.maxTransitionCount = 0 then .errInvalidArg
  else if config.initialState ≥ config.stateCount then .errInvalidArg
  else .errNone

def simpleFsmGetCurrentState (fsm : SimpleFSM w ε) : SizeT w := fsm.state

def simpleFsmInit (fsm : SimpleFSM w ε) (config : SimpleFSMConfig w ε) :
    ErrorCode × SimpleFSM w ε :=
  match simpleFsmValidateConfig config with
  | .errNone =>
      (.errNone, { fsm with config := config, state := config.initialState, started := false })
  | ret => (ret, fsm)

def simpleFsmDeinit (fsm : SimpleFSM w ε) : SimpleFSM w ε :=
  { fsm with state := fsm.config.initialState, started := false }

def simpleFsmStart (fsm : SimpleFSM w ε) : Option (ErrorCode × SimpleFSM w ε) :=
  if fsm.started then some (.errNoop, fsm)
  else do
    let (nextState, fsm) ←
      callOnEntry { fsm with started := true, state := fsm.config.initialState }
    let (ret, fsm) ← simpleFsmResolveTransitions fsm nextState
    some (ret, if ret ≠ .errNone then { fsm with started := false } else fsm)

def simpleFsmForceStop (fsm : SimpleFSM w ε) : Option (ErrorCode × SimpleFSM w ε) :=
  if fsm.started then do
    let (nextState, fsm) ← callOnExit fsm
    some (if nextState = fsm.state then .errNone else .errIncomplete,
      { fsm with started := false })
  else some (.errNoop, fsm)

def simpleFsmOnEvent (fsm : SimpleFSM w ε) (event : ε) : Option (ErrorCode × SimpleFSM w ε) :=
  if fsm.started then do
    let (nextState, fsm) ← callOnEvent fsm event
    simpleFsmResolveTransitions fsm nextState
  else some (.errNotInitialised, fsm)

/-- The calls a program makes on a machine. -/
inductive FsmCall (ε : Type) where
  | start
  | onEvent (event : ε)
  | forceStop

/-- One call. -/
def simpleFsmStep : Step (SimpleFSM w ε) (FsmCall ε) ErrorCode
  | fsm, .start => simpleFsmStart fsm
  | fsm, .onEvent event => simpleFsmOnEvent fsm event
  | fsm, .forceStop => simpleFsmForceStop fsm

/-! ## The way of the handlers -/

/-- A state entered, the state requested in it, and the calls made so far. -/
structure Position (w : Nat) (ε : Type) where
  state : SizeT w
  request : SizeT w
  trace : Trace w ε

/-- The handlers of a state of the machine. -/
def SimpleFSMConfig.delegates (config : SimpleFSMConfig w ε) (state : SizeT w) :
    SimpleFSMStateDelegates w ε :=
  config.stateDelegates.cell state.toNat

/-- Where a transition goes: the exit handler may override the request. -/
def target (config : SimpleFSMConfig w ε) (p : Position w ε) : SizeT w :=
  let answer := (config.delegates p.state).onExitHandler p.trace
  if answer = p.state then p.request else answer

/-- A position in which the handlers ask for a state that there is not. -/
def OutOfBounds (config : SimpleFSMConfig w ε) (p : Position w ε) : Prop :=
  p.request ≠ p.state ∧ target config p ≥ config.stateCount

/-- The position after one transition; none when the state requests itself or
    the transition goes out of bounds. -/
def transition (config : SimpleFSMConfig w ε) (p : Position w ε) : Option (Position w ε) :=
  if p.request = p.state then none
  else if target config p ≥ config.stateCount then none
  else some
    { state := target config p
      request := (config.delegates (target config p)).onEntryHandler (p.trace ++ [.exit p.state])
      trace := p.trace ++ [.exit p.state] ++ [.entry (target config p)] }

/-- From `p` the handlers ask for as many transitions in a row as there may be. -/
def UsesUpTransitions (config : SimpleFSMConfig w ε) (p : Position w ε) : Prop :=
  ∃ q, iter (transition config) config.maxTransitionCount.toNat p = some q

/-- From `p` the handlers ask for a state that there is not, while transitions
    are left. -/
def AsksOutOfBounds (config : SimpleFSMConfig w ε) (p : Position w ε) : Prop :=
  ∃ n < config.maxTransitionCount.toNat, ∃ q,
    iter (transition config) n p = some q ∧ OutOfBounds config q

theorem transition_of_settled {config : SimpleFSMConfig w ε} {p : Position w ε}
    (h : p.request = p.state) : transition config p = none := if_pos h

theorem transition_of_outOfBounds {config : SimpleFSMConfig w ε} {p : Position w ε}
    (h : OutOfBounds config p) : transition config p = none := by
  rw [transition, if_neg h.1, if_pos h.2]

theorem transition_of_inBounds {config : SimpleFSMConfig w ε} {p : Position w ε}
    (h : p.request ≠ p.state) (hin : ¬ target config p ≥ config.stateCount) :
    transition config p = some
      { state := target config p
        request := (config.delegates (target config p)).onEntryHandler
          (p.trace ++ [.exit p.state])
        trace := p.trace ++ [.exit p.state] ++ [.entry (target config p)] } :=
  (if_neg h).trans (if_neg hin)

/-- A way that has settled does not use up the transitions. -/
theorem not_usesUp_of_stuck {config : SimpleFSMConfig w ε} {p q : Position w ε} {n : Nat}
    (hn : n < config.maxTransitionCount.toNat) (hq : iter (transition config) n p = some q)
    (hstuck : transition config q = none) : ¬ UsesUpTransitions config p := by
  rintro ⟨q', hq'⟩
  rw [iter_eq_none_of_stuck hq hstuck hn] at hq'
  exact nomatch hq'

/-- A way that has settled does not go out of bounds. -/
theorem not_asks_of_settled {config : SimpleFSMConfig w ε} {p q : Position w ε} {n : Nat}
    (hq : iter (transition config) n p = some q) (hsettled : q.request = q.state) :
    ¬ AsksOutOfBounds config p := by
  rintro ⟨m, -, q', hq', hout⟩
  have heq := stuck_unique hq (transition_of_settled hsettled) hq' (transition_of_outOfBounds hout)
  rw [heq] at hsettled
  exact hout.1 hsettled

/-- A way that uses up the transitions does not go out of bounds before. -/
theorem not_asks_of_usesUp {config : SimpleFSMConfig w ε} {p : Position w ε}
    (h : UsesUpTransitions config p) : ¬ AsksOutOfBounds config p := by
  rintro ⟨n, hn, q, hq, hout⟩
  exact not_usesUp_of_stuck hn hq (transition_of_outOfBounds hout) h

/-! ## Calls of handlers -/

/-- A state of the machine, whose handlers are there to be called. -/
structure InRange (fsm : SimpleFSM w ε) : Prop where
  block : fsm.config.stateDelegates.size = fsm.config.stateCount.toNat
  initial : fsm.config.initialState < fsm.config.stateCount
  limit : 0 < fsm.config.maxTransitionCount.toNat
  state : fsm.state < fsm.config.stateCount

/-- The calls so far pair up, and the current state is entered. -/
structure Inside (fsm : SimpleFSM w ε) : Prop where
  paired : Paired fsm.trace
  entered : entered fsm.trace = some fsm.state

/-- The calls so far pair up, and no state is entered. -/
structure Outside (fsm : SimpleFSM w ε) : Prop where
  paired : Paired fsm.trace
  entered : entered fsm.trace = none

section Calls

variable {fsm : SimpleFSM w ε}

theorem InRange.load (h : InRange fsm) :
    fsm.config.stateDelegates.load fsm.state.toNat = some (fsm.config.delegates fsm.state) :=
  Block.load_of_lt (by rw [h.block]; exact h.state)

theorem InRange.callOnEntry (h : InRange fsm) :
    callOnEntry fsm = some ((fsm.config.delegates fsm.state).onEntryHandler fsm.trace,
      { fsm with trace := fsm.trace ++ [.entry fsm.state] }) := by
  rw [CembSimpleFsm.callOnEntry, h.load]
  rfl

theorem InRange.callOnEvent (h : InRange fsm) (event : ε) :
    callOnEvent fsm event = some ((fsm.config.delegates fsm.state).onEventHandler fsm.trace event,
      { fsm with trace := fsm.trace ++ [.event fsm.state event] }) := by
  rw [CembSimpleFsm.callOnEvent, h.load]
  rfl

theorem InRange.callOnExit (h : InRange fsm) :
    callOnExit fsm = some ((fsm.config.delegates fsm.state).onExitHandler fsm.trace,
      { fsm with trace := fsm.trace ++ [.exit fsm.state] }) := by
  rw [CembSimpleFsm.callOnExit, h.load]
  rfl

/-- An entry from outside leads inside. -/
theorem Outside.entry (h : Outside fsm) :
    Inside { fsm with trace := fsm.trace ++ [.entry fsm.state] } :=
  ⟨h.paired.concat h.entered, entered_concat _ _⟩

/-- An event inside stays inside. -/
theorem Inside.event (h : Inside fsm) (event : ε) :
    Inside { fsm with trace := fsm.trace ++ [.event fsm.state event] } :=
  ⟨h.paired.concat h.entered, (entered_concat _ _).trans h.entered⟩

/-- An exit from inside leads outside. -/
theorem Inside.exit (h : Inside fsm) :
    Outside { fsm with trace := fsm.trace ++ [.exit fsm.state] } :=
  ⟨h.paired.concat h.entered, entered_concat _ _⟩

end Calls

/-! ## Resolving the transitions -/

/-- Where the handlers have led to. -/
def Resolving.position (s : Resolving w ε) : Position w ε :=
  ⟨s.fsm.state, s.nextState, s.fsm.trace⟩

/-- The state is exited before a transition goes out of bounds. -/
theorem resolveBody_outOfBounds {s : Resolving w ε} (h : InRange s.fsm)
    (hstay : s.nextState ≠ s.fsm.state ∧ s.isTransitionLimitReached = false)
    (hout : target s.fsm.config s.position ≥ s.fsm.config.stateCount) :
    resolveBody s = some (.done (.errOutOfBounds,
      { s.fsm with trace := s.fsm.trace ++ [.exit s.fsm.state] })) := by
  rw [resolveBody, if_pos hstay, h.callOnExit]
  exact if_pos hout

/-- One transition: the state is exited, and the target entered. -/
theorem resolveBody_transition {s : Resolving w ε} (h : InRange s.fsm)
    (hstay : s.nextState ≠ s.fsm.state ∧ s.isTransitionLimitReached = false)
    (hin : ¬ target s.fsm.config s.position ≥ s.fsm.config.stateCount) :
    ∃ s', resolveBody s = some (.again s') ∧ InRange s'.fsm ∧
      transition s.fsm.config s.position = some s'.position ∧
      s'.fsm.config = s.fsm.config ∧ s'.fsm.started = s.fsm.started ∧
      s'.transitionsCount = s.transitionsCount + 1 ∧
      s'.isTransitionLimitReached
        = decide (s'.transitionsCount ≥ s.fsm.config.maxTransitionCount) ∧
      s'.fsm.trace = s.fsm.trace ++ [.exit s.fsm.state] ++ [.entry s'.fsm.state] := by
  -- the machine between the two handlers
  let between : SimpleFSM w ε :=
    { s.fsm with
      state := target s.fsm.config s.position
      trace := s.fsm.trace ++ [.exit s.fsm.state] }
  have hbetween : InRange between := ⟨h.block, h.initial, h.limit, BitVec.not_le.mp hin⟩
  let s' : Resolving w ε :=
    { fsm := { between with trace := between.trace ++ [.entry between.state] }
      nextState := (between.config.delegates between.state).onEntryHandler between.trace
      transitionsCount := s.transitionsCount + 1
      isTransitionLimitReached := s.transitionsCount + 1 ≥ s.fsm.config.maxTransitionCount }
  refine ⟨s', ?_, ⟨h.block, h.initial, h.limit, hbetween.state⟩,
    transition_of_inBounds hstay.1 hin, rfl, rfl, rfl, rfl, rfl⟩
  rw [resolveBody, if_pos hstay, h.callOnExit]
  refine (if_neg hin).trans ?_
  show (callOnEntry between).bind _ = _
  rw [hbetween.callOnEntry]
  rfl

/-- What the loop keeps: it is at the position that the handlers have led to,
    and inside the state if it was at first. -/
structure OnTheWay (fsm₀ : SimpleFSM w ε) (nextState : SizeT w) (s : Resolving w ε) : Prop where
  range : InRange s.fsm
  config : s.fsm.config = fsm₀.config
  started : s.fsm.started = fsm₀.started
  way : iter (transition fsm₀.config) s.transitionsCount.toNat
    ⟨fsm₀.state, nextState, fsm₀.trace⟩ = some s.position
  count_le : s.transitionsCount.toNat ≤ fsm₀.config.maxTransitionCount.toNat
  limit : s.isTransitionLimitReached = true ↔
    s.transitionsCount.toNat = fsm₀.config.maxTransitionCount.toNat
  inside : Inside fsm₀ → Inside s.fsm
  grows : fsm₀.trace <+: s.fsm.trace

/-- How a resolution ends, and what the handlers asked for. -/
inductive Resolution (fsm₀ : SimpleFSM w ε) (p : Position w ε) (fsm : SimpleFSM w ε) :
    ErrorCode → Prop where
  | settled (inside : Inside fsm₀ → Inside fsm) (noLimit : ¬ UsesUpTransitions fsm₀.config p)
      (noBounds : ¬ AsksOutOfBounds fsm₀.config p) : Resolution fsm₀ p fsm .errNone
  | timeout (inside : Inside fsm₀ → Inside fsm) (limit : UsesUpTransitions fsm₀.config p) :
      Resolution fsm₀ p fsm .errTimeout
  | outOfBounds (outside : Inside fsm₀ → Outside fsm)
      (noLimit : ¬ UsesUpTransitions fsm₀.config p)
      (bounds : AsksOutOfBounds fsm₀.config p) : Resolution fsm₀ p fsm .errOutOfBounds

/-- What a resolution leaves alone. -/
structure Resolved (fsm₀ : SimpleFSM w ε) (nextState : SizeT w)
    (result : ErrorCode × SimpleFSM w ε) : Prop where
  range : InRange result.2
  config : result.2.config = fsm₀.config
  started : result.2.started = fsm₀.started
  grows : fsm₀.trace <+: result.2.trace
  resolution : Resolution fsm₀ ⟨fsm₀.state, nextState, fsm₀.trace⟩ result.2 result.1

/-- Where the loop leaves the way, and the code it returns there. -/
inductive Ended (fsm₀ : SimpleFSM w ε) (nextState : SizeT w) :
    ErrorCode × SimpleFSM w ε → Prop where
  | settled {s : Resolving w ε} (way : OnTheWay fsm₀ nextState s)
      (limit : s.isTransitionLimitReached = false) (settled : s.nextState = s.fsm.state) :
      Ended fsm₀ nextState (.errNone, s.fsm)
  | timeout {s : Resolving w ε} (way : OnTheWay fsm₀ nextState s)
      (limit : s.isTransitionLimitReached = true) : Ended fsm₀ nextState (.errTimeout, s.fsm)
  | outOfBounds {s : Resolving w ε} (way : OnTheWay fsm₀ nextState s)
      (limit : s.isTransitionLimitReached = false)
      (bounds : OutOfBounds fsm₀.config s.position) :
      Ended fsm₀ nextState (.errOutOfBounds,
        { s.fsm with trace := s.fsm.trace ++ [.exit s.fsm.state] })

section Resolve

variable {fsm₀ : SimpleFSM w ε} {nextState : SizeT w} {s : Resolving w ε}

theorem OnTheWay.count_lt (h : OnTheWay fsm₀ nextState s)
    (hlimit : s.isTransitionLimitReached = false) :
    s.transitionsCount.toNat < fsm₀.config.maxTransitionCount.toNat := by
  refine lt_of_le_of_ne h.count_le fun heq => ?_
  rw [h.limit.mpr heq] at hlimit
  exact nomatch hlimit

/-- The loop is done when the state requests itself or the limit is reached. -/
theorem OnTheWay.done (h : OnTheWay fsm₀ nextState s)
    (hleave : ¬ (s.nextState ≠ s.fsm.state ∧ s.isTransitionLimitReached = false)) :
    ∃ result, resolveBody s = some (.done result) ∧ Ended fsm₀ nextState result := by
  cases hlimit : s.isTransitionLimitReached with
  | true =>
      -- a timeout, also when the last state entered requests itself
      refine ⟨(.errTimeout, s.fsm), ?_, .timeout h hlimit⟩
      rw [resolveBody, if_neg hleave, hlimit]
      rfl
  | false =>
      have hsettled : s.nextState = s.fsm.state := by
        by_contra hne
        exact hleave ⟨hne, hlimit⟩
      refine ⟨(.errNone, s.fsm), ?_, .settled h hlimit hsettled⟩
      rw [resolveBody, if_neg hleave, hlimit]
      rfl

/-- The loop is done when the transition goes out of bounds, or goes again
    from the next position. -/
theorem OnTheWay.go (h : OnTheWay fsm₀ nextState s)
    (hstay : s.nextState ≠ s.fsm.state ∧ s.isTransitionLimitReached = false) :
    (∃ result, resolveBody s = some (.done result) ∧ Ended fsm₀ nextState result) ∨
    (∃ s', resolveBody s = some (.again s') ∧ OnTheWay fsm₀ nextState s' ∧
      fsm₀.config.maxTransitionCount.toNat - s'.transitionsCount.toNat
        < fsm₀.config.maxTransitionCount.toNat - s.transitionsCount.toNat) := by
  have hlt := h.count_lt hstay.2
  by_cases hout : target s.fsm.config s.position ≥ s.fsm.config.stateCount
  · left
    have hbounds : OutOfBounds fsm₀.config s.position := by
      rw [← h.config]
      exact ⟨hstay.1, hout⟩
    exact ⟨_, resolveBody_outOfBounds h.range hstay hout, .outOfBounds h hstay.2 hbounds⟩
  · right
    obtain ⟨s', hbody, hrange, htransition, hconfig, hstarted, hcount, hlimit, htrace⟩ :=
      resolveBody_transition h.range hstay hout
    have hnext : s'.transitionsCount.toNat = s.transitionsCount.toNat + 1 := by
      have hmax := fsm₀.config.maxTransitionCount.isLt
      have hw : 0 < w := SizeT.width_pos hlt
      rw [hcount, SizeT.toNat_add_of_lt (by rw [SizeT.toNat_one hw]; omega), SizeT.toNat_one hw]
    refine ⟨s', hbody, ⟨hrange, hconfig.trans h.config, hstarted.trans h.started, ?_, ?_, ?_, ?_,
      ?_⟩, ?_⟩
    · rw [hnext, iter_succ h.way, ← h.config]
      exact htransition
    · omega
    · rw [hlimit, decide_eq_true_iff, ge_iff_le, BitVec.le_def, h.config]
      omega
    · intro hinside
      have houtside := (h.inside hinside).exit
      constructor
      · rw [htrace]
        exact houtside.paired.concat houtside.entered
      · rw [htrace]
        exact entered_concat _ _
    · rw [htrace, List.append_assoc]
      exact h.grows.trans (List.prefix_append _ _)
    · omega

/-- **THE END OF A RESOLUTION**: what the handlers have asked for on the way. -/
theorem Ended.resolved {result : ErrorCode × SimpleFSM w ε} (h : Ended fsm₀ nextState result) :
    Resolved fsm₀ nextState result := by
  cases h with
  | settled h hlimit hsettled =>
      refine ⟨h.range, h.config, h.started, h.grows, .settled h.inside ?_ ?_⟩
      · exact not_usesUp_of_stuck (h.count_lt hlimit) h.way (transition_of_settled hsettled)
      · exact not_asks_of_settled h.way hsettled
  | timeout h hlimit =>
      refine ⟨h.range, h.config, h.started, h.grows, .timeout h.inside ?_⟩
      have hway := h.way
      rw [h.limit.mp hlimit] at hway
      exact ⟨_, hway⟩
  | outOfBounds h hlimit hbounds =>
      have hlt := h.count_lt hlimit
      refine ⟨⟨h.range.block, h.range.initial, h.range.limit, h.range.state⟩, h.config, h.started,
        h.grows.trans (List.prefix_append _ _), .outOfBounds ?_ ?_ ⟨_, hlt, _, h.way, hbounds⟩⟩
      · intro hinside
        exact (h.inside hinside).exit
      · exact not_usesUp_of_stuck hlt h.way (transition_of_outOfBounds hbounds)

/-- **RESOLVING** ends, and ends on the way that the handlers ask for. -/
theorem simpleFsmResolveTransitions_ended (h : InRange fsm₀) (nextState : SizeT w) :
    ∃ result, simpleFsmResolveTransitions fsm₀ nextState = some result ∧
      Ended fsm₀ nextState result := by
  have hstart : OnTheWay fsm₀ nextState
      { fsm := fsm₀, nextState := nextState, transitionsCount := 0,
        isTransitionLimitReached := false } := by
    have hzero : (0 : SizeT w).toNat = 0 := SizeT.toNat_eq_zero.mpr rfl
    refine ⟨h, rfl, rfl, ?_, ?_, ?_, id, List.prefix_refl _⟩
    · rw [hzero]
      rfl
    · rw [hzero]
      exact Nat.zero_le _
    · rw [hzero]
      exact ⟨fun hfalse => (nomatch hfalse), fun heq => absurd heq (Nat.ne_of_lt h.limit)⟩
  -- every round that goes on makes one transition more, up to the limit
  refine loop_spec
    (fun s => fsm₀.config.maxTransitionCount.toNat - s.transitionsCount.toNat)
    (fun s (hs : OnTheWay fsm₀ nextState s) => ?_) _ _ hstart (Nat.lt_succ_of_le (Nat.sub_le _ _))
  by_cases hstay : s.nextState ≠ s.fsm.state ∧ s.isTransitionLimitReached = false
  · exact hs.go hstay
  · exact .inl (hs.done hstay)

end Resolve

/-! ## One call -/

/-- Where a start that is acted on begins. -/
def startPosition (fsm : SimpleFSM w ε) : Position w ε where
  state := fsm.config.initialState
  request := (fsm.config.delegates fsm.config.initialState).onEntryHandler fsm.trace
  trace := fsm.trace ++ [.entry fsm.config.initialState]

/-- Where an event that is acted on begins. -/
def eventPosition (fsm : SimpleFSM w ε) (event : ε) : Position w ε where
  state := fsm.state
  request := (fsm.config.delegates fsm.state).onEventHandler fsm.trace event
  trace := fsm.trace ++ [.event fsm.state event]

/-- The machine after the first handler of a start that is acted on. -/
def enterInitial (fsm : SimpleFSM w ε) : SimpleFSM w ε :=
  { fsm with
    started := true
    state := fsm.config.initialState
    trace := fsm.trace ++ [.entry fsm.config.initialState] }

/-- The machine after the first handler of an event that is acted on. -/
def handleEvent (fsm : SimpleFSM w ε) (event : ε) : SimpleFSM w ε :=
  { fsm with trace := fsm.trace ++ [.event fsm.state event] }

/-- A start is acted on by a stopped machine, the other calls by a started one. -/
def ActsOn (started : Bool) : FsmCall ε → Prop
  | .start => started = false
  | .onEvent _ => started = true
  | .forceStop => started = true

/-- The calls that leave the machine with `started` telling the wrong thing: a
    start whose handlers use up the transitions, and an event whose handlers
    ask for a state that there is not. -/
def GoesWrong (fsm : SimpleFSM w ε) : FsmCall ε → Prop
  | .start => fsm.started = false ∧ UsesUpTransitions fsm.config (startPosition fsm)
  | .onEvent event =>
      fsm.started = true ∧ AsksOutOfBounds fsm.config (eventPosition fsm event)
  | .forceStop => False

/-- The handlers' calls pair up, and `started` tells whether a state is entered. -/
def Told (fsm : SimpleFSM w ε) : Prop :=
  (fsm.started = true ∧ Inside fsm) ∨ (fsm.started = false ∧ Outside fsm)

/-- The handlers' calls pair up, but `started` tells the wrong thing. -/
def Mistold (fsm : SimpleFSM w ε) : Prop :=
  (fsm.started = true ∧ Outside fsm) ∨ (fsm.started = false ∧ Inside fsm)

/-- The call of a handler that a call on the machine begins with. -/
def firstMark (fsm : SimpleFSM w ε) : FsmCall ε → Mark (SizeT w) ε
  | .start => .entry fsm.config.initialState
  | .onEvent event => .event fsm.state event
  | .forceStop => .exit fsm.state

section Step

variable {fsm : SimpleFSM w ε} {call : FsmCall ε}

/-- What a call that is acted on does. -/
structure Acted (fsm : SimpleFSM w ε) (call : FsmCall ε) (fsm' : SimpleFSM w ε) : Prop where
  range : InRange fsm'
  grows : fsm.trace ++ [firstMark fsm call] <+: fsm'.trace
  told : Told fsm → ¬ GoesWrong fsm call → Told fsm'
  mistold : Told fsm → GoesWrong fsm call → Mistold fsm' ∧ ActsOn fsm'.started call

/-- A call that is not acted on does nothing. -/
theorem simpleFsmStep_idle (h : ¬ ActsOn fsm.started call) :
    ∃ code, simpleFsmStep fsm call = some (code, fsm) := by
  cases call with
  | start => exact ⟨_, if_pos (Bool.eq_true_of_not_eq_false h)⟩
  | onEvent event => exact ⟨_, if_neg h⟩
  | forceStop => exact ⟨_, if_neg h⟩

theorem Told.inside (h : Told fsm) (hstarted : fsm.started = true) : Inside fsm := by
  rcases h with ⟨-, hinside⟩ | ⟨hstopped, -⟩
  · exact hinside
  · rw [hstarted] at hstopped
    exact nomatch hstopped

theorem Told.outside (h : Told fsm) (hstopped : fsm.started = false) : Outside fsm := by
  rcases h with ⟨hstarted, -⟩ | ⟨-, houtside⟩
  · rw [hstopped] at hstarted
    exact nomatch hstarted
  · exact houtside

/-- A start that is acted on enters the initial state and resolves from there;
    any error clears `started`. -/
theorem simpleFsmStart_ended (h : InRange fsm) (hstopped : fsm.started = false) :
    ∃ code fsm', simpleFsmStart fsm
        = some (code, if code ≠ .errNone then { fsm' with started := false } else fsm') ∧
      Ended (enterInitial fsm) (startPosition fsm).request (code, fsm') := by
  let opened : SimpleFSM w ε :=
    { fsm with started := true, state := fsm.config.initialState }
  have hopened : InRange opened := ⟨h.block, h.initial, h.limit, h.initial⟩
  have hbegun : InRange (enterInitial fsm) := ⟨h.block, h.initial, h.limit, h.initial⟩
  obtain ⟨⟨code, fsm'⟩, hresolve, hended⟩ :=
    simpleFsmResolveTransitions_ended hbegun (startPosition fsm).request
  refine ⟨code, fsm', ?_, hended⟩
  rw [simpleFsmStart, if_neg (Bool.not_eq_true _ ▸ hstopped)]
  show (callOnEntry opened).bind _ = _
  rw [hopened.callOnEntry]
  show (simpleFsmResolveTransitions (enterInitial fsm) (startPosition fsm).request).bind _ = _
  rw [hresolve]
  rfl

/-- An event that is acted on is handled in the current state and resolved
    from there. -/
theorem simpleFsmOnEvent_ended (h : InRange fsm) (hstarted : fsm.started = true) (event : ε) :
    ∃ code fsm', simpleFsmOnEvent fsm event = some (code, fsm') ∧
      Ended (handleEvent fsm event) (eventPosition fsm event).request (code, fsm') := by
  have hbegun : InRange (handleEvent fsm event) := ⟨h.block, h.initial, h.limit, h.state⟩
  obtain ⟨⟨code, fsm'⟩, hresolve, hended⟩ :=
    simpleFsmResolveTransitions_ended hbegun (eventPosition fsm event).request
  refine ⟨code, fsm', ?_, hended⟩
  rw [simpleFsmOnEvent, if_pos hstarted, h.callOnEvent]
  exact hresolve

/-- **A START** goes wrong exactly when it uses up the transitions. -/
theorem simpleFsmStart_acted (h : InRange fsm) (hstopped : fsm.started = false) :
    ∃ code fsm', simpleFsmStart fsm = some (code, fsm') ∧ Acted fsm .start fsm' := by
  have hinside : Told fsm → Inside (enterInitial fsm) := by
    intro htold
    obtain ⟨hpaired, hentered⟩ := htold.outside hstopped
    have houtside : Outside { fsm with state := fsm.config.initialState } := ⟨hpaired, hentered⟩
    exact ⟨houtside.entry.paired, houtside.entry.entered⟩
  obtain ⟨code, fsm', hstart, hended⟩ := simpleFsmStart_ended h hstopped
  obtain ⟨hrange, hconfig, hstarted, hgrows, hresolution⟩ := hended.resolved
  have hstopped' : InRange { fsm' with started := false } :=
    ⟨hrange.block, hrange.initial, hrange.limit, hrange.state⟩
  cases hresolution with
  | settled hin hlimit _ =>
      refine ⟨_, _, hstart, hrange, hgrows, fun htold _ => ?_, fun _ hwrong => ?_⟩
      · exact .inl ⟨hstarted, hin (hinside htold)⟩
      · exact absurd hwrong.2 hlimit
  | timeout hin hlimit =>
      refine ⟨_, _, hstart, hstopped', hgrows, fun _ hright => ?_, fun htold _ => ⟨?_, rfl⟩⟩
      · exact absurd ⟨hstopped, hlimit⟩ hright
      · exact .inr ⟨rfl, ⟨(hin (hinside htold)).paired, (hin (hinside htold)).entered⟩⟩
  | outOfBounds hout hlimit _ =>
      -- here the cleared `started` tells the truth: the state has been exited
      refine ⟨_, _, hstart, hstopped', hgrows, fun htold _ => ?_, fun _ hwrong => ?_⟩
      · exact .inr ⟨rfl, ⟨(hout (hinside htold)).paired, (hout (hinside htold)).entered⟩⟩
      · exact absurd hwrong.2 hlimit

/-- **AN EVENT** goes wrong exactly when it asks for a state that there is not. -/
theorem simpleFsmOnEvent_acted (h : InRange fsm) (hstarted : fsm.started = true) (event : ε) :
    ∃ code fsm', simpleFsmOnEvent fsm event = some (code, fsm') ∧
      Acted fsm (.onEvent event) fsm' := by
  have hinside : Told fsm → Inside (handleEvent fsm event) := by
    intro htold
    exact (htold.inside hstarted).event event
  obtain ⟨code, fsm', hevent, hended⟩ := simpleFsmOnEvent_ended h hstarted event
  obtain ⟨hrange, hconfig, hstarted', hgrows, hresolution⟩ := hended.resolved
  have hon : fsm'.started = true := hstarted'.trans hstarted
  refine ⟨_, _, hevent, hrange, hgrows, ?_, ?_⟩
  · intro htold hright
    cases hresolution with
    | settled hin _ _ => exact .inl ⟨hon, hin (hinside htold)⟩
    | timeout hin _ => exact .inl ⟨hon, hin (hinside htold)⟩
    | outOfBounds _ _ hbounds => exact absurd ⟨hstarted, hbounds⟩ hright
  · rintro htold ⟨-, hbounds⟩
    cases hresolution with
    | settled _ _ hnot => exact absurd hbounds hnot
    | timeout _ hlimit => exact absurd hbounds (not_asks_of_usesUp hlimit)
    -- `started` stays set although the state has been exited
    | outOfBounds hout _ _ => exact ⟨.inl ⟨hon, hout (hinside htold)⟩, hon⟩

/-- A stop that is acted on exits the current state, whatever the answer. -/
theorem simpleFsmForceStop_eq (h : InRange fsm) (hstarted : fsm.started = true) :
    simpleFsmForceStop fsm = some
      (if (fsm.config.delegates fsm.state).onExitHandler fsm.trace = fsm.state then .errNone
        else .errIncomplete,
        { fsm with trace := fsm.trace ++ [.exit fsm.state], started := false }) := by
  rw [simpleFsmForceStop, if_pos hstarted, h.callOnExit]
  rfl

/-- **A FORCED STOP** never goes wrong. -/
theorem simpleFsmForceStop_acted (h : InRange fsm) (hstarted : fsm.started = true) :
    ∃ code fsm', simpleFsmForceStop fsm = some (code, fsm') ∧ Acted fsm .forceStop fsm' := by
  have hstop := simpleFsmForceStop_eq h hstarted
  refine ⟨_, _, hstop, ⟨h.block, h.initial, h.limit, h.state⟩, List.prefix_refl _, ?_, ?_⟩
  · intro htold _
    have hout := (htold.inside hstarted).exit
    exact .inr ⟨rfl, ⟨hout.paired, hout.entered⟩⟩
  · intro _ hwrong
    exact hwrong.elim

/-- **ONE CALL** that is acted on. -/
theorem simpleFsmStep_acted (h : InRange fsm) (hacts : ActsOn fsm.started call) :
    ∃ code fsm', simpleFsmStep fsm call = some (code, fsm') ∧ Acted fsm call fsm' := by
  cases call with
  | start => exact simpleFsmStart_acted h hacts
  | onEvent event => exact simpleFsmOnEvent_acted h hacts event
  | forceStop => exact simpleFsmForceStop_acted h hacts

/-- A call that goes wrong is acted on. -/
theorem GoesWrong.actsOn (h : GoesWrong fsm call) : ActsOn fsm.started call := by
  cases call with
  | start => exact h.1
  | onEvent event => exact h.1
  | forceStop => exact h.elim

/-- After a call that went wrong, the next call that is acted on does not pair. -/
theorem Mistold.not_allowed (h : Mistold fsm) (hacts : ActsOn fsm.started call) :
    ¬ Allowed (entered fsm.trace) (firstMark fsm call) := by
  rcases h with ⟨hstarted, houtside⟩ | ⟨hstopped, hinside⟩
  -- outside, but `started`: an event or an exit where no state is entered
  · rw [houtside.entered]
    cases call with
    | start =>
        rw [ActsOn, hstarted] at hacts
        exact nomatch hacts
    | onEvent event => exact fun hallowed => nomatch hallowed
    | forceStop => exact fun hallowed => nomatch hallowed
  -- inside, but not `started`: a second entry
  · rw [hinside.entered]
    cases call with
    | start => exact fun hallowed => nomatch hallowed
    | onEvent event =>
        rw [ActsOn, hstopped] at hacts
        exact nomatch hacts
    | forceStop =>
        rw [ActsOn, hstopped] at hacts
        exact nomatch hacts

theorem Told.paired (h : Told fsm) : Paired fsm.trace := by
  rcases h with ⟨-, hinside⟩ | ⟨-, houtside⟩
  · exact hinside.paired
  · exact houtside.paired

theorem Mistold.paired (h : Mistold fsm) : Paired fsm.trace := by
  rcases h with ⟨-, houtside⟩ | ⟨-, hinside⟩
  · exact houtside.paired
  · exact hinside.paired

end Step

/-! ## Every run -/

/-- Every call after one that went wrong does nothing. -/
def LeftAlone (call : FsmCall ε) (later : List (FsmCall ε)) : Prop :=
  match call with
  | .start => ∀ next ∈ later, next ≠ .start
  | .onEvent _ => ∀ next ∈ later, next = .start
  | .forceStop => True

/-- A start of a stopped machine whose handlers use up the transitions is
    followed by no other start, and an event on a started machine whose
    handlers ask for a state that there is not by starts only. -/
def WrongCallsLeftAlone : SimpleFSM w ε → List (FsmCall ε) → Prop
  | _, [] => True
  | fsm, call :: calls =>
      (GoesWrong fsm call → LeftAlone call calls) ∧
      ∀ code fsm', simpleFsmStep fsm call = some (code, fsm') → WrongCallsLeftAlone fsm' calls

section Run

variable {fsm : SimpleFSM w ε}

/-- What may follow a call that went wrong is what is not acted on. -/
theorem leftAlone_iff {call : FsmCall ε} {started : Bool} {later : List (FsmCall ε)}
    (hwrong : GoesWrong fsm call) (hacts : ActsOn started call) :
    LeftAlone call later ↔ ∀ next ∈ later, ¬ ActsOn started next := by
  cases call with
  | start =>
      obtain rfl : started = false := hacts
      refine forall₂_congr fun next _ => ?_
      cases next <;> simp [ActsOn]
  | onEvent event =>
      obtain rfl : started = true := hacts
      refine forall₂_congr fun next _ => ?_
      cases next <;> simp [ActsOn]
  | forceStop => exact hwrong.elim

/-- Every call on a machine in range is defined, and the trace only grows. -/
theorem run_grows (calls : List (FsmCall ε)) (h : InRange fsm) :
    ∃ codes fsm', run simpleFsmStep fsm calls = some (codes, fsm') ∧
      fsm.trace <+: fsm'.trace := by
  have hstep : ∀ (past : List ErrorCode) fsm₁ call, InRange fsm₁ ∧ fsm.trace <+: fsm₁.trace →
      ∃ code fsm₂, simpleFsmStep fsm₁ call = some (code, fsm₂) ∧
        InRange fsm₂ ∧ fsm.trace <+: fsm₂.trace := by
    rintro - fsm₁ call ⟨hrange, hgrows⟩
    by_cases hacts : ActsOn fsm₁.started call
    · obtain ⟨code, fsm₂, hstep, hacted⟩ := simpleFsmStep_acted hrange hacts
      exact ⟨code, fsm₂, hstep, hacted.range,
        hgrows.trans ((List.prefix_append _ _).trans hacted.grows)⟩
    · obtain ⟨code, hstep⟩ := simpleFsmStep_idle hacts
      exact ⟨code, fsm₁, hstep, hrange, hgrows⟩
  obtain ⟨codes, fsm', hrun, -, -, hgrows⟩ :=
    run_history hstep calls [] fsm ⟨h, List.prefix_refl _⟩
  exact ⟨codes, fsm', hrun, hgrows⟩

/-- **AFTER A WRONG CALL** the handlers' calls pair up exactly as long as nothing
    is acted on. -/
theorem mistold_run (calls : List (FsmCall ε)) (h : InRange fsm) (hmistold : Mistold fsm) :
    ∃ codes fsm', run simpleFsmStep fsm calls = some (codes, fsm') ∧
      (Paired fsm'.trace ↔ ∀ next ∈ calls, ¬ ActsOn fsm.started next) := by
  induction calls with
  | nil =>
      refine ⟨[], fsm, rfl, fun _ next hnext => ?_, fun _ => hmistold.paired⟩
      exact absurd hnext List.not_mem_nil
  | cons call calls ih =>
      by_cases hacts : ActsOn fsm.started call
      · obtain ⟨code, fsm₁, hstep, hacted⟩ := simpleFsmStep_acted h hacts
        obtain ⟨codes, fsm', hrun, hgrows⟩ := run_grows calls hacted.range
        refine ⟨code :: codes, fsm', by rw [run_cons hstep, hrun]; rfl, fun hpaired => ?_,
          fun hidle => absurd hacts (hidle call List.mem_cons_self)⟩
        -- the first handler called is not allowed where the machine is
        obtain ⟨marks, hmarks⟩ := hacted.grows.trans hgrows
        rw [← hmarks, List.append_assoc, List.singleton_append] at hpaired
        exact absurd hpaired.allowed (hmistold.not_allowed hacts)
      · obtain ⟨code, hstep⟩ := simpleFsmStep_idle hacts
        obtain ⟨codes, fsm', hrun, hiff⟩ := ih
        refine ⟨code :: codes, fsm', by rw [run_cons hstep, hrun]; rfl, ?_⟩
        rw [List.forall_mem_cons]
        exact hiff.trans ⟨fun hidle => ⟨hacts, hidle⟩, fun hidle => hidle.2⟩

/-- Calls that are not acted on leave nothing to go wrong. -/
theorem wrongCallsLeftAlone_of_idle {calls : List (FsmCall ε)}
    (hidle : ∀ next ∈ calls, ¬ ActsOn fsm.started next) : WrongCallsLeftAlone fsm calls := by
  induction calls with
  | nil => exact trivial
  | cons call calls ih =>
      obtain ⟨hcall, hrest⟩ := List.forall_mem_cons.mp hidle
      -- a call that is not acted on leaves the machine as it is
      refine ⟨fun hwrong => absurd hwrong.actsOn hcall, fun code fsm' hstep => ?_⟩
      obtain ⟨code', hidleStep⟩ := simpleFsmStep_idle hcall
      obtain ⟨-, rfl⟩ := Prod.mk.inj (Option.some.inj (hidleStep.symm.trans hstep))
      exact ih hrest

/-- The condition on a run that begins with a known step. -/
theorem wrongCallsLeftAlone_cons {call : FsmCall ε} {calls : List (FsmCall ε)}
    {code : ErrorCode} {fsm' : SimpleFSM w ε}
    (hstep : simpleFsmStep fsm call = some (code, fsm')) :
    WrongCallsLeftAlone fsm (call :: calls) ↔
      (GoesWrong fsm call → LeftAlone call calls) ∧ WrongCallsLeftAlone fsm' calls := by
  constructor
  · rintro ⟨hwrong, hrest⟩
    exact ⟨hwrong, hrest code fsm' hstep⟩
  · rintro ⟨hwrong, hrest⟩
    refine ⟨hwrong, fun code' fsm'' hstep' => ?_⟩
    obtain ⟨-, rfl⟩ := Prod.mk.inj (Option.some.inj (hstep.symm.trans hstep'))
    exact hrest

/-- **EVERY RUN** of a machine whose `started` tells the truth at first. -/
theorem told_run (calls : List (FsmCall ε)) (h : InRange fsm) (htold : Told fsm) :
    ∃ codes fsm', run simpleFsmStep fsm calls = some (codes, fsm') ∧
      (Paired fsm'.trace ↔ WrongCallsLeftAlone fsm calls) := by
  induction calls generalizing fsm with
  | nil => exact ⟨[], fsm, rfl, fun _ => trivial, fun _ => htold.paired⟩
  | cons call calls ih =>
      by_cases hacts : ActsOn fsm.started call
      · obtain ⟨code, fsm₁, hstep, hacted⟩ := simpleFsmStep_acted h hacts
        by_cases hwrong : GoesWrong fsm call
        · -- from here on the run pairs as long as nothing is acted on
          obtain ⟨hmistold, hacts₁⟩ := hacted.mistold htold hwrong
          obtain ⟨codes, fsm', hrun, hiff⟩ := mistold_run calls hacted.range hmistold
          refine ⟨code :: codes, fsm', by rw [run_cons hstep, hrun]; rfl, ?_⟩
          rw [wrongCallsLeftAlone_cons hstep, hiff, leftAlone_iff hwrong hacts₁]
          exact ⟨fun hidle => ⟨fun _ => hidle, wrongCallsLeftAlone_of_idle hidle⟩,
            fun hcond => hcond.1 hwrong⟩
        · obtain ⟨codes, fsm', hrun, hiff⟩ := ih hacted.range (hacted.told htold hwrong)
          refine ⟨code :: codes, fsm', by rw [run_cons hstep, hrun]; rfl, ?_⟩
          rw [wrongCallsLeftAlone_cons hstep, hiff]
          exact ⟨fun hrest => ⟨fun hwrong' => absurd hwrong' hwrong, hrest⟩,
            fun hcond => hcond.2⟩
      · obtain ⟨code, hstep⟩ := simpleFsmStep_idle hacts
        obtain ⟨codes, fsm', hrun, hiff⟩ := ih h htold
        refine ⟨code :: codes, fsm', by rw [run_cons hstep, hrun]; rfl, ?_⟩
        rw [wrongCallsLeftAlone_cons hstep, hiff]
        exact ⟨fun hrest => ⟨fun hwrong => absurd hwrong.actsOn hacts, hrest⟩,
          fun hcond => hcond.2⟩

end Run

/-- What the validation accepts. -/
theorem simpleFsmValidateConfig_eq_errNone {config : SimpleFSMConfig w ε}
    (h : simpleFsmValidateConfig config = .errNone) :
    0 < config.maxTransitionCount.toNat ∧ config.initialState < config.stateCount := by
  rw [simpleFsmValidateConfig] at h
  by_cases hcount : config.stateCount = 0
  · rw [if_pos hcount] at h
    exact nomatch h
  · by_cases hmax : config.maxTransitionCount = 0
    · rw [if_neg hcount, if_pos hmax] at h
      exact nomatch h
    · by_cases hinitial : config.initialState ≥ config.stateCount
      · rw [if_neg hcount, if_neg hmax, if_pos hinitial] at h
        exact nomatch h
      · exact ⟨Nat.pos_of_ne_zero (mt SizeT.toNat_eq_zero.mp hmax), BitVec.not_le.mp hinitial⟩

/-- An accepted configuration gives a stopped machine in range. -/
theorem simpleFsmInit_told {fsm fsm₀ : SimpleFSM w ε} {config : SimpleFSMConfig w ε}
    (hinit : simpleFsmInit fsm config = (.errNone, fsm₀)) (htrace : fsm.trace = [])
    (hblock : config.stateDelegates.size = config.stateCount.toNat) :
    InRange fsm₀ ∧ Told fsm₀ := by
  rw [simpleFsmInit] at hinit
  cases hvalid : simpleFsmValidateConfig config with
  | errNone =>
      rw [hvalid] at hinit
      obtain ⟨-, rfl⟩ := Prod.mk.inj hinit
      obtain ⟨hmax, hinitial⟩ := simpleFsmValidateConfig_eq_errNone hvalid
      refine ⟨⟨hblock, hinitial, hmax, hinitial⟩, .inr ⟨rfl, ?_, ?_⟩⟩
      · rw [htrace]
        exact paired_nil
      · rw [htrace]
        rfl
  | _ =>
      rw [hvalid] at hinit
      exact nomatch (Prod.mk.inj hinit).1

/-- **ENTRIES AND EXITS PAIR** in a run exactly when every start that uses up the
    transitions, and every event that asks for a state that there is not, is
    followed only by calls that the machine does not act on. -/
theorem simple_fsm_pairing_iff {fsm fsm₀ : SimpleFSM w ε} {config : SimpleFSMConfig w ε}
    (hinit : simpleFsmInit fsm config = (.errNone, fsm₀)) (htrace : fsm.trace = [])
    (hblock : config.stateDelegates.size = config.stateCount.toNat)
    (calls : List (FsmCall ε)) :
    ∃ codes fsm', run simpleFsmStep fsm₀ calls = some (codes, fsm') ∧
      (Paired fsm'.trace ↔ WrongCallsLeftAlone fsm₀ calls) := by
  obtain ⟨hrange, htold⟩ := simpleFsmInit_told hinit htrace hblock
  exact told_run calls hrange htold

/-- One state, whose event handler asks for a second one. -/
def strayConfig : SimpleFSMConfig 8 Unit where
  stateDelegates := ⟨1, fun _ => ⟨fun _ => 0, fun _ _ => 1, fun _ => 0⟩⟩
  stateCount := 1
  initialState := 0
  maxTransitionCount := 1

/-- A machine of that one state, before its first call. -/
def strayFsm : SimpleFSM 8 Unit := ⟨false, strayConfig, 0, []⟩

/-- The condition for a start, an event that goes wrong and a stop. -/
theorem simple_fsm_pairing_iff_stray :
    ∃ codes fsm', run simpleFsmStep strayFsm [.start, .onEvent (), .forceStop]
        = some (codes, fsm') ∧
      (Paired fsm'.trace
        ↔ WrongCallsLeftAlone strayFsm [.start, .onEvent (), .forceStop]) := by
  have hinit : simpleFsmInit strayFsm strayConfig = (.errNone, strayFsm) := rfl
  exact simple_fsm_pairing_iff hinit rfl rfl _

/-- **AN EXIT WITHOUT AN ENTRY**: the event exits the only state before its request
    is found to be out of bounds, and the stop exits it again. -/
theorem simple_fsm_exits_twice :
    ∃ fsm', simpleFsmInit strayFsm strayConfig = (.errNone, strayFsm) ∧
      run simpleFsmStep strayFsm [.start, .onEvent (), .forceStop]
        = some ([.errNone, .errOutOfBounds, .errNone], fsm') ∧
      ¬ Paired fsm'.trace := by
  refine ⟨{ strayFsm with trace := [.entry 0, .event 0 (), .exit 0, .exit 0] }, rfl, rfl, ?_⟩
  intro hpaired
  have hexit : Allowed _ _ := hpaired [.entry 0, .event 0 (), .exit 0] (.exit 0) [] rfl
  exact nomatch hexit

end CembSimpleFsm
