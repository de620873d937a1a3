import CEmbeddedUtils.SimpleFsmProofs

/-! # The simple state machine — calls from inside handlers

    A handler gets the machine as its first argument, and may call the engine
    with it: pass an event on, force a stop, set the machine up anew.  The
    engine has kept in local variables where it was, and reads `state`,
    `started` and the configuration afresh when the handler returns.

    So the engine is embedded here as a machine whose moves are those of the
    application, the return of a handler with its answer among them.  The
    handlers that are running form a stack, the innermost first, each with the
    place in the engine that has called it and the local variables there.
    Between two moves the engine runs from one call of a handler to the next.

    Whatever the handlers do, the engine stays in range
    (`simple_fsm_nested_calls_in_range`) and calls so many handlers only
    (`simple_fsm_nested_work_bounded`); where they call nothing, it is the plain
    engine (`simple_fsm_unnested_calls_agree`). -/

namespace CembSimpleFsm

open BoundedLoop Memory Pairing Transducer

variable {w : Nat} {ε : Type}

/-! ## The source, from one handler to the next -/

/-- A handler that is running: where it was called.  `inStart` says that the
    transitions are those of `simple_fsm_start`. -/
inductive RunningHandler (w : Nat) where
  | startEntry
  | event
  | stopExit
  | resolveExit (inStart : Bool) (nextState transitionsCount : SizeT w)
  | resolveEntry (inStart : Bool) (transitionsCount : SizeT w)

/-- A machine with the handlers that are running, the innermost first. -/
structure Engine (w : Nat) (ε : Type) where
  fsm : SimpleFSM w ε
  running : List (RunningHandler w)

/-- What the application does next, in a handler or in none. -/
inductive EngineMove (w : Nat) (ε : Type) where
  | init (config : SimpleFSMConfig w ε)
  | deinit
  | call (call : FsmCall ε)
  | handlerReturns (answer : SizeT w)

/-- What comes of a move: a handler is called, or a call on the machine returns. -/
inductive EngineResponse (w : Nat) (ε : Type) where
  | initialised (code : ErrorCode)
  | deinitialised
  | called (mark : Mark (SizeT w) ε)
  | returned (code : ErrorCode)

/-- What `simple_fsm_start` and `simple_fsm_on_event` do with the code of the
    resolution: a start that fails clears `started`. -/
def finished (inStart : Bool) (ret : ErrorCode) (fsm : SimpleFSM w ε) : SimpleFSM w ε :=
  if inStart = true ∧ ret ≠ .errNone then { fsm with started := false } else fsm

/-- The loop of `simple_fsm_resolve_transitions` from its head, up to the exit
    handler that it calls, or to the end of the call that it is part of. -/
def resolveFrom (fsm : SimpleFSM w ε) (outer : List (RunningHandler w)) (inStart : Bool)
    (nextState transitionsCount : SizeT w) (isTransitionLimitReached : Bool) :
    Option (EngineResponse w ε × Engine w ε) :=
  if nextState ≠ fsm.state ∧ isTransitionLimitReached = false then do
    let (_, exiting) ← callOnExit fsm
    some (.called (.exit fsm.state),
      ⟨exiting, .resolveExit inStart nextState transitionsCount :: outer⟩)
  else
    let ret := if isTransitionLimitReached then .errTimeout else .errNone
    some (.returned ret, ⟨finished inStart ret fsm, outer⟩)

/-- A call on the machine, up to the first handler that it calls. -/
def engineCall (fsm : SimpleFSM w ε) (running : List (RunningHandler w)) :
    FsmCall ε → Option (EngineResponse w ε × Engine w ε)
  | .start =>
      if fsm.started then some (.returned .errNoop, ⟨fsm, running⟩)
      else do
        let (_, entering) ←
          callOnEntry { fsm with started := true, state := fsm.config.initialState }
        some (.called (.entry fsm.config.initialState), ⟨entering, .startEntry :: running⟩)
  | .onEvent event =>
      if fsm.started then do
        let (_, handling) ← callOnEvent fsm event
        some (.called (.event fsm.state event), ⟨handling, .event :: running⟩)
      else some (.returned .errNotInitialised, ⟨fsm, running⟩)
  | .forceStop =>
      if fsm.started then do
        let (_, exiting) ← callOnExit fsm
        some (.called (.exit fsm.state), ⟨exiting, .stopExit :: running⟩)
      else some (.returned .errNoop, ⟨fsm, running⟩)

/-- The engine from the return of a handler on, inside the handlers `outer`. -/
def engineResume (fsm : SimpleFSM w ε) (outer : List (RunningHandler w)) (answer : SizeT w) :
    RunningHandler w → Option (EngineResponse w ε × Engine w ε)
  | .startEntry => resolveFrom fsm outer true answer 0 false
  | .event => resolveFrom fsm outer false answer 0 false
  | .stopExit =>
      some (.returned (if answer = fsm.state then .errNone else .errIncomplete),
        ⟨{ fsm with started := false }, outer⟩)
  | .resolveExit inStart nextState transitionsCount =>
      let nextRequestedState := if answer = fsm.state then nextState else answer
      if nextRequestedState ≥ fsm.config.stateCount then
        some (.returned .errOutOfBounds, ⟨finished inStart .errOutOfBounds fsm, outer⟩)
      else do
        let (_, entering) ← callOnEntry { fsm with state := nextRequestedState }
        some (.called (.entry nextRequestedState),
          ⟨entering, .resolveEntry inStart transitionsCount :: outer⟩)
  | .resolveEntry inStart transitionsCount =>
      let transitionsCount := transitionsCount + 1
      resolveFrom fsm outer inStart answer transitionsCount
        (transitionsCount ≥ fsm.config.maxTransitionCount)

/-- One move.  Outside all handlers there is none that could return. -/
def engineStep : Step (Engine w ε) (EngineMove w ε) (EngineResponse w ε)
  | s, .init config =>
      let (code, fsm) := simpleFsmInit s.fsm config
      some (.initialised code, { s with fsm := fsm })
  | s, .deinit => some (.deinitialised, { s with fsm := simpleFsmDeinit s.fsm })
  | s, .call call => engineCall s.fsm s.running call
  | ⟨_, []⟩, .handlerReturns _ => none
  | ⟨fsm, handler :: outer⟩, .handlerReturns answer => engineResume fsm outer answer handler

@[simp] theorem finished_config (inStart : Bool) (ret : ErrorCode) (fsm : SimpleFSM w ε) :
    (finished inStart ret fsm).config = fsm.config := by
  rw [finished]
  split <;> rfl

/-! ## What a move can do -/

/-- The machine when the first handler of a call is running. -/
def begun (fsm : SimpleFSM w ε) : FsmCall ε → SimpleFSM w ε
  | .start => enterInitial fsm
  | .onEvent event => handleEvent fsm event
  | .forceStop => { fsm with trace := fsm.trace ++ [.exit fsm.state] }

/-- The place of the first handler of a call. -/
def firstHandler : FsmCall ε → RunningHandler w
  | .start => .startEntry
  | .onEvent _ => .event
  | .forceStop => .stopExit

/-- The head of the loop that a handler returns to: whether in a start, the
    transitions made, and whether they are used up; none for an exit handler. -/
def RunningHandler.loopHead (config : SimpleFSMConfig w ε) :
    RunningHandler w → Option (Bool × SizeT w × Bool)
  | .startEntry => some (true, 0, false)
  | .event => some (false, 0, false)
  | .resolveEntry inStart transitionsCount =>
      some (inStart, transitionsCount + 1, transitionsCount + 1 ≥ config.maxTransitionCount)
  | _ => none

/-- Where a transition goes whose exit handler answers `answer`. -/
def requested (fsm : SimpleFSM w ε) (nextState answer : SizeT w) : SizeT w :=
  if answer = fsm.state then nextState else answer

/-- Everything that a move can do. -/
inductive Moved (s : Engine w ε) : EngineMove w ε → EngineResponse w ε → Engine w ε → Prop where
  | init (config : SimpleFSMConfig w ε) : Moved s (.init config)
      (.initialised (simpleFsmInit s.fsm config).1)
      { s with fsm := (simpleFsmInit s.fsm config).2 }
  | deinit : Moved s .deinit .deinitialised { s with fsm := simpleFsmDeinit s.fsm }
  | idle {call : FsmCall ε} (hidle : ¬ ActsOn s.fsm.started call) (code : ErrorCode) :
      Moved s (.call call) (.returned code) s
  | begins {call : FsmCall ε} (hacts : ActsOn s.fsm.started call) :
      Moved s (.call call) (.called (firstMark s.fsm call))
        ⟨begun s.fsm call, firstHandler call :: s.running⟩
  | stops {outer : List (RunningHandler w)} (answer : SizeT w)
      (hrunning : s.running = .stopExit :: outer) (code : ErrorCode) :
      Moved s (.handlerReturns answer) (.returned code) ⟨{ s.fsm with started := false }, outer⟩
  | leaves {outer : List (RunningHandler w)} {handler : RunningHandler w} {inStart : Bool}
      {count answer : SizeT w} (hrunning : s.running = handler :: outer)
      (hhead : handler.loopHead s.fsm.config = some (inStart, count, false))
      (hrequest : answer ≠ s.fsm.state) :
      Moved s (.handlerReturns answer) (.called (.exit s.fsm.state))
        ⟨{ s.fsm with trace := s.fsm.trace ++ [.exit s.fsm.state] },
          .resolveExit inStart answer count :: outer⟩
  | ends {outer : List (RunningHandler w)} {handler : RunningHandler w} {inStart limit : Bool}
      {count answer : SizeT w} (hrunning : s.running = handler :: outer)
      (hhead : handler.loopHead s.fsm.config = some (inStart, count, limit))
      (hrequest : answer = s.fsm.state ∨ limit = true) :
      Moved s (.handlerReturns answer) (.returned (if limit then .errTimeout else .errNone))
        ⟨finished inStart (if limit then .errTimeout else .errNone) s.fsm, outer⟩
  | enters {outer : List (RunningHandler w)} {inStart : Bool} {nextState count answer : SizeT w}
      (hrunning : s.running = .resolveExit inStart nextState count :: outer)
      (hin : requested s.fsm nextState answer < s.fsm.config.stateCount) :
      Moved s (.handlerReturns answer) (.called (.entry (requested s.fsm nextState answer)))
        ⟨{ s.fsm with
            state := requested s.fsm nextState answer
            trace := s.fsm.trace ++ [.entry (requested s.fsm nextState answer)] },
          .resolveEntry inStart count :: outer⟩
  | outOfBounds {outer : List (RunningHandler w)} {inStart : Bool}
      {nextState count answer : SizeT w}
      (hrunning : s.running = .resolveExit inStart nextState count :: outer)
      (hout : requested s.fsm nextState answer ≥ s.fsm.config.stateCount) :
      Moved s (.handlerReturns answer) (.returned .errOutOfBounds)
        ⟨finished inStart .errOutOfBounds s.fsm, outer⟩

/-- A handler returns only while one is running. -/
def HandlerRuns (s : Engine w ε) : EngineMove w ε → Prop
  | .handlerReturns _ => s.running ≠ []
  | _ => True

section Moves

variable {fsm : SimpleFSM w ε} {outer : List (RunningHandler w)} {answer : SizeT w}

/-- A call that is not acted on does nothing. -/
theorem engineCall_idle {call : FsmCall ε} (h : ¬ ActsOn fsm.started call) :
    ∃ code, engineCall fsm outer call = some (.returned code, ⟨fsm, outer⟩) := by
  cases call with
  | start => exact ⟨_, if_pos (Bool.eq_true_of_not_eq_false h)⟩
  | onEvent event => exact ⟨_, if_neg h⟩
  | forceStop => exact ⟨_, if_neg h⟩

theorem engineCall_moved (h : InRange fsm) (call : FsmCall ε) :
    ∃ response s', engineCall fsm outer call = some (response, s') ∧
      Moved ⟨fsm, outer⟩ (.call call) response s' := by
  by_cases hacts : ActsOn fsm.started call
  · refine ⟨_, _, ?_, .begins hacts⟩
    cases call with
    | start =>
        have hopened : InRange { fsm with started := true, state := fsm.config.initialState } :=
          ⟨h.block, h.initial, h.limit, h.initial⟩
        rw [engineCall, if_neg (Bool.not_eq_true _ ▸ hacts), hopened.callOnEntry]
        rfl
    | onEvent event =>
        have hstarted : fsm.started = true := hacts
        rw [engineCall, if_pos hstarted, h.callOnEvent]
        rfl
    | forceStop =>
        have hstarted : fsm.started = true := hacts
        rw [engineCall, if_pos hstarted, h.callOnExit]
        rfl
  · obtain ⟨code, hidle⟩ := engineCall_idle hacts
    exact ⟨_, _, hidle, .idle hacts code⟩

/-- A handler that returns to the head of the loop. -/
theorem resolveFrom_moved (h : InRange fsm) {handler : RunningHandler w} {inStart limit : Bool}
    {count : SizeT w} (hhead : handler.loopHead fsm.config = some (inStart, count, limit)) :
    ∃ response s', resolveFrom fsm outer inStart answer count limit = some (response, s') ∧
      Moved ⟨fsm, handler :: outer⟩ (.handlerReturns answer) response s' := by
  by_cases hgo : answer ≠ fsm.state ∧ limit = false
  · obtain ⟨hrequest, rfl⟩ := hgo
    refine ⟨_, _, ?_, .leaves rfl hhead hrequest⟩
    rw [resolveFrom, if_pos ⟨hrequest, rfl⟩, h.callOnExit]
    rfl
  · have hends : answer = fsm.state ∨ limit = true := by
      by_cases hsame : answer = fsm.state
      · exact .inl hsame
      · exact .inr (Bool.eq_true_of_not_eq_false fun hlimit => hgo ⟨hsame, hlimit⟩)
    exact ⟨_, _, if_neg hgo, .ends rfl hhead hends⟩

theorem engineResume_moved (h : InRange fsm) (handler : RunningHandler w) :
    ∃ response s', engineResume fsm outer answer handler = some (response, s') ∧
      Moved ⟨fsm, handler :: outer⟩ (.handlerReturns answer) response s' := by
  cases handler with
  | startEntry => exact resolveFrom_moved h rfl
  | event => exact resolveFrom_moved h rfl
  | stopExit => exact ⟨_, _, rfl, .stops _ rfl _⟩
  | resolveExit inStart nextState count =>
      by_cases hout : requested fsm nextState answer ≥ fsm.config.stateCount
      · exact ⟨_, _, if_pos hout, .outOfBounds rfl hout⟩
      · have hin : requested fsm nextState answer < fsm.config.stateCount := BitVec.not_le.mp hout
        have hentering : InRange { fsm with state := requested fsm nextState answer } :=
          ⟨h.block, h.initial, h.limit, hin⟩
        refine ⟨_, _, ?_, .enters rfl hin⟩
        refine (if_neg hout).trans ?_
        show (callOnEntry { fsm with state := requested fsm nextState answer }).bind _ = _
        rw [hentering.callOnEntry]
        rfl
  | resolveEntry inStart count => exact resolveFrom_moved h rfl

/-- **ONE MOVE** in range is defined. -/
theorem engineStep_moved {s : Engine w ε} (h : InRange s.fsm) {move : EngineMove w ε}
    (hreturns : HandlerRuns s move) :
    ∃ response s', engineStep s move = some (response, s') ∧ Moved s move response s' := by
  cases move with
  | init config => exact ⟨_, _, rfl, .init config⟩
  | deinit => exact ⟨_, _, rfl, .deinit⟩
  | call call => exact engineCall_moved h call
  | handlerReturns answer =>
      obtain ⟨fsm, running⟩ := s
      cases running with
      | nil => exact absurd rfl hreturns
      | cons handler outer => exact engineResume_moved h handler

/-- What a move has done is one of the things it can do. -/
theorem moved_of_engineStep {s s' : Engine w ε} (h : InRange s.fsm) {move : EngineMove w ε}
    {response : EngineResponse w ε} (hreturns : HandlerRuns s move)
    (hstep : engineStep s move = some (response, s')) : Moved s move response s' := by
  obtain ⟨response', s'', hstep', hmoved⟩ := engineStep_moved h hreturns
  obtain ⟨rfl, rfl⟩ := Prod.mk.inj (Option.some.inj (hstep'.symm.trans hstep))
  exact hmoved

end Moves

/-! ## Whatever the handlers do, the engine stays in range -/

/-- A configuration comes with the handlers of as many states as it says, and a handler
    returns only while one is running. -/
def Lawful (s : Engine w ε) : EngineMove w ε → Prop
  | .init config => config.stateDelegates.size = config.stateCount.toNat
  | .handlerReturns _ => s.running ≠ []
  | _ => True

section Range

variable {fsm : SimpleFSM w ε} {s s' : Engine w ε} {move : EngineMove w ε}
  {response : EngineResponse w ε}

theorem Lawful.handlerRuns (h : Lawful s move) : HandlerRuns s move := by
  cases move with
  | handlerReturns answer => exact h
  | _ => trivial

theorem InRange.finished (h : InRange fsm) (inStart : Bool) (ret : ErrorCode) :
    InRange (finished inStart ret fsm) := by
  rw [CembSimpleFsm.finished]
  split
  · exact ⟨h.block, h.initial, h.limit, h.state⟩
  · exact h

/-- An init takes a configuration whose states are there, or changes nothing. -/
theorem simpleFsmInit_cases (fsm : SimpleFSM w ε) (config : SimpleFSMConfig w ε) :
    ((simpleFsmInit fsm config).1 = .errNone ∧
      (simpleFsmInit fsm config).2
        = { fsm with config := config, state := config.initialState, started := false } ∧
      0 < config.maxTransitionCount.toNat ∧ config.initialState < config.stateCount) ∨
    ((simpleFsmInit fsm config).1 ≠ .errNone ∧ (simpleFsmInit fsm config).2 = fsm) := by
  cases hvalid : simpleFsmValidateConfig config with
  | errNone =>
      left
      rw [simpleFsmInit, hvalid]
      exact ⟨rfl, rfl, simpleFsmValidateConfig_eq_errNone hvalid⟩
  | _ =>
      right
      rw [simpleFsmInit, hvalid]
      refine ⟨?_, rfl⟩
      intro hcode
      cases hcode

theorem InRange.init (h : InRange fsm) {config : SimpleFSMConfig w ε}
    (hblock : config.stateDelegates.size = config.stateCount.toNat) :
    InRange (simpleFsmInit fsm config).2 := by
  rcases simpleFsmInit_cases fsm config with ⟨-, hinit, hmax, hinitial⟩ | ⟨-, hinit⟩
  · rw [hinit]
    exact ⟨hblock, hinitial, hmax, hinitial⟩
  · rw [hinit]
    exact h

/-- An accepted configuration is in force, and the machine in range. -/
theorem simpleFsmInit_inRange {fsm₀ : SimpleFSM w ε} {config : SimpleFSMConfig w ε}
    (hinit : simpleFsmInit fsm₀ config = (.errNone, fsm))
    (hblock : config.stateDelegates.size = config.stateCount.toNat) :
    InRange fsm ∧ fsm.config = config := by
  rcases simpleFsmInit_cases fsm₀ config with ⟨-, heq, hmax, hinitial⟩ | ⟨hcode, -⟩
  · rw [hinit] at heq
    obtain rfl : fsm = _ := heq
    exact ⟨⟨hblock, hinitial, hmax, hinitial⟩, rfl⟩
  · rw [hinit] at hcode
    exact absurd rfl hcode

/-- **ONE MOVE** leaves the machine in range. -/
theorem Moved.inRange (h : Moved s move response s') (hrange : InRange s.fsm)
    (hlawful : Lawful s move) : InRange s'.fsm := by
  cases h with
  | init config => exact hrange.init hlawful
  | deinit => exact ⟨hrange.block, hrange.initial, hrange.limit, hrange.initial⟩
  | idle _ _ => exact hrange
  | @begins call _ =>
      cases call with
      | start => exact ⟨hrange.block, hrange.initial, hrange.limit, hrange.initial⟩
      | _ => exact ⟨hrange.block, hrange.initial, hrange.limit, hrange.state⟩
  | stops _ _ _ => exact ⟨hrange.block, hrange.initial, hrange.limit, hrange.state⟩
  | leaves _ _ _ => exact ⟨hrange.block, hrange.initial, hrange.limit, hrange.state⟩
  | ends _ _ _ => exact hrange.finished _ _
  | enters _ hin => exact ⟨hrange.block, hrange.initial, hrange.limit, hin⟩
  | outOfBounds _ _ => exact hrange.finished _ _

end Range

/-- **NO NESTING LEADS ASTRAY.**  Whatever the application calls from inside its
    handlers, to any depth, a new init with another configuration included, and
    whatever states the handlers request: every handler that the engine looks up is
    there, and the current state is always one of the configuration in force. -/
theorem simple_fsm_nested_calls_in_range {fsm₀ fsm : SimpleFSM w ε}
    {config : SimpleFSMConfig w ε} (hinit : simpleFsmInit fsm₀ config = (.errNone, fsm))
    (hblock : config.stateDelegates.size = config.stateCount.toNat)
    (moves : List (EngineMove w ε)) (hmoves : Admits engineStep Lawful ⟨fsm, []⟩ moves) :
    ∃ responses s', run engineStep ⟨fsm, []⟩ moves = some (responses, s') ∧
      s'.fsm.config.stateDelegates.size = s'.fsm.config.stateCount.toNat ∧
      simpleFsmGetCurrentState s'.fsm < s'.fsm.config.stateCount := by
  have hstep : ∀ (s : Engine w ε) (move : EngineMove w ε), InRange s.fsm → Lawful s move →
      ∃ response s', engineStep s move = some (response, s') ∧ InRange s'.fsm := by
    intro s move hrange hlawful
    obtain ⟨response, s', hstep, hmoved⟩ := engineStep_moved hrange hlawful.handlerRuns
    exact ⟨response, s', hstep, hmoved.inRange hrange hlawful⟩
  obtain ⟨responses, s', hrun, hrange⟩ :=
    run_invariant_of_admits hstep moves ⟨fsm, []⟩ (simpleFsmInit_inRange hinit hblock).1 hmoves
  exact ⟨responses, s', hrun, hrange.block, hrange.state⟩

/-- Two states; an event moves the machine on from the first. -/
def relayConfig : SimpleFSMConfig 8 Unit where
  stateDelegates := ⟨2, fun s => ⟨fun _ => BitVec.ofNat 8 s, fun _ _ => 1,
    fun _ => BitVec.ofNat 8 s⟩⟩
  stateCount := 2
  initialState := 0
  maxTransitionCount := 2

/-- A machine of these two states, before its first call. -/
def relayFsm : SimpleFSM 8 Unit := ⟨false, relayConfig, 0, []⟩

/-- An event from inside the first entry handler; the exit handler on the way to the
    second state sets the machine up with only one. -/
theorem simple_fsm_nested_calls_in_range_relay :
    ∃ responses s', run engineStep ⟨relayFsm, []⟩
        [.call .start, .call (.onEvent ()), .handlerReturns 1, .init strayConfig,
          .handlerReturns 0, .handlerReturns 0] = some (responses, s') ∧
      s'.fsm.config.stateDelegates.size = s'.fsm.config.stateCount.toNat ∧
      simpleFsmGetCurrentState s'.fsm < s'.fsm.config.stateCount := by
  have hinit : simpleFsmInit relayFsm relayConfig = (.errNone, relayFsm) := rfl
  refine simple_fsm_nested_calls_in_range hinit rfl _ ?_
  exact .cons trivial rfl (.cons trivial rfl (.cons (List.cons_ne_nil _ _) rfl (.cons rfl rfl
    (.cons (List.cons_ne_nil _ _) rfl (.cons (List.cons_ne_nil _ _) rfl trivial)))))

/-! ## Every call may call so many handlers -/

/-- The response is the call of a handler. -/
def isCalled : EngineResponse w ε → Bool
  | .called _ => true
  | _ => false

/-- How many handlers a move may make the engine call, at once or later. -/
def EngineMove.mayCall (limit : Nat) : EngineMove w ε → Nat
  | .call .forceStop => 1
  | .call _ => 2 * limit + 1
  | _ => 0

/-- How many handlers are still to be called after this one, at most. -/
def RunningHandler.mayCall (limit : Nat) : RunningHandler w → Nat
  | .startEntry => 2 * limit
  | .event => 2 * limit
  | .stopExit => 0
  | .resolveExit _ _ count => 2 * (limit - count.toNat) - 1
  | .resolveEntry _ count => 2 * (limit - count.toNat) - 2

/-- The transitions counted are fewer than the limit. -/
def RunningHandler.Counts (limit : Nat) : RunningHandler w → Prop
  | .resolveExit _ _ count => count.toNat < limit ∧ count.toNat + 1 < 2 ^ w
  | .resolveEntry _ count => count.toNat < limit ∧ count.toNat + 1 < 2 ^ w
  | _ => True

/-- Every configuration allows at most `limit` transitions. -/
def LawfulWithin (limit : Nat) (s : Engine w ε) : EngineMove w ε → Prop
  | .init config => config.stateDelegates.size = config.stateCount.toNat ∧
      config.maxTransitionCount.toNat ≤ limit
  | .handlerReturns _ => s.running ≠ []
  | _ => True

/-- The configuration allows at most `limit` transitions, and the handlers that are
    running have counted fewer. -/
structure Budgeted (limit : Nat) (s : Engine w ε) : Prop where
  range : InRange s.fsm
  within : s.fsm.config.maxTransitionCount.toNat ≤ limit
  counts : ∀ handler ∈ s.running, handler.Counts limit

/-- The handlers that the calls under way may still call. -/
def mayStillCall (limit : Nat) (s : Engine w ε) : Nat :=
  (s.running.map (RunningHandler.mayCall limit)).sum

section Budget

variable {limit : Nat} {s s' : Engine w ε} {move : EngineMove w ε}
  {response : EngineResponse w ε}

theorem LawfulWithin.lawful (h : LawfulWithin limit s move) : Lawful s move := by
  cases move with
  | init config => exact h.1
  | handlerReturns answer => exact h
  | _ => trivial

/-- Where the loop goes on, a transition is left for it. -/
theorem Budgeted.loopHead (h : Budgeted limit s) {handler : RunningHandler w}
    (hhandler : handler.Counts limit) {inStart : Bool} {count : SizeT w}
    (hhead : handler.loopHead s.fsm.config = some (inStart, count, false)) :
    count.toNat < limit ∧ count.toNat + 1 < 2 ^ w ∧
      2 * (limit - count.toNat) ≤ handler.mayCall limit := by
  have hpos := h.range.limit
  have hmax := h.within
  have hfits := s.fsm.config.maxTransitionCount.isLt
  have hzero : (0 : SizeT w).toNat = 0 := SizeT.toNat_eq_zero.mpr rfl
  cases handler with
  | startEntry =>
      obtain ⟨-, rfl⟩ : true = inStart ∧ (0 : SizeT w) = count := by
        simpa [RunningHandler.loopHead] using hhead
      rw [hzero, RunningHandler.mayCall]
      omega
  | event =>
      obtain ⟨-, rfl⟩ : false = inStart ∧ (0 : SizeT w) = count := by
        simpa [RunningHandler.loopHead] using hhead
      rw [hzero, RunningHandler.mayCall]
      omega
  | resolveEntry inStart' count' =>
      obtain ⟨-, rfl, hleft⟩ : inStart' = inStart ∧ count' + 1 = count ∧
          count' + 1 < s.fsm.config.maxTransitionCount := by
        simpa [RunningHandler.loopHead] using hhead
      obtain ⟨-, hwrap⟩ := hhandler
      have hone := SizeT.toNat_one (SizeT.width_pos (BitVec.lt_def.mp h.range.state))
      have hnext : (count' + 1).toNat = count'.toNat + 1 := by
        rw [SizeT.toNat_add_of_lt (by omega), hone]
      rw [BitVec.lt_def] at hleft
      rw [hnext] at hleft ⊢
      rw [RunningHandler.mayCall]
      omega
  | stopExit => exact nomatch hhead
  | resolveExit inStart' nextState count' => exact nomatch hhead

/-- A handler returns to the one outside it, and its call may call no more. -/
theorem Budgeted.pops (h : Budgeted limit s) {handler : RunningHandler w}
    {outer : List (RunningHandler w)} {fsm : SimpleFSM w ε}
    (hrunning : s.running = handler :: outer) (hrange : InRange fsm)
    (hconfig : fsm.config = s.fsm.config) :
    Budgeted limit ⟨fsm, outer⟩ ∧ mayStillCall limit ⟨fsm, outer⟩ ≤ mayStillCall limit s := by
  have hcounts := h.counts
  rw [hrunning] at hcounts
  refine ⟨⟨hrange, ?_, (List.forall_mem_cons.mp hcounts).2⟩, ?_⟩
  · rw [hconfig]
    exact h.within
  · rw [mayStillCall, mayStillCall, hrunning, List.map_cons, List.sum_cons]
    exact Nat.le_add_left _ _

/-- **ONE MOVE** calls a handler at the expense of the calls under way, or of the call
    that it makes itself. -/
theorem Moved.budget (h : Moved s move response s') (hbudget : Budgeted limit s)
    (hlawful : LawfulWithin limit s move) :
    Budgeted limit s' ∧ mayStillCall limit s' + (if isCalled response then 1 else 0)
      ≤ mayStillCall limit s + move.mayCall limit := by
  have hrange := h.inRange hbudget.range hlawful.lawful
  have hrunning := hbudget.counts
  -- the handlers outside the one that has returned
  have houter : ∀ {handler outer}, s.running = handler :: outer →
      handler.Counts limit ∧ (∀ other ∈ outer, other.Counts limit) ∧
      mayStillCall limit s = handler.mayCall limit
        + (outer.map (RunningHandler.mayCall limit)).sum := by
    intro handler outer heq
    rw [heq, List.forall_mem_cons] at hrunning
    refine ⟨hrunning.1, hrunning.2, ?_⟩
    rw [mayStillCall, heq, List.map_cons, List.sum_cons]
  cases h with
  | init config =>
      refine ⟨⟨hrange, ?_, hrunning⟩, Nat.le_refl _⟩
      rcases simpleFsmInit_cases s.fsm config with ⟨-, hinit, -⟩ | ⟨-, hinit⟩
      · rw [hinit]
        exact hlawful.2
      · rw [hinit]
        exact hbudget.within
  | deinit => exact ⟨⟨hrange, hbudget.within, hrunning⟩, Nat.le_refl _⟩
  | idle _ _ => exact ⟨hbudget, Nat.le_add_right _ _⟩
  | @begins call _ =>
      cases call with
      | forceStop =>
          refine ⟨⟨hrange, hbudget.within, List.forall_mem_cons.mpr ⟨trivial, hrunning⟩⟩, ?_⟩
          simp [mayStillCall, firstHandler, RunningHandler.mayCall, EngineMove.mayCall, isCalled]
      | _ =>
          refine ⟨⟨hrange, hbudget.within, List.forall_mem_cons.mpr ⟨trivial, hrunning⟩⟩, ?_⟩
          simp [mayStillCall, firstHandler, RunningHandler.mayCall, EngineMove.mayCall, isCalled]
          omega
  | stops _ heq _ => exact hbudget.pops heq hrange rfl
  | @leaves outer handler _ count _ heq hhead _ =>
      obtain ⟨hcounts, hothers, hsum⟩ := houter heq
      obtain ⟨hlt, hwrap, hmay⟩ := hbudget.loopHead hcounts hhead
      refine ⟨⟨hrange, hbudget.within, List.forall_mem_cons.mpr ⟨⟨hlt, hwrap⟩, hothers⟩⟩, ?_⟩
      rw [hsum]
      show 2 * (limit - count.toNat) - 1 + (outer.map (RunningHandler.mayCall limit)).sum + 1 ≤ _
      omega
  | ends heq _ _ => exact hbudget.pops heq hrange (finished_config _ _ _)
  | @enters outer _ _ count _ heq _ =>
      obtain ⟨⟨hlt, hwrap⟩, hothers, hsum⟩ := houter heq
      refine ⟨⟨hrange, hbudget.within, List.forall_mem_cons.mpr ⟨⟨hlt, hwrap⟩, hothers⟩⟩, ?_⟩
      rw [hsum]
      show 2 * (limit - count.toNat) - 2 + (outer.map (RunningHandler.mayCall limit)).sum + 1
        ≤ 2 * (limit - count.toNat) - 1 + (outer.map (RunningHandler.mayCall limit)).sum + 0
      omega
  | outOfBounds heq _ => exact hbudget.pops heq hrange (finished_config _ _ _)

end Budget

/-- **NESTED WORK IS BOUNDED.**  However the handlers call the engine in turn and
    whatever they answer, no run calls more handlers than one for each forced stop and
    `2 * limit + 1` for each start and event, where `limit` bounds the transitions that
    the configurations allow. -/
theorem simple_fsm_nested_work_bounded {fsm₀ fsm : SimpleFSM w ε}
    {config : SimpleFSMConfig w ε} (hinit : simpleFsmInit fsm₀ config = (.errNone, fsm))
    (hblock : config.stateDelegates.size = config.stateCount.toNat) (limit : Nat)
    (hlimit : config.maxTransitionCount.toNat ≤ limit) (moves : List (EngineMove w ε))
    (hmoves : Admits engineStep (LawfulWithin limit) ⟨fsm, []⟩ moves) :
    ∃ responses s', run engineStep ⟨fsm, []⟩ moves = some (responses, s') ∧
      responses.countP isCalled ≤ (moves.map (EngineMove.mayCall limit)).sum := by
  have hstep : ∀ (s : Engine w ε) (move : EngineMove w ε), Budgeted limit s →
      LawfulWithin limit s move → ∃ response s', engineStep s move = some (response, s') ∧
        Budgeted limit s' ∧ mayStillCall limit s' + (if isCalled response then 1 else 0)
          ≤ mayStillCall limit s + move.mayCall limit := by
    intro s move hbudget hlawful
    obtain ⟨response, s', hstep, hmoved⟩ :=
      engineStep_moved hbudget.range hlawful.lawful.handlerRuns
    exact ⟨response, s', hstep, hmoved.budget hbudget hlawful⟩
  obtain ⟨hrange, rfl⟩ := simpleFsmInit_inRange hinit hblock
  have hfirst : Budgeted limit ⟨fsm, []⟩ :=
    ⟨hrange, hlimit, fun _ h => absurd h List.not_mem_nil⟩
  obtain ⟨responses, s', hrun, -, hsum⟩ :=
    run_amortised (mayStillCall limit) (EngineMove.mayCall limit) isCalled hstep moves _ hfirst
      hmoves
  refine ⟨responses, s', hrun, ?_⟩
  -- nothing is under way at first
  have hnone : mayStillCall limit (⟨fsm, []⟩ : Engine w ε) = 0 := rfl
  omega

/-- An event from inside the first entry handler: six handlers are called in all, the
    outer one leading back to its own state. -/
theorem simple_fsm_nested_work_bounded_relay :
    ∃ responses s', run engineStep ⟨relayFsm, []⟩
        [.call .start, .call (.onEvent ()), .handlerReturns 1, .handlerReturns 0,
          .handlerReturns 1, .handlerReturns 0, .handlerReturns 1, .handlerReturns 0]
        = some (responses, s') ∧
      responses.countP isCalled ≤ 10 := by
  have hinit : simpleFsmInit relayFsm relayConfig = (.errNone, relayFsm) := rfl
  refine simple_fsm_nested_work_bounded hinit rfl 2 (by decide) _ ?_
  have hruns : ∀ {handler : RunningHandler 8} {outer}, handler :: outer ≠ [] :=
    List.cons_ne_nil _ _
  exact .cons trivial rfl (.cons trivial rfl (.cons hruns rfl (.cons hruns rfl
    (.cons hruns rfl (.cons hruns rfl (.cons hruns rfl (.cons hruns rfl trivial)))))))

/-! ## Without nesting it is the plain engine -/

/-- What the handler answers whose call, after those of `past`, is `mark`. -/
def SimpleFSMConfig.answer (config : SimpleFSMConfig w ε) (past : Trace w ε) :
    Mark (SizeT w) ε → SizeT w
  | .entry state => (config.delegates state).onEntryHandler past
  | .event state event => (config.delegates state).onEventHandler past event
  | .exit state => (config.delegates state).onExitHandler past

/-- The application calls the engine from outside only, and its handlers answer as
    those of the configuration do. -/
def Unnested (s : Engine w ε) : EngineMove w ε → Prop
  | .call _ => s.running = []
  | .handlerReturns answer => s.running ≠ [] ∧
      ∃ past mark, s.fsm.trace = past ++ [mark] ∧ answer = s.fsm.config.answer past mark
  | _ => False

/-- The call on the machine that a move makes. -/
def callOf : EngineMove w ε → Option (FsmCall ε)
  | .call call => some call
  | _ => none

/-- The code that a response says. -/
def codeOf : EngineResponse w ε → Option ErrorCode
  | .returned code => some code
  | _ => none

/-- Where the engine is in a call of the plain one: the code that it owes, and the
    machine that the call ends with. -/
inductive Owes : Engine w ε → List ErrorCode → SimpleFSM w ε → Prop where
  | idle (fsm : SimpleFSM w ε) : Owes ⟨fsm, []⟩ [] fsm
  | stopping (fsm : SimpleFSM w ε) : Owes
      ⟨{ fsm with trace := fsm.trace ++ [.exit fsm.state] }, [.stopExit]⟩
      [if (fsm.config.delegates fsm.state).onExitHandler fsm.trace = fsm.state then .errNone
        else .errIncomplete]
      { fsm with trace := fsm.trace ++ [.exit fsm.state], started := false }
  | atHead {fsm fsm' : SimpleFSM w ε} {handler : RunningHandler w} {inStart limit : Bool}
      {count : SizeT w} {past : Trace w ε} {mark : Mark (SizeT w) ε} {fuel : Nat}
      {code : ErrorCode} (htrace : fsm.trace = past ++ [mark])
      (hhead : handler.loopHead fsm.config = some (inStart, count, limit))
      (hloop : loop resolveBody fuel ⟨fsm, fsm.config.answer past mark, count, limit⟩
        = some (code, fsm')) :
      Owes ⟨fsm, [handler]⟩ [code] (finished inStart code fsm')
  | exiting {fsm fsm' : SimpleFSM w ε} {inStart : Bool} {nextState count : SizeT w} {fuel : Nat}
      {code : ErrorCode} (hrequest : nextState ≠ fsm.state)
      (hloop : loop resolveBody fuel ⟨fsm, nextState, count, false⟩ = some (code, fsm')) :
      Owes ⟨{ fsm with trace := fsm.trace ++ [.exit fsm.state] },
          [.resolveExit inStart nextState count]⟩ [code] (finished inStart code fsm')

section Agreement

variable {fsm fsm' : SimpleFSM w ε} {s : Engine w ε} {owed : List ErrorCode}

theorem Unnested.lawful {move : EngineMove w ε} (h : Unnested s move) : Lawful s move := by
  cases move with
  | init config => exact h.elim
  | handlerReturns answer => exact h.1
  | _ => trivial

/-- Outside all handlers nothing is owed. -/
theorem Owes.of_idle (h : Owes ⟨fsm, []⟩ owed fsm') : owed = [] ∧ fsm' = fsm := by
  cases h
  exact ⟨rfl, rfl⟩

/-- The handler called last is the one that answers. -/
theorem Unnested.answer_eq {running : List (RunningHandler w)} {past : Trace w ε}
    {mark : Mark (SizeT w) ε} {answer : SizeT w}
    (h : Unnested ⟨fsm, running⟩ (.handlerReturns answer)) (htrace : fsm.trace = past ++ [mark]) :
    answer = fsm.config.answer past mark := by
  obtain ⟨-, past', mark', htrace', rfl⟩ := h
  obtain ⟨rfl, hmark⟩ := List.append_inj' (htrace.symm.trans htrace') rfl
  obtain rfl := List.head_eq_of_cons_eq hmark
  rfl

theorem simpleFsmStart_eq (h : InRange fsm) (hstopped : fsm.started = false) :
    simpleFsmStart fsm
      = (simpleFsmResolveTransitions (enterInitial fsm) (startPosition fsm).request).map
          fun p => (p.1, finished true p.1 p.2) := by
  have hopened : InRange { fsm with started := true, state := fsm.config.initialState } :=
    ⟨h.block, h.initial, h.limit, h.initial⟩
  rw [simpleFsmStart, if_neg (Bool.not_eq_true _ ▸ hstopped), hopened.callOnEntry]
  show (simpleFsmResolveTransitions (enterInitial fsm) (startPosition fsm).request).bind _ = _
  rw [Option.map_eq_bind]
  congr 1
  funext p
  simp [finished]

theorem simpleFsmOnEvent_eq (h : InRange fsm) (hstarted : fsm.started = true) (event : ε) :
    simpleFsmOnEvent fsm event
      = simpleFsmResolveTransitions (handleEvent fsm event) (eventPosition fsm event).request := by
  rw [simpleFsmOnEvent, if_pos hstarted, h.callOnEvent]
  rfl

/-- The first handler of a call, or its code. -/
theorem engineCall_owes (h : InRange fsm) (call : FsmCall ε) :
    ∃ response s' code fsm' owed, engineCall fsm [] call = some (response, s') ∧
      simpleFsmStep fsm call = some (code, fsm') ∧ InRange fsm' ∧
      Owes s' owed fsm' ∧ (codeOf response).toList ++ owed = [code] := by
  by_cases hacts : ActsOn fsm.started call
  · obtain ⟨response, s', hcall, hmoved⟩ : ∃ response s',
        engineCall fsm [] call = some (response, s') ∧ Moved ⟨fsm, []⟩ (.call call) response s' :=
      engineCall_moved h call
    cases hmoved with
    | idle hidle _ => exact absurd hacts hidle
    | begins _ =>
        cases call with
        | start =>
            have hbegun : InRange (enterInitial fsm) := ⟨h.block, h.initial, h.limit, h.initial⟩
            obtain ⟨⟨code, fsm'⟩, hresolve, hended⟩ :=
              simpleFsmResolveTransitions_ended hbegun (startPosition fsm).request
            refine ⟨_, _, code, finished true code fsm', [code], hcall, ?_,
              hended.resolved.range.finished _ _, .atHead rfl rfl hresolve, rfl⟩
            show simpleFsmStart fsm = _
            rw [simpleFsmStart_eq h hacts, hresolve]
            rfl
        | onEvent event =>
            have hbegun : InRange (handleEvent fsm event) := ⟨h.block, h.initial, h.limit, h.state⟩
            obtain ⟨⟨code, fsm'⟩, hresolve, hended⟩ :=
              simpleFsmResolveTransitions_ended hbegun (eventPosition fsm event).request
            refine ⟨_, _, code, finished false code fsm', [code], hcall, ?_,
              hended.resolved.range.finished _ _, .atHead rfl rfl hresolve, rfl⟩
            show simpleFsmOnEvent fsm event = _
            rw [simpleFsmOnEvent_eq h hacts, hresolve]
            rfl
        | forceStop =>
            refine ⟨_, _, _, _, _, hcall, simpleFsmForceStop_eq h hacts,
              ⟨h.block, h.initial, h.limit, h.state⟩, .stopping fsm, rfl⟩
  · -- neither engine calls a handler
    cases call with
    | start =>
        have hstarted : fsm.started = true := Bool.eq_true_of_not_eq_false hacts
        exact ⟨_, _, _, fsm, [], if_pos hstarted, if_pos hstarted, h, .idle fsm, rfl⟩
    | onEvent event =>
        exact ⟨_, _, _, fsm, [], if_neg hacts, if_neg hacts, h, .idle fsm, rfl⟩
    | forceStop =>
        exact ⟨_, _, _, fsm, [], if_neg hacts, if_neg hacts, h, .idle fsm, rfl⟩

/-- At the head of the loop both engines go on together. -/
theorem resolveFrom_owes (h : InRange fsm) {inStart limit : Bool} {nextState count : SizeT w}
    {fuel : Nat} {code : ErrorCode}
    (hloop : loop resolveBody fuel ⟨fsm, nextState, count, limit⟩ = some (code, fsm')) :
    ∃ response s' owed, resolveFrom fsm [] inStart nextState count limit = some (response, s') ∧
      Owes s' owed (finished inStart code fsm') ∧
      (codeOf response).toList ++ owed = [code] := by
  by_cases hgo : nextState ≠ fsm.state ∧ limit = false
  · obtain ⟨hrequest, rfl⟩ := hgo
    refine ⟨.called (.exit fsm.state), _, [code], ?_, .exiting hrequest hloop, rfl⟩
    rw [resolveFrom, if_pos ⟨hrequest, rfl⟩, h.callOnExit]
    rfl
  · cases fuel with
    | zero => exact nomatch hloop
    | succ fuel =>
        rw [loop_of_done (by rw [resolveBody, if_neg hgo])] at hloop
        obtain ⟨rfl, rfl⟩ := Prod.mk.inj (Option.some.inj hloop)
        exact ⟨_, _, [], if_neg hgo, .idle _, rfl⟩

/-- A handler that returns to the head of the loop. -/
theorem engineResume_loopHead {outer : List (RunningHandler w)} {handler : RunningHandler w}
    {inStart limit : Bool} {count : SizeT w}
    (hhead : handler.loopHead fsm.config = some (inStart, count, limit)) (answer : SizeT w) :
    engineResume fsm outer answer handler
      = resolveFrom fsm outer inStart answer count limit := by
  cases handler with
  | stopExit => exact nomatch hhead
  | resolveExit inStart' nextState count' => exact nomatch hhead
  | _ =>
      obtain ⟨rfl, heq⟩ := Prod.mk.inj (Option.some.inj hhead)
      obtain ⟨rfl, rfl⟩ := Prod.mk.inj heq
      rfl

/-- The rest of a round of the loop, from the exit handler on. -/
theorem resolveBody_enters (h : InRange fsm) {nextState count : SizeT w}
    (hrequest : nextState ≠ fsm.state) {next : SizeT w}
    (hnext : target fsm.config ⟨fsm.state, nextState, fsm.trace⟩ = next)
    (hin : next < fsm.config.stateCount) :
    resolveBody ⟨fsm, nextState, count, false⟩ = some (.again
      ⟨{ fsm with state := next, trace := fsm.trace ++ [.exit fsm.state] ++ [.entry next] },
        fsm.config.answer (fsm.trace ++ [.exit fsm.state]) (.entry next), count + 1,
        count + 1 ≥ fsm.config.maxTransitionCount⟩) := by
  subst hnext
  let between : SimpleFSM w ε :=
    { fsm with
      state := target fsm.config ⟨fsm.state, nextState, fsm.trace⟩
      trace := fsm.trace ++ [.exit fsm.state] }
  have hbetween : InRange between := ⟨h.block, h.initial, h.limit, hin⟩
  rw [resolveBody, if_pos ⟨hrequest, rfl⟩, h.callOnExit]
  refine (if_neg (BitVec.not_le.mpr hin)).trans ?_
  show (callOnEntry between).bind _ = _
  rw [hbetween.callOnEntry]
  rfl

/-- **A HANDLER RETURNS**: both engines go on to the next one, or to the same code. -/
theorem Owes.resume (h : Owes s owed fsm') (hrange : InRange s.fsm) {answer : SizeT w}
    (hmove : Unnested s (.handlerReturns answer)) :
    ∃ response s' owed', engineStep s (.handlerReturns answer) = some (response, s') ∧
      Owes s' owed' fsm' ∧ (codeOf response).toList ++ owed' = owed := by
  cases h with
  | idle fsm => exact absurd rfl hmove.1
  | stopping fsm =>
      obtain rfl := hmove.answer_eq rfl
      exact ⟨_, _, [], rfl, .idle _, rfl⟩
  | atHead htrace hhead hloop =>
      obtain rfl := hmove.answer_eq htrace
      rw [engineStep, engineResume_loopHead hhead]
      exact resolveFrom_owes hrange hloop
  | @exiting fsm fsm' inStart nextState count fuel code hrequest hloop =>
      obtain rfl := hmove.answer_eq rfl
      have hbefore : InRange fsm := ⟨hrange.block, hrange.initial, hrange.limit, hrange.state⟩
      obtain ⟨response, s', hresume, hmoved⟩ := engineStep_moved hrange hmove.lawful.handlerRuns
      cases fuel with
      | zero => exact nomatch hloop
      | succ fuel =>
          refine ⟨response, s', ?_⟩
          rw [hresume]
          cases hmoved with
          | outOfBounds heq hout =>
              obtain ⟨hhandler, rfl⟩ := List.cons.inj heq
              obtain ⟨rfl, rfl, rfl⟩ := RunningHandler.resolveExit.inj hhandler
              rw [loop_of_done (resolveBody_outOfBounds hbefore ⟨hrequest, rfl⟩ hout)] at hloop
              obtain ⟨rfl, rfl⟩ := Prod.mk.inj (Option.some.inj hloop)
              exact ⟨[], rfl, .idle _, rfl⟩
          | enters heq hin =>
              obtain ⟨hhandler, rfl⟩ := List.cons.inj heq
              obtain ⟨rfl, rfl, rfl⟩ := RunningHandler.resolveExit.inj hhandler
              rw [loop_of_again (resolveBody_enters hbefore hrequest rfl hin)] at hloop
              exact ⟨[code], rfl, .atHead rfl rfl hloop, rfl⟩
          | stops _ heq _ => exact nomatch (List.cons.inj heq).1
          | leaves heq hhead _ =>
              obtain ⟨rfl, -⟩ := List.cons.inj heq
              exact nomatch hhead
          | ends heq hhead _ =>
              obtain ⟨rfl, -⟩ := List.cons.inj heq
              exact nomatch hhead

theorem filterMap_codeOf_cons (response : EngineResponse w ε)
    (responses : List (EngineResponse w ε)) :
    (response :: responses).filterMap codeOf
      = (codeOf response).toList ++ responses.filterMap codeOf := by
  cases response <;> rfl

/-- **EVERY RUN** without nesting is one of the plain engine, up to the code that is
    still owed. -/
theorem Owes.run (moves : List (EngineMove w ε)) (h : Owes s owed fsm') (hrange : InRange s.fsm)
    (hafter : InRange fsm') (hmoves : Admits engineStep Unnested s moves) :
    ∃ responses s' codes fsm'' owed', Transducer.run engineStep s moves = some (responses, s') ∧
      Transducer.run simpleFsmStep fsm' (moves.filterMap callOf) = some (codes, fsm'') ∧
      Owes s' owed' fsm'' ∧ responses.filterMap codeOf ++ owed' = owed ++ codes := by
  induction moves generalizing s owed fsm' with
  | nil => exact ⟨[], s, [], fsm', owed, rfl, rfl, h, (List.append_nil _).symm⟩
  | cons move moves ih =>
      obtain ⟨hmove, hrest⟩ := hmoves
      have hnext : ∀ {response s₁}, engineStep s move = some (response, s₁) → InRange s₁.fsm := by
        intro response s₁ hstep
        have hmoved := moved_of_engineStep hrange hmove.lawful.handlerRuns hstep
        exact hmoved.inRange hrange hmove.lawful
      cases move with
      | init config => exact hmove.elim
      | deinit => exact hmove.elim
      | call call =>
          -- from outside: no code is owed
          obtain ⟨fsm, running⟩ := s
          obtain rfl : running = [] := hmove
          obtain ⟨rfl, rfl⟩ := h.of_idle
          obtain ⟨response, s₁, code, fsm₁, owed₁, hstep, hcall, hafter₁, h₁, howed⟩ :=
            engineCall_owes hrange call
          have hfirst : engineStep ⟨fsm', []⟩ (.call call) = some (response, s₁) := hstep
          obtain ⟨responses, s', codes, fsm'', owed', hrun, hplain, h', hcodes⟩ :=
            ih h₁ (hnext hfirst) hafter₁ (hrest _ _ hfirst)
          refine ⟨response :: responses, s', code :: codes, fsm'', owed', ?_, ?_, h', ?_⟩
          · rw [run_cons hfirst, hrun]
            rfl
          · show Transducer.run simpleFsmStep _ (call :: moves.filterMap callOf) = _
            rw [run_cons hcall, hplain]
            rfl
          · rw [filterMap_codeOf_cons, List.append_assoc, hcodes, ← List.append_assoc, howed]
            rfl
      | handlerReturns answer =>
          obtain ⟨response, s₁, owed₁, hstep, h₁, howed⟩ := h.resume hrange hmove
          obtain ⟨responses, s', codes, fsm'', owed', hrun, hplain, h', hcodes⟩ :=
            ih h₁ (hnext hstep) hafter (hrest _ _ hstep)
          refine ⟨response :: responses, s', codes, fsm'', owed', ?_, hplain, h', ?_⟩
          · rw [run_cons hstep, hrun]
            rfl
          · rw [filterMap_codeOf_cons, List.append_assoc, hcodes, ← List.append_assoc, howed]

/-- While a code is owed, the handler called last has an answer. -/
theorem Owes.exists_answer (h : Owes s owed fsm') (hrunning : s.running ≠ []) :
    ∃ answer, Unnested s (.handlerReturns answer) := by
  cases h with
  | idle fsm => exact absurd rfl hrunning
  | stopping fsm => exact ⟨_, hrunning, _, _, rfl, rfl⟩
  | atHead htrace _ _ => exact ⟨_, hrunning, _, _, htrace, rfl⟩
  | exiting _ _ => exact ⟨_, hrunning, _, _, rfl, rfl⟩

/-- The return of a handler leads to the call of another one, or to a code. -/
theorem Moved.called_or_returned {answer : SizeT w} {response : EngineResponse w ε}
    {s' : Engine w ε} (h : Moved s (.handlerReturns answer) response s') :
    (codeOf response).toList.length + (if isCalled response then 1 else 0) = 1 := by
  cases h <;> rfl

theorem Unnested.lawfulWithin {limit : Nat} {move : EngineMove w ε} (h : Unnested s move) :
    LawfulWithin limit s move := by
  cases move with
  | init config => exact h.elim
  | handlerReturns answer => exact h.1
  | _ => trivial

/-- The calls `calls` of the plain engine are a run without nesting, from a state that
    owes `owed`. -/
def Embeds (s : Engine w ε) (owed : List ErrorCode) (fsm' : SimpleFSM w ε)
    (calls : List (FsmCall ε)) : Prop :=
  ∃ moves responses codes fsm'', Admits engineStep Unnested s moves ∧
    moves.filterMap callOf = calls ∧
    Transducer.run engineStep s moves = some (responses, ⟨fsm'', []⟩) ∧
    Transducer.run simpleFsmStep fsm' calls = some (codes, fsm'') ∧
    responses.filterMap codeOf = owed ++ codes

/-- The handlers that are running return, one after the other. -/
theorem Owes.embeds {limit : Nat} {calls : List (FsmCall ε)} (h : Owes s owed fsm')
    (hbudget : Budgeted limit s) (hidle : Embeds ⟨fsm', []⟩ [] fsm' calls) :
    Embeds s owed fsm' calls := by
  induction hmeasure : mayStillCall limit s + owed.length using Nat.strongRecOn
    generalizing s owed with
  | ind n ih =>
      by_cases hrunning : s.running = []
      · obtain ⟨fsm, running⟩ := s
        obtain rfl : running = [] := hrunning
        obtain ⟨rfl, rfl⟩ := h.of_idle
        exact hidle
      · obtain ⟨answer, hmove⟩ := h.exists_answer hrunning
        obtain ⟨response, s₁, owed₁, hstep, h₁, howed⟩ := h.resume hbudget.range hmove
        have hmoved := moved_of_engineStep hbudget.range hmove.lawful.handlerRuns hstep
        obtain ⟨hbudget₁, hspent⟩ := hmoved.budget hbudget hmove.lawfulWithin
        -- either a handler is called at the expense of the call, or the code is paid
        have hless : mayStillCall limit s₁ + owed₁.length < n := by
          have hone := hmoved.called_or_returned
          have hlength := congrArg List.length howed
          rw [List.length_append] at hlength
          have hfree : (EngineMove.handlerReturns answer : EngineMove w ε).mayCall limit = 0 := rfl
          omega
        obtain ⟨moves, responses, codes, fsm'', hadm, hcalls, hrun, hplain, hcodes⟩ :=
          ih _ hless h₁ hbudget₁ rfl
        refine ⟨.handlerReturns answer :: moves, response :: responses, codes, fsm'',
          .cons hmove hstep hadm, hcalls, ?_, hplain, ?_⟩
        · rw [run_cons hstep, hrun]
          rfl
        · rw [filterMap_codeOf_cons, hcodes, ← List.append_assoc, howed]

/-- **EVERY SEQUENCE OF CALLS** of the plain engine is a run without nesting. -/
theorem embeds_calls (calls : List (FsmCall ε)) (h : InRange fsm) :
    Embeds ⟨fsm, []⟩ [] fsm calls := by
  induction calls generalizing fsm with
  | nil => exact ⟨[], [], [], fsm, trivial, rfl, rfl, rfl, rfl⟩
  | cons call calls ih =>
      obtain ⟨response, s₁, code, fsm₁, owed₁, hstep, hcall, hafter, h₁, howed⟩ :=
        engineCall_owes h call
      have hfirst : engineStep ⟨fsm, []⟩ (.call call) = some (response, s₁) := hstep
      have hbudget : Budgeted fsm.config.maxTransitionCount.toNat ⟨fsm, []⟩ :=
        ⟨h, Nat.le_refl _, fun _ hmem => absurd hmem List.not_mem_nil⟩
      have hmove : Unnested ⟨fsm, []⟩ (.call call) := rfl
      have hmoved := moved_of_engineStep h hmove.lawful.handlerRuns hfirst
      obtain ⟨hbudget₁, -⟩ := hmoved.budget hbudget hmove.lawfulWithin
      obtain ⟨moves, responses, codes, fsm'', hadm, hcalls, hrun, hplain, hcodes⟩ :=
        h₁.embeds hbudget₁ (ih hafter)
      refine ⟨.call call :: moves, response :: responses, code :: codes, fsm'',
        .cons hmove hfirst hadm, congrArg (call :: ·) hcalls, ?_, ?_, ?_⟩
      · rw [run_cons hfirst, hrun]
        rfl
      · rw [run_cons hcall, hplain]
        rfl
      · rw [filterMap_codeOf_cons, hcodes, ← List.append_assoc, howed]
        rfl

end Agreement

/-- **WITHOUT NESTING IT IS THE PLAIN ENGINE.**  Every sequence of calls on the plain
    engine is a run of this one in which no handler calls the engine, with the same codes
    and the same machine in the end; and every such run, cut anywhere, is a sequence of
    calls on the plain engine: it has returned its codes, but for the last one where a
    handler is still running. -/
theorem simple_fsm_unnested_calls_agree {fsm₀ fsm : SimpleFSM w ε}
    {config : SimpleFSMConfig w ε} (hinit : simpleFsmInit fsm₀ config = (.errNone, fsm))
    (hblock : config.stateDelegates.size = config.stateCount.toNat) :
    (∀ calls, ∃ moves responses fsm', Admits engineStep Unnested ⟨fsm, []⟩ moves ∧
      moves.filterMap callOf = calls ∧
      run engineStep ⟨fsm, []⟩ moves = some (responses, ⟨fsm', []⟩) ∧
      run simpleFsmStep fsm calls = some (responses.filterMap codeOf, fsm')) ∧
    (∀ moves, Admits engineStep Unnested ⟨fsm, []⟩ moves →
      ∃ responses s' codes fsm', run engineStep ⟨fsm, []⟩ moves = some (responses, s') ∧
        run simpleFsmStep fsm (moves.filterMap callOf) = some (codes, fsm') ∧
        ((s' = ⟨fsm', []⟩ ∧ codes = responses.filterMap codeOf) ∨
          (s'.running ≠ [] ∧ ∃ code, codes = responses.filterMap codeOf ++ [code]))) := by
  have hrange := (simpleFsmInit_inRange hinit hblock).1
  constructor
  · intro calls
    obtain ⟨moves, responses, codes, fsm', hadm, hcalls, hrun, hplain, hcodes⟩ :=
      embeds_calls calls hrange
    rw [List.nil_append] at hcodes
    rw [← hcodes] at hplain
    exact ⟨moves, responses, fsm', hadm, hcalls, hrun, hplain⟩
  · intro moves hmoves
    obtain ⟨responses, s', codes, fsm', owed, hrun, hplain, howes, hcodes⟩ :=
      (Owes.idle fsm).run moves hrange hrange hmoves
    rw [List.nil_append] at hcodes
    refine ⟨responses, s', codes, fsm', hrun, hplain, ?_⟩
    cases howes with
    | idle _ =>
        rw [List.append_nil] at hcodes
        exact .inl ⟨rfl, hcodes.symm⟩
    | stopping _ => exact .inr ⟨List.cons_ne_nil _ _, _, hcodes.symm⟩
    | atHead _ _ _ => exact .inr ⟨List.cons_ne_nil _ _, _, hcodes.symm⟩
    | exiting _ _ => exact .inr ⟨List.cons_ne_nil _ _, _, hcodes.symm⟩

/-- The two states without nesting. -/
theorem simple_fsm_unnested_calls_agree_relay :
    (∀ calls, ∃ moves responses fsm', Admits engineStep Unnested ⟨relayFsm, []⟩ moves ∧
      moves.filterMap callOf = calls ∧
      run engineStep ⟨relayFsm, []⟩ moves = some (responses, ⟨fsm', []⟩) ∧
      run simpleFsmStep relayFsm calls = some (responses.filterMap codeOf, fsm')) ∧
    (∀ moves, Admits engineStep Unnested ⟨relayFsm, []⟩ moves →
      ∃ responses s' codes fsm', run engineStep ⟨relayFsm, []⟩ moves = some (responses, s') ∧
        run simpleFsmStep relayFsm (moves.filterMap callOf) = some (codes, fsm') ∧
        ((s' = ⟨fsm', []⟩ ∧ codes = responses.filterMap codeOf) ∨
          (s'.running ≠ [] ∧ ∃ code, codes = responses.filterMap codeOf ++ [code]))) := by
  have hinit : simpleFsmInit relayFsm relayConfig = (.errNone, relayFsm) := rfl
  exact simple_fsm_unnested_calls_agree hinit rfl

end CembSimpleFsm
