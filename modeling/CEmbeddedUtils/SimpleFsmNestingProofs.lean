import CEmbeddedUtils.SimpleFsmReentryProofs

/-! # The simple state machine — what calls from inside handlers break

    The engine tells by `started` whether it may call a handler, but asks only
    at the beginning of a call.  A transition that is under way when a handler
    calls the engine goes on afterwards, whatever the call has done.

    * A FORCED STOP from inside a handler is meant to be final.  It is not
      where it comes from inside the exit handler of a transition: the target
      is entered all the same (`simple_fsm_nested_stop_final_iff`).
    * ENTRIES AND EXITS pair in a call with others nested in it exactly when no
      exit handler passes an event on or forces a stop, and no handler asks for
      a transition after a stop (`simple_fsm_nested_pairing_iff`). -/

namespace CembSimpleFsm

open Pairing Transducer

variable {w : Nat} {ε : Type}

/-! ## A run goes on -/

/-- The move is the return of a handler. -/
def isHandlerReturn : EngineMove w ε → Bool
  | .handlerReturns _ => true
  | _ => false

section Moves

variable {s s' : Engine w ε} {move : EngineMove w ε} {response : EngineResponse w ε}

/-- A handler returns, and perhaps another one is called in its place. -/
theorem Moved.depth (h : Moved s move response s') :
    s.running.length ≤ s'.running.length + (if isHandlerReturn move then 1 else 0) := by
  cases h with
  | init _ => exact Nat.le_refl _
  | deinit => exact Nat.le_refl _
  | idle _ _ => exact Nat.le_refl _
  | begins _ => exact Nat.le_succ _
  | stops _ heq _ => rw [heq]; exact Nat.le_refl _
  | leaves heq _ _ => rw [heq]; exact Nat.le_succ _
  | ends heq _ _ => rw [heq]; exact Nat.le_refl _
  | enters heq _ => rw [heq]; exact Nat.le_succ _
  | outOfBounds heq _ => rw [heq]; exact Nat.le_refl _

theorem finished_trace (inStart : Bool) (ret : ErrorCode) (fsm : SimpleFSM w ε) :
    (finished inStart ret fsm).trace = fsm.trace := by
  rw [finished]
  split <;> rfl

/-- The calls of handlers are never forgotten. -/
theorem Moved.grows (h : Moved s move response s') : s.fsm.trace <+: s'.fsm.trace := by
  cases h with
  | init config =>
      have htrace : s.fsm.trace = (simpleFsmInit s.fsm config).2.trace := by
        rcases simpleFsmInit_cases s.fsm config with ⟨-, hinit, -⟩ | ⟨-, hinit⟩
        · rw [hinit]
        · rw [hinit]
      exact ⟨[], (List.append_nil _).trans htrace⟩
  | deinit => exact List.prefix_refl _
  | idle _ _ => exact List.prefix_refl _
  | @begins call _ => cases call <;> exact List.prefix_append _ _
  | stops _ _ _ => exact List.prefix_refl _
  | leaves _ _ _ => exact List.prefix_append _ _
  | ends _ _ _ => exact ⟨[], (List.append_nil _).trans (finished_trace _ _ _).symm⟩
  | enters _ _ => exact List.prefix_append _ _
  | outOfBounds _ _ => exact ⟨[], (List.append_nil _).trans (finished_trace _ _ _).symm⟩

end Moves

/-! ## A forced stop from inside a handler -/

/-- The moves that leave a stopped machine alone: events and stops, and handlers that
    return the state the machine is in. -/
def LeavesStopped (state : SizeT w) : EngineMove w ε → Prop
  | .call .start => False
  | .call _ => True
  | .handlerReturns answer => answer = state
  | _ => False

/-- The exit handler of a transition to a state that there is. -/
def RunningHandler.Pending (stateCount : SizeT w) : RunningHandler w → Prop
  | .resolveExit _ nextState _ => nextState < stateCount
  | _ => False

section Stopped

variable {fsm : SimpleFSM w ε} {moves : List (EngineMove w ε)}

theorem finished_of_stopped (hstopped : fsm.started = false) (inStart : Bool)
    (ret : ErrorCode) : finished inStart ret fsm = fsm := by
  obtain ⟨started, config, state, trace⟩ := fsm
  obtain rfl : started = false := hstopped
  rw [finished]
  split <;> rfl

/-- A stopped machine stays stopped, also where it calls handlers. -/
theorem Moved.stays_stopped {s s' : Engine w ε} {move : EngineMove w ε}
    {response : EngineResponse w ε} (h : Moved s move response s') {state : SizeT w}
    (hmove : LeavesStopped state move) (hstopped : s.fsm.started = false) :
    s'.fsm.started = false := by
  cases h with
  | init _ => exact hmove.elim
  | deinit => exact hmove.elim
  | idle _ _ => exact hstopped
  | @begins call hacts =>
      cases call with
      | start => exact hmove.elim
      | _ =>
          rw [ActsOn, hstopped] at hacts
          cases hacts
  | stops _ _ _ => rfl
  | leaves _ _ _ => exact hstopped
  | ends _ _ _ => rw [finished_of_stopped hstopped]; exact hstopped
  | enters _ _ => exact hstopped
  | outOfBounds _ _ => rw [finished_of_stopped hstopped]; exact hstopped

/-- As many handlers return as there are, and no configuration comes: the run is defined,
    and the machine is stopped at its end. -/
theorem exists_run_stopped {s : Engine w ε} (hrange : InRange s.fsm)
    (hstopped : s.fsm.started = false) {state : SizeT w}
    (hmoves : ∀ move ∈ moves, LeavesStopped state move)
    (hreturns : moves.countP isHandlerReturn ≤ s.running.length) :
    ∃ responses s', run engineStep s moves = some (responses, s') ∧ s'.fsm.started = false := by
  induction moves generalizing s with
  | nil => exact ⟨[], s, rfl, hstopped⟩
  | cons move moves ih =>
      obtain ⟨hmove, hlater⟩ := List.forall_mem_cons.mp hmoves
      rw [List.countP_cons] at hreturns
      have hlawful : Lawful s move := by
        cases move with
        | init config => exact hmove.elim
        | handlerReturns answer =>
            refine List.ne_nil_of_length_pos ?_
            exact Nat.lt_of_lt_of_le (Nat.succ_pos _) hreturns
        | _ => trivial
      obtain ⟨response, s₁, hstep, hmoved⟩ := engineStep_moved hrange hlawful.handlerRuns
      have hdepth := hmoved.depth
      obtain ⟨responses, s', hrun, hend⟩ := ih (hmoved.inRange hrange hlawful)
        (hmoved.stays_stopped hmove hstopped) hlater (by omega)
      exact ⟨response :: responses, s', by rw [run_cons hstep, hrun]; rfl, hend⟩

/-- A handler of a stopped machine that returns the current state ends its call, unless a
    transition is pending there: then the target is entered. -/
theorem return_of_stopped (hrange : InRange fsm) (hstopped : fsm.started = false)
    (handler : RunningHandler w) (outer : List (RunningHandler w)) :
    (¬ handler.Pending fsm.config.stateCount ∧ ∃ code,
      engineStep ⟨fsm, handler :: outer⟩ (.handlerReturns fsm.state)
        = some (.returned code, ⟨fsm, outer⟩)) ∨
    (∃ inStart nextState count, handler = .resolveExit inStart nextState count ∧
      nextState < fsm.config.stateCount ∧ ∃ s',
      engineStep ⟨fsm, handler :: outer⟩ (.handlerReturns fsm.state)
        = some (.called (.entry nextState), s')) := by
  have hruns : HandlerRuns ⟨fsm, handler :: outer⟩
      (.handlerReturns fsm.state : EngineMove w ε) := List.cons_ne_nil _ _
  obtain ⟨response, s', hstep, hmoved⟩ :=
    engineStep_moved (s := ⟨fsm, handler :: outer⟩) hrange hruns
  rw [hstep]
  cases hmoved with
  | stops _ heq code =>
      obtain ⟨rfl, rfl⟩ := List.cons.inj heq
      refine .inl ⟨id, code, ?_⟩
      obtain ⟨started, config, state, trace⟩ := fsm
      obtain rfl : started = false := hstopped
      rfl
  | leaves _ _ hrequest => exact absurd rfl hrequest
  | ends heq hhead _ =>
      obtain ⟨rfl, rfl⟩ := List.cons.inj heq
      refine .inl ⟨?_, _, by rw [finished_of_stopped hstopped]⟩
      cases handler with
      | resolveExit inStart nextState count => exact nomatch hhead
      | _ => exact id
  | enters heq hin =>
      obtain ⟨rfl, rfl⟩ := List.cons.inj heq
      rw [requested, if_pos rfl] at hin ⊢
      exact .inr ⟨_, _, _, rfl, hin, _, rfl⟩
  | outOfBounds heq hout =>
      obtain ⟨rfl, rfl⟩ := List.cons.inj heq
      rw [requested, if_pos rfl] at hout
      exact .inl ⟨BitVec.not_lt.mpr hout, _, by rw [finished_of_stopped hstopped]⟩

/-- What a run on the stopped machine `fsm` comes to, in which the handlers `returning`
    return inside the handlers `left`. -/
structure StoppedRun (fsm : SimpleFSM w ε) (returning left : List (RunningHandler w))
    (responses : List (EngineResponse w ε)) (s' : Engine w ε) : Prop where
  silent_iff : (∀ mark, .called mark ∉ responses) ↔
    ∀ handler ∈ returning, ¬ handler.Pending fsm.config.stateCount
  silent_end : (∀ mark, .called mark ∉ responses) → s' = ⟨fsm, left⟩
  enters : ∀ before inStart nextState count behind,
    returning = before ++ .resolveExit inStart nextState count :: behind →
    (∀ handler ∈ before, ¬ handler.Pending fsm.config.stateCount) →
    nextState < fsm.config.stateCount → .called (.entry nextState) ∈ responses
  stopped : s'.fsm.started = false

section StoppedRuns

variable {returning left : List (RunningHandler w)} {responses : List (EngineResponse w ε)}
  {s' : Engine w ε}

theorem silent_returned {code : ErrorCode} :
    (∀ mark, .called mark ∉ .returned code :: responses) ↔
      ∀ mark, .called mark ∉ responses := by
  simp

/-- Before anything is done, nothing is called. -/
theorem StoppedRun.refl (hstopped : fsm.started = false) (left : List (RunningHandler w)) :
    StoppedRun fsm [] left [] ⟨fsm, left⟩ where
  silent_iff := ⟨fun _ _ h => absurd h List.not_mem_nil, fun _ _ => List.not_mem_nil⟩
  silent_end := fun _ => rfl
  enters := fun _ _ _ _ _ hsplit =>
    absurd hsplit (List.append_ne_nil_of_right_ne_nil _ (List.cons_ne_nil _ _)).symm
  stopped := hstopped

/-- A call that is not acted on comes first. -/
theorem StoppedRun.idle (h : StoppedRun fsm returning left responses s') (code : ErrorCode) :
    StoppedRun fsm returning left (.returned code :: responses) s' where
  silent_iff := silent_returned.trans h.silent_iff
  silent_end := fun hnone => h.silent_end (silent_returned.mp hnone)
  enters := fun _ _ _ _ _ hsplit hclear hin =>
    List.mem_cons_of_mem _ (h.enters _ _ _ _ _ hsplit hclear hin)
  stopped := h.stopped

/-- A handler without a pending transition returns first. -/
theorem StoppedRun.returns (h : StoppedRun fsm returning left responses s')
    {handler : RunningHandler w} (hclear : ¬ handler.Pending fsm.config.stateCount)
    (code : ErrorCode) :
    StoppedRun fsm (handler :: returning) left (.returned code :: responses) s' := by
  constructor
  · rw [silent_returned, h.silent_iff, List.forall_mem_cons]
    exact ⟨fun hnone => ⟨hclear, hnone⟩, fun hnone => hnone.2⟩
  · exact (h.idle code).silent_end
  · intro before inStart nextState count behind hsplit hbefore hin
    cases before with
    | nil =>
        obtain ⟨rfl, -⟩ := List.cons.inj hsplit
        exact absurd hin hclear
    | cons first before =>
        obtain ⟨-, hrest⟩ := List.cons.inj hsplit
        exact (h.idle code).enters _ _ _ _ _ hrest (List.forall_mem_cons.mp hbefore).2 hin
  · exact h.stopped

/-- The handler of a pending transition returns first: its target is entered. -/
theorem StoppedRun.entered {inStart : Bool} {nextState count : SizeT w}
    (hin : nextState < fsm.config.stateCount) (hstopped : s'.fsm.started = false) :
    StoppedRun fsm (.resolveExit inStart nextState count :: returning) left
      (.called (.entry nextState) :: responses) s' := by
  constructor
  · refine ⟨fun hnone => absurd List.mem_cons_self (hnone _), fun hnone => ?_⟩
    exact absurd hin (hnone _ List.mem_cons_self)
  · exact fun hnone => absurd List.mem_cons_self (hnone _)
  · intro before inStart' nextState' count' behind hsplit hbefore _
    cases before with
    | nil =>
        obtain ⟨-, rfl, -⟩ := RunningHandler.resolveExit.inj (List.cons.inj hsplit).1
        exact List.mem_cons_self
    | cons first before =>
        obtain ⟨rfl, -⟩ := List.cons.inj hsplit
        exact absurd hin (hbefore _ List.mem_cons_self)
  · exact hstopped

end StoppedRuns

/-- **A STOPPED MACHINE**, with handlers still running. -/
theorem run_of_stopped (hrange : InRange fsm) (hstopped : fsm.started = false)
    (running : List (RunningHandler w)) (hmoves : ∀ move ∈ moves, LeavesStopped fsm.state move)
    (hreturns : moves.countP isHandlerReturn ≤ running.length) :
    ∃ responses s', run engineStep ⟨fsm, running⟩ moves = some (responses, s') ∧
      StoppedRun fsm (running.take (moves.countP isHandlerReturn))
        (running.drop (moves.countP isHandlerReturn)) responses s' := by
  induction moves generalizing running with
  | nil => exact ⟨[], _, rfl, .refl hstopped running⟩
  | cons move moves ih =>
      obtain ⟨responses, s', hrun, hend⟩ :=
        exists_run_stopped (s := ⟨fsm, running⟩) hrange hstopped hmoves hreturns
      obtain ⟨hmove, hlater⟩ := List.forall_mem_cons.mp hmoves
      cases move with
      | init config => exact hmove.elim
      | deinit => exact hmove.elim
      | call call =>
          have hidle : ¬ ActsOn fsm.started call := by
            cases call with
            | start => exact hmove.elim
            | _ => rw [ActsOn, hstopped]; exact Bool.false_ne_true
          obtain ⟨code, hstep⟩ : ∃ code, engineStep ⟨fsm, running⟩ (.call call)
              = some (.returned code, ⟨fsm, running⟩) := engineCall_idle hidle
          obtain ⟨responses, s', hrun, h⟩ := ih running hlater hreturns
          exact ⟨.returned code :: responses, s', by rw [run_cons hstep, hrun]; rfl, h.idle code⟩
      | handlerReturns answer =>
          obtain rfl : answer = fsm.state := hmove
          have hcount : (EngineMove.handlerReturns fsm.state :: moves).countP isHandlerReturn
              = moves.countP isHandlerReturn + 1 := List.countP_cons_of_pos rfl
          rw [hcount] at hreturns ⊢
          cases running with
          | nil => exact absurd hreturns (Nat.not_succ_le_zero _)
          | cons handler outer =>
              rw [List.take_succ_cons, List.drop_succ_cons]
              rcases return_of_stopped hrange hstopped handler outer with
                ⟨hclear, code, hstep⟩ | ⟨inStart, nextState, count, rfl, hin, s₁, hstep⟩
              · obtain ⟨responses, s', hrun, h⟩ :=
                  ih outer hlater (Nat.le_of_succ_le_succ hreturns)
                exact ⟨.returned code :: responses, s', by rw [run_cons hstep, hrun]; rfl,
                  h.returns hclear code⟩
              · obtain ⟨response, s₂, later, hstep', -, rfl⟩ := run_cons_eq_some hrun
                obtain ⟨rfl, rfl⟩ := Prod.mk.inj (Option.some.inj (hstep.symm.trans hstep'))
                exact ⟨_, s', hrun, .entered hin hend⟩

end Stopped

/-- **A FORCED STOP IS FINAL, EXCEPT ON THE WAY.**  A handler forces a stop, whose exit
    handler returns; then events are passed on, stops forced and as many of the handlers
    outside return as may, all with the current state.  No handler is called any more
    exactly when none of those that return is the exit handler of a transition to a state
    that there is; and then the machine is left stopped as it is.  Else the target of the
    first such transition is entered, on a machine that is stopped all the time. -/
theorem simple_fsm_nested_stop_final_iff {fsm : SimpleFSM w ε} (hrange : InRange fsm)
    (outer : List (RunningHandler w)) (answer : SizeT w) (moves : List (EngineMove w ε))
    (hmoves : ∀ move ∈ moves, LeavesStopped fsm.state move)
    (hreturns : moves.countP isHandlerReturn ≤ outer.length) :
    ∃ code responses s', run engineStep ⟨fsm, .stopExit :: outer⟩ (.handlerReturns answer :: moves)
        = some (.returned code :: responses, s') ∧
      ((∀ mark, .called mark ∉ responses) ↔
        ∀ handler ∈ outer.take (moves.countP isHandlerReturn),
          ¬ handler.Pending fsm.config.stateCount) ∧
      ((∀ mark, .called mark ∉ responses) →
        s' = ⟨{ fsm with started := false }, outer.drop (moves.countP isHandlerReturn)⟩) ∧
      (∀ before inStart nextState count behind,
        outer.take (moves.countP isHandlerReturn)
          = before ++ .resolveExit inStart nextState count :: behind →
        (∀ handler ∈ before, ¬ handler.Pending fsm.config.stateCount) →
        nextState < fsm.config.stateCount → .called (.entry nextState) ∈ responses) ∧
      s'.fsm.started = false := by
  have hstopped : InRange { fsm with started := false } :=
    ⟨hrange.block, hrange.initial, hrange.limit, hrange.state⟩
  obtain ⟨responses, s', hrun, h⟩ := run_of_stopped hstopped rfl outer hmoves hreturns
  have hstep : engineStep ⟨fsm, .stopExit :: outer⟩ (.handlerReturns answer)
      = some (.returned (if answer = fsm.state then .errNone else .errIncomplete),
          ⟨{ fsm with started := false }, outer⟩) := rfl
  exact ⟨_, responses, s', by rw [run_cons hstep, hrun]; rfl, h.silent_iff, h.silent_end,
    h.enters, h.stopped⟩

/-- The exit handler on the way from the first state to the second forces a stop, and both
    exit handlers return: the second state is entered on a stopped machine. -/
theorem simple_fsm_nested_stop_final_iff_relay :
    ∃ code responses s', run engineStep
        ⟨{ relayFsm with started := true }, [.stopExit, .resolveExit false 1 0]⟩
        [.handlerReturns 0, .handlerReturns 0] = some (.returned code :: responses, s') ∧
      .called (.entry 1) ∈ responses ∧ s'.fsm.started = false := by
  have hrange : InRange { relayFsm with started := true } :=
    ⟨rfl, by decide, by decide, by decide⟩
  have hmoves : ∀ move ∈ [(.handlerReturns 0 : EngineMove 8 Unit)],
      LeavesStopped (0 : SizeT 8) move := by
    intro move hmem
    rw [List.mem_singleton.mp hmem]
    rfl
  obtain ⟨code, responses, s', hrun, -, -, henters, hstopped⟩ :=
    simple_fsm_nested_stop_final_iff hrange [.resolveExit false 1 0] 0 _ hmoves (Nat.le_refl 1)
  refine ⟨code, responses, s', hrun, henters [] false 1 0 [] rfl ?_ ?_, hstopped⟩
  · intro handler hmem
    exact absurd hmem List.not_mem_nil
  · show (1 : SizeT 8) < 2
    decide

/-! ## Entries and exits under nested calls -/

/-- An exit handler. -/
def RunningHandler.isExit : RunningHandler w → Bool
  | .stopExit => true
  | .resolveExit _ _ _ => true
  | _ => false

/-- A handler of a start. -/
def RunningHandler.inStart : RunningHandler w → Bool
  | .startEntry => true
  | .resolveExit inStart _ _ => inStart
  | .resolveEntry inStart _ => inStart
  | _ => false

/-- The application is in an exit handler. -/
def inExit : List (RunningHandler w) → Bool
  | [] => false
  | handler :: _ => handler.isExit

/-- A handler that is to make a transition asks for a state that there is. -/
def RunningHandler.InBounds (stateCount : SizeT w) : RunningHandler w → Prop
  | .resolveExit _ nextState _ => nextState < stateCount
  | _ => True

/-- The handler that returns makes the engine go on to another state. -/
def AsksTransition (s : Engine w ε) (answer : SizeT w) : Prop :=
  answer ≠ s.fsm.state ∧ ∃ handler outer inStart count, s.running = handler :: outer ∧
    handler.loopHead s.fsm.config = some (inStart, count, false)

/-- The moves inside a call: a start only of a machine that is started, and handlers that
    request states that there are. -/
def InsideCall (s : Engine w ε) : EngineMove w ε → Prop
  | .call .start => s.running ≠ [] ∧ s.fsm.started = true
  | .call _ => s.running ≠ []
  | .handlerReturns answer => s.running ≠ [] ∧ answer < s.fsm.config.stateCount
  | _ => False

/-- An exit handler passes no event on and forces no stop, and a transition is asked for
    only while the machine is started. -/
def Careful (s : Engine w ε) : EngineMove w ε → Prop
  | .call .start => True
  | .call _ => inExit s.running = false
  | .handlerReturns answer => AsksTransition s answer → s.fsm.started = true
  | _ => True

/-- Only the innermost handler may be an exit handler, and a start comes from outside. -/
def Layered : List (RunningHandler w) → Prop
  | [] => True
  | handler :: outer => (∀ other ∈ outer, other.isExit = false) ∧
      (handler.inStart = true → outer = []) ∧ Layered outer

/-- The state that is entered as far as the engine can tell. -/
def believed (s : Engine w ε) : Option (SizeT w) :=
  if inExit s.running then none else if s.fsm.started then some s.fsm.state else none

/-- The handlers' calls pair up so far, and the engine can tell what is entered. -/
structure Nested (s : Engine w ε) : Prop where
  range : InRange s.fsm
  paired : Paired s.fsm.trace
  entered : entered s.fsm.trace = believed s
  layered : Layered s.running
  inBounds : ∀ handler ∈ s.running, handler.InBounds s.fsm.config.stateCount
  exiting : inExit s.running = true → s.fsm.started = true

section Pairing

variable {s : Engine w ε} {fsm : SimpleFSM w ε} {move : EngineMove w ε}

theorem Layered.not_inExit {handler : RunningHandler w} {outer : List (RunningHandler w)}
    (h : Layered (handler :: outer)) : inExit outer = false := by
  cases outer with
  | nil => rfl
  | cons other outer => exact h.1 other List.mem_cons_self

theorem Layered.not_isExit {running : List (RunningHandler w)} (h : Layered running)
    (hexit : inExit running = false) : ∀ other ∈ running, other.isExit = false := by
  cases running with
  | nil => exact fun _ hmem => absurd hmem List.not_mem_nil
  | cons handler outer => exact List.forall_mem_cons.mpr ⟨hexit, h.1⟩

/-- A handler that returns to the loop is no exit handler. -/
theorem not_isExit_of_loopHead {config : SimpleFSMConfig w ε} {handler : RunningHandler w}
    {inStart limit : Bool} {count : SizeT w}
    (hhead : handler.loopHead config = some (inStart, count, limit)) :
    handler.isExit = false ∧ handler.inStart = inStart := by
  cases handler with
  | stopExit => exact nomatch hhead
  | resolveExit _ _ _ => exact nomatch hhead
  | _ => exact ⟨rfl, (Prod.mk.inj (Option.some.inj hhead)).1⟩

/-- Outside the exit handlers `started` tells whether a state is entered. -/
theorem Nested.entered_of_not_exit (h : Nested s) (hexit : inExit s.running = false) :
    Pairing.entered s.fsm.trace = if s.fsm.started then some s.fsm.state else none := by
  rw [h.entered, believed, hexit, if_neg Bool.false_ne_true]

/-- The handler that returns to the loop is outside the exit handlers. -/
theorem not_inExit_of_loopHead {handler : RunningHandler w} {outer : List (RunningHandler w)}
    {inStart limit : Bool} {count : SizeT w} (hrunning : s.running = handler :: outer)
    (hhead : handler.loopHead s.fsm.config = some (inStart, count, limit)) :
    inExit s.running = false := by
  rw [hrunning]
  exact (not_isExit_of_loopHead hhead).1

/-- An exit handler asks for no transition of the loop. -/
theorem not_asksTransition {handler : RunningHandler w} {outer : List (RunningHandler w)}
    {answer : SizeT w} (hrunning : s.running = handler :: outer)
    (hhead : handler.loopHead s.fsm.config = none) : ¬ AsksTransition s answer := by
  rintro ⟨-, handler', outer', inStart, count, hrunning', hhead'⟩
  obtain ⟨rfl, -⟩ := List.cons.inj (hrunning.symm.trans hrunning')
  exact nomatch hhead.symm.trans hhead'

/-- **A CALL BEGINS** outside all exit handlers. -/
theorem Nested.begins (h : Nested s) {call : FsmCall ε} (hacts : ActsOn s.fsm.started call)
    (hexit : inExit s.running = false) (hstart : call = .start → s.running = []) :
    Nested ⟨begun s.fsm call, firstHandler call :: s.running⟩ := by
  have hothers := h.layered.not_isExit hexit
  have hentered := h.entered_of_not_exit hexit
  cases call with
  | start =>
      have hstopped : s.fsm.started = false := hacts
      rw [hstopped, if_neg Bool.false_ne_true] at hentered
      have hrange : InRange (enterInitial s.fsm) :=
        ⟨h.range.block, h.range.initial, h.range.limit, h.range.initial⟩
      refine ⟨hrange, h.paired.concat hentered, entered_concat _ _,
        ⟨hothers, fun _ => hstart rfl, h.layered⟩, ?_, fun hin => absurd hin Bool.false_ne_true⟩
      exact List.forall_mem_cons.mpr ⟨trivial, h.inBounds⟩
  | onEvent event =>
      have hstarted : s.fsm.started = true := hacts
      rw [hstarted, if_pos rfl] at hentered
      have hrange : InRange (handleEvent s.fsm event) :=
        ⟨h.range.block, h.range.initial, h.range.limit, h.range.state⟩
      refine ⟨hrange, h.paired.concat hentered, ?_,
        ⟨hothers, fun hin => absurd hin Bool.false_ne_true, h.layered⟩,
        List.forall_mem_cons.mpr ⟨trivial, h.inBounds⟩, fun hin => absurd hin Bool.false_ne_true⟩
      have hnew : believed ⟨handleEvent s.fsm event, .event :: s.running⟩ = some s.fsm.state :=
        if_pos hstarted
      rw [firstHandler, begun, hnew]
      exact (entered_concat _ _).trans hentered
  | forceStop =>
      have hstarted : s.fsm.started = true := hacts
      rw [hstarted, if_pos rfl] at hentered
      refine ⟨⟨h.range.block, h.range.initial, h.range.limit, h.range.state⟩,
        h.paired.concat hentered, entered_concat _ _,
        ⟨hothers, fun hin => absurd hin Bool.false_ne_true, h.layered⟩, ?_, fun _ => hstarted⟩
      exact List.forall_mem_cons.mpr ⟨trivial, h.inBounds⟩

theorem InsideCall.lawful (h : InsideCall s move) : Lawful s move := by
  cases move with
  | init config => exact h.elim
  | handlerReturns answer => exact h.1
  | _ => trivial

/-- What a call has come to: it is under way, or it has returned. -/
def UnderWayOrOver (s : Engine w ε) : Prop :=
  Nested s ∨ (s.running = [] ∧ Paired s.fsm.trace)

theorem UnderWayOrOver.paired (h : UnderWayOrOver s) : Paired s.fsm.trace := by
  rcases h with h | ⟨-, hpaired⟩
  · exact h.paired
  · exact hpaired

/-- A handler returns to the one outside it. -/
theorem Nested.pops (h : Nested s) {handler : RunningHandler w} {outer : List (RunningHandler w)}
    (hrunning : s.running = handler :: outer) (hrange : InRange fsm)
    (hconfig : fsm.config = s.fsm.config) (htrace : fsm.trace = s.fsm.trace)
    (hentered : Pairing.entered s.fsm.trace = if fsm.started then some fsm.state else none) :
    Nested ⟨fsm, outer⟩ := by
  have hlayered := h.layered
  have hbounds := h.inBounds
  rw [hrunning] at hlayered hbounds
  have hexit := hlayered.not_inExit
  refine ⟨hrange, ?_, ?_, hlayered.2.2, ?_, ?_⟩
  · rw [htrace]
    exact h.paired
  · rw [htrace, hentered, believed, hexit, if_neg Bool.false_ne_true]
  · rw [hconfig]
    exact (List.forall_mem_cons.mp hbounds).2
  · intro hin
    rw [hexit] at hin
    cases hin

/-- **ONE CAREFUL MOVE** inside a call keeps it paired. -/
theorem Nested.step (h : Nested s) (hinside : InsideCall s move) (hcareful : Careful s move) :
    ∃ response s', engineStep s move = some (response, s') ∧ UnderWayOrOver s' := by
  obtain ⟨response, s', hstep, hmoved⟩ := engineStep_moved h.range hinside.lawful.handlerRuns
  have hrange := hmoved.inRange h.range hinside.lawful
  refine ⟨response, s', hstep, ?_⟩
  have hentered := h.entered
  cases hmoved with
  | init config => exact hinside.elim
  | deinit => exact hinside.elim
  | idle _ _ => exact .inl h
  | @begins call hacts =>
      refine .inl (h.begins hacts ?_ ?_)
      · cases call with
        | start =>
            obtain ⟨-, hstarted⟩ := hinside
            rw [ActsOn, hstarted] at hacts
            cases hacts
        | onEvent event => exact hcareful
        | forceStop => exact hcareful
      · rintro rfl
        obtain ⟨-, hstarted⟩ := hinside
        rw [ActsOn, hstarted] at hacts
        cases hacts
  | stops _ heq _ =>
      rw [believed, heq] at hentered
      exact .inl (h.pops heq hrange rfl rfl hentered)
  | @leaves outer handler inStart count answer heq hhead hrequest =>
      have hstarted := hcareful ⟨hrequest, _, _, _, _, heq, hhead⟩
      have hinStart := (not_isExit_of_loopHead hhead).2
      have hentered := h.entered_of_not_exit (not_inExit_of_loopHead heq hhead)
      have hlayered := h.layered
      have hbounds := h.inBounds
      rw [hstarted, if_pos rfl] at hentered
      rw [heq] at hlayered hbounds
      refine .inl ⟨hrange, h.paired.concat hentered, entered_concat _ _,
        ⟨hlayered.1, ?_, hlayered.2.2⟩, ?_, fun _ => hstarted⟩
      · show inStart = true → outer = []
        rw [← hinStart]
        exact hlayered.2.1
      · exact List.forall_mem_cons.mpr ⟨hinside.2, (List.forall_mem_cons.mp hbounds).2⟩
  | @ends outer handler inStart limit count answer heq hhead _ =>
      have hinStart := (not_isExit_of_loopHead hhead).2
      have hentered := h.entered_of_not_exit (not_inExit_of_loopHead heq hhead)
      cases inStart with
      | true =>
          -- the call from outside has returned
          have hlayered := h.layered
          rw [heq] at hlayered
          refine .inr ⟨hlayered.2.1 hinStart, ?_⟩
          rw [finished_trace]
          exact h.paired
      | false => exact .inl (h.pops heq hrange rfl rfl hentered)
  | @enters outer inStart nextState count answer heq _ =>
      have hstarted := h.exiting (by rw [heq]; rfl)
      have hlayered := h.layered
      have hbounds := h.inBounds
      rw [believed, heq] at hentered
      rw [heq] at hlayered hbounds
      refine .inl ⟨hrange, h.paired.concat hentered, ?_, hlayered, ?_,
        fun hin => absurd hin Bool.false_ne_true⟩
      · rw [entered_concat, believed]
        exact (if_pos hstarted).symm
      · exact List.forall_mem_cons.mpr ⟨trivial, (List.forall_mem_cons.mp hbounds).2⟩
  | @outOfBounds outer inStart nextState count answer heq hout =>
      -- both states that may be requested are there
      have hnext : nextState < s.fsm.config.stateCount :=
        h.inBounds (.resolveExit inStart nextState count) (by rw [heq]; exact List.mem_cons_self)
      have hin : requested s.fsm nextState answer < s.fsm.config.stateCount := by
        rw [requested]
        split
        · exact hnext
        · exact hinside.2
      exact absurd hout (BitVec.not_le.mpr hin)

/-- **ONE CARELESS MOVE** calls a handler that is not allowed where the machine is. -/
theorem Nested.careless (h : Nested s) (hinside : InsideCall s move)
    (hcareless : ¬ Careful s move) :
    ∃ mark s', engineStep s move = some (.called mark, s') ∧ InRange s'.fsm ∧
      s'.fsm.trace = s.fsm.trace ++ [mark] ∧ ¬ Allowed (Pairing.entered s.fsm.trace) mark := by
  obtain ⟨response, s', hstep, hmoved⟩ := engineStep_moved h.range hinside.lawful.handlerRuns
  have hrange := hmoved.inRange h.range hinside.lawful
  rw [hstep]
  cases hmoved with
  | init config => exact hinside.elim
  | deinit => exact hinside.elim
  | @idle call hidle _ =>
      have hexit : call ≠ .start → inExit s.running = true := by
        intro hcall
        cases call with
        | start => exact absurd rfl hcall
        | _ => exact Bool.eq_true_of_not_eq_false hcareless
      cases call with
      | start => exact absurd trivial hcareless
      | _ => exact absurd (h.exiting (hexit (fun hcall => nomatch hcall))) hidle
  | @begins call hacts =>
      cases call with
      | start => exact absurd trivial hcareless
      | _ =>
          have hexit : inExit s.running = true := Bool.eq_true_of_not_eq_false hcareless
          refine ⟨_, _, rfl, hrange, rfl, ?_⟩
          rw [h.entered, believed, if_pos hexit]
          exact fun hallowed => nomatch hallowed
  | stops answer heq _ =>
      exact absurd (fun hasks => absurd hasks (not_asksTransition heq rfl)) hcareless
  | @leaves outer handler inStart count answer heq hhead hrequest =>
      have hstopped : s.fsm.started = false := by
        refine Bool.eq_false_of_not_eq_true fun hstarted => ?_
        exact hcareless fun _ => hstarted
      refine ⟨_, _, rfl, hrange, rfl, ?_⟩
      rw [h.entered_of_not_exit (not_inExit_of_loopHead heq hhead), hstopped]
      exact fun hallowed => nomatch hallowed
  | @ends outer handler inStart limit count answer heq hhead hrequest =>
      refine absurd ?_ hcareless
      rintro ⟨hother, handler', outer', inStart', count', heq', hhead'⟩
      obtain ⟨rfl, -⟩ := List.cons.inj (heq.symm.trans heq')
      rw [hhead] at hhead'
      rcases hrequest with hsame | rfl
      · exact absurd hsame hother
      · cases hhead'
  | enters heq _ =>
      exact absurd (fun hasks => absurd hasks (not_asksTransition heq rfl)) hcareless
  | outOfBounds heq _ =>
      exact absurd (fun hasks => absurd hasks (not_asksTransition heq rfl)) hcareless

theorem InsideCall.running_ne_nil (h : InsideCall s move) : s.running ≠ [] := by
  cases move with
  | init config => exact h.elim
  | deinit => exact h.elim
  | call call =>
      cases call with
      | start => exact h.1
      | _ => exact h
  | handlerReturns answer => exact h.1

/-- A run inside a call is defined, and the calls of handlers are never forgotten. -/
theorem exists_run_inside {moves : List (EngineMove w ε)} (hrange : InRange s.fsm)
    (hinside : Admits engineStep InsideCall s moves) :
    ∃ responses s', run engineStep s moves = some (responses, s') ∧
      s.fsm.trace <+: s'.fsm.trace := by
  have hstep : ∀ (s₁ : Engine w ε) (move : EngineMove w ε),
      InRange s₁.fsm ∧ s.fsm.trace <+: s₁.fsm.trace → InsideCall s₁ move →
      ∃ response s₂, engineStep s₁ move = some (response, s₂) ∧
        InRange s₂.fsm ∧ s.fsm.trace <+: s₂.fsm.trace := by
    rintro s₁ move ⟨hrange₁, hgrows⟩ hmove
    obtain ⟨response, s₂, hstep, hmoved⟩ := engineStep_moved hrange₁ hmove.lawful.handlerRuns
    exact ⟨response, s₂, hstep, hmoved.inRange hrange₁ hmove.lawful, hgrows.trans hmoved.grows⟩
  obtain ⟨responses, s', hrun, -, hgrows⟩ :=
    run_invariant_of_admits hstep moves s ⟨hrange, List.prefix_refl _⟩ hinside
  exact ⟨responses, s', hrun, hgrows⟩

/-- **EVERY RUN** inside a call. -/
theorem run_inside (moves : List (EngineMove w ε)) (h : UnderWayOrOver s)
    (hinside : Admits engineStep InsideCall s moves) :
    ∃ responses s', run engineStep s moves = some (responses, s') ∧
      (Paired s'.fsm.trace ↔ Admits engineStep Careful s moves) := by
  induction moves generalizing s with
  | nil => exact ⟨[], s, rfl, fun _ => trivial, fun _ => h.paired⟩
  | cons move moves ih =>
      obtain ⟨hmove, hrest⟩ := hinside
      rcases h with h | ⟨hnone, -⟩
      · by_cases hcareful : Careful s move
        · obtain ⟨response, s₁, hstep, h₁⟩ := h.step hmove hcareful
          obtain ⟨responses, s', hrun, hiff⟩ := ih h₁ (hrest _ _ hstep)
          refine ⟨response :: responses, s', by rw [run_cons hstep, hrun]; rfl, ?_⟩
          rw [hiff]
          exact ⟨.cons hcareful hstep, fun hadm => hadm.2 _ _ hstep⟩
        · obtain ⟨mark, s₁, hstep, hrange, htrace, hnot⟩ := h.careless hmove hcareful
          obtain ⟨responses, s', hrun, hgrows⟩ := exists_run_inside hrange (hrest _ _ hstep)
          refine ⟨.called mark :: responses, s', by rw [run_cons hstep, hrun]; rfl, ?_⟩
          refine ⟨fun hpaired => ?_, fun hadm => absurd hadm.1 hcareful⟩
          obtain ⟨marks, hmarks⟩ := hgrows
          rw [← hmarks, htrace, List.append_assoc, List.singleton_append] at hpaired
          exact absurd hpaired.allowed hnot
      · exact absurd hnone hmove.running_ne_nil

/-- Outside all handlers, where `started` tells whether a state is entered. -/
theorem Told.nested (h : Told fsm) (hrange : InRange fsm) : Nested ⟨fsm, []⟩ := by
  refine ⟨hrange, h.paired, ?_, trivial, (fun _ hmem => absurd hmem List.not_mem_nil),
    fun hin => absurd hin Bool.false_ne_true⟩
  rcases h with ⟨hstarted, hinside⟩ | ⟨hstopped, houtside⟩
  · exact hinside.entered.trans (if_pos hstarted).symm
  · refine houtside.entered.trans (if_neg ?_).symm
    rw [hstopped]
    exact Bool.false_ne_true

end Pairing

/-- **PAIRING UNDER NESTED CALLS.**  A call from outside on a machine whose `started` tells
    the truth, with events passed on and stops forced from inside its handlers to any
    depth, and only states requested that there are: entries and exits pair exactly when
    no exit handler passes an event on or forces a stop, and no handler makes the engine go
    on to another state once the machine has been stopped. -/
theorem simple_fsm_nested_pairing_iff {fsm : SimpleFSM w ε} (hrange : InRange fsm)
    (htold : Told fsm) (call : FsmCall ε) (moves : List (EngineMove w ε))
    (hinside : ∀ response s₁, engineStep ⟨fsm, []⟩ (.call call) = some (response, s₁) →
      Admits engineStep InsideCall s₁ moves) :
    ∃ responses s', run engineStep ⟨fsm, []⟩ (.call call :: moves) = some (responses, s') ∧
      (Paired s'.fsm.trace ↔ Admits engineStep Careful ⟨fsm, []⟩ (.call call :: moves)) := by
  have hnested := htold.nested hrange
  have hruns : HandlerRuns ⟨fsm, []⟩ (.call call) := trivial
  obtain ⟨response, s₁, hstep, hmoved⟩ := engineStep_moved (s := ⟨fsm, []⟩) hrange hruns
  have h₁ : UnderWayOrOver s₁ := by
    cases hmoved with
    | idle _ _ => exact .inl hnested
    | begins hacts => exact .inl (hnested.begins hacts rfl fun _ => rfl)
  obtain ⟨responses, s', hrun, hiff⟩ := run_inside moves h₁ (hinside _ _ hstep)
  refine ⟨response :: responses, s', by rw [run_cons hstep, hrun]; rfl, ?_⟩
  have hcareful : Careful ⟨fsm, []⟩ (.call call) := by
    cases call with
    | start => trivial
    | _ => rfl
  rw [hiff]
  exact ⟨.cons hcareful hstep, fun hadm => hadm.2 _ _ hstep⟩

/-- The first entry handler forces a stop and then asks for the second state: the first
    one is exited twice. -/
theorem simple_fsm_nested_pairing_iff_relay :
    ∃ responses s', run engineStep ⟨relayFsm, []⟩
        [.call .start, .call .forceStop, .handlerReturns 0, .handlerReturns 1]
        = some (responses, s') ∧ ¬ Paired s'.fsm.trace := by
  have hinit : simpleFsmInit relayFsm relayConfig = (.errNone, relayFsm) := rfl
  obtain ⟨hrange, htold⟩ := simpleFsmInit_told hinit rfl rfl
  have hinside : ∀ response s₁, engineStep ⟨relayFsm, []⟩ (.call .start) = some (response, s₁) →
      Admits engineStep InsideCall s₁
        [.call .forceStop, .handlerReturns 0, .handlerReturns 1] := by
    intro response s₁ hstep
    obtain ⟨-, rfl⟩ := Prod.mk.inj (Option.some.inj hstep)
    have hruns : ∀ {handler : RunningHandler 8} {outer}, handler :: outer ≠ [] :=
      List.cons_ne_nil _ _
    exact .cons hruns rfl (.cons ⟨hruns, by decide⟩ rfl (.cons ⟨hruns, by decide⟩ rfl trivial))
  obtain ⟨responses, s', hrun, hiff⟩ := simple_fsm_nested_pairing_iff hrange htold .start _ hinside
  refine ⟨responses, s', hrun, ?_⟩
  rw [hiff]
  intro hcareful
  -- the machine is stopped when the entry handler asks
  have hlast := ((hcareful.2 _ _ rfl).2 _ _ rfl).2 _ _ rfl
  have hstarted := hlast.1 ⟨by decide, _, _, _, _, rfl, rfl⟩
  exact nomatch hstarted

end CembSimpleFsm
