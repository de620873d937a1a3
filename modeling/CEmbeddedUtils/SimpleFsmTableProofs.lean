import CEmbeddedUtils.SimpleFsmRecurrenceProofs

/-! # What the simple state machine is for

    An application thinks of its machine as a table: what each state requests on
    entry, on exit and on every event.  An event is run to completion: the
    machine exits and enters states, as they are requested, until it is in one
    that requests itself.  There is no counter in that, no flag and no array.

    The engine is this machine wherever the table always runs to completion
    inside its bounds, and the limit is above the number of states
    (`simple_fsm_refines_table_machine`). -/

namespace CembSimpleFsm

open Pairing PartialIteration Transducer

variable {σ ε : Type}

/-! ## The machine of a table -/

/-- What the handlers of every state answer. -/
structure StateTable (σ ε : Type) where
  onEntry : σ → σ
  onEvent : σ → ε → σ
  onExit : σ → σ

section Table

variable [DecidableEq σ]

/-- Where a transition goes: an exit that requests another state overrides. -/
def StateTable.destination (table : StateTable σ ε) (state request : σ) : σ :=
  if table.onExit state = state then request else table.onExit state

/-- **RUN TO COMPLETION**: the actions that a request leads to, and the state that
    they end in. -/
inductive SettlesIn (table : StateTable σ ε) (valid : σ → Prop) :
    σ → σ → List (Mark σ ε) → σ → Prop where
  | stays (state : σ) : SettlesIn table valid state state [] state
  | moves {state request last : σ} {actions : List (Mark σ ε)} (moves : request ≠ state)
      (inBounds : valid (table.destination state request))
      (rest : SettlesIn table valid (table.destination state request)
        (table.onEntry (table.destination state request)) actions last) :
      SettlesIn table valid state request
        (.exit state :: .entry (table.destination state request) :: actions) last

variable {table : StateTable σ ε} {valid : σ → Prop} {state request last last' : σ}
  {actions actions' : List (Mark σ ε)}

/-- **ONE COMPLETION**: a request leads to one list of actions and one last state. -/
theorem settlesIn_unique (h : SettlesIn table valid state request actions last) :
    SettlesIn table valid state request actions' last' → actions' = actions ∧ last' = last := by
  induction h generalizing actions' last' with
  | stays state =>
      intro h'
      cases h' with
      | stays => exact ⟨rfl, rfl⟩
      | moves hmoves _ _ => exact absurd rfl hmoves
  | moves hmoves _ _ ih =>
      intro h'
      cases h' with
      | stays => exact absurd rfl hmoves
      | moves _ _ hrest' =>
          obtain ⟨rfl, rfl⟩ := ih hrest'
          exact ⟨rfl, rfl⟩

open Classical in
/-- The completion of a request, if there is one. -/
noncomputable def completion (table : StateTable σ ε) (valid : σ → Prop) (state request : σ) :
    List (Mark σ ε) × σ :=
  if h : ∃ outcome : List (Mark σ ε) × σ,
      SettlesIn table valid state request outcome.1 outcome.2 then h.choose
  else ([], state)

theorem completion_eq (h : SettlesIn table valid state request actions last) :
    completion table valid state request = (actions, last) := by
  have hex : ∃ outcome : List (Mark σ ε) × σ,
      SettlesIn table valid state request outcome.1 outcome.2 := ⟨(actions, last), h⟩
  rw [completion, dif_pos hex]
  obtain ⟨hactions, hlast⟩ := settlesIn_unique h hex.choose_spec
  exact Prod.ext hactions hlast

end Table

/-- The machine of a table: the state it is in, unless it is stopped, and the actions
    that it has performed. -/
structure TableMachine (σ ε : Type) where
  current : Option σ
  performed : List (Mark σ ε)

/-- The machine of a table that starts in `initial`. -/
noncomputable def tableMachine [DecidableEq σ] (table : StateTable σ ε) (valid : σ → Prop)
    (initial : σ) : Spec (TableMachine σ ε) (LifecycleCall ε) (Option ErrorCode)
  | ⟨none, performed⟩, .call .start =>
      (some .errNone,
        { current := some (completion table valid initial (table.onEntry initial)).2
          performed := performed ++ .entry initial
            :: (completion table valid initial (table.onEntry initial)).1 })
  | ⟨none, performed⟩, .call (.onEvent _) => (some .errNotInitialised, ⟨none, performed⟩)
  | ⟨none, performed⟩, .call .forceStop => (some .errNoop, ⟨none, performed⟩)
  | ⟨some state, performed⟩, .call .start => (some .errNoop, ⟨some state, performed⟩)
  | ⟨some state, performed⟩, .call (.onEvent event) =>
      (some .errNone,
        { current := some (completion table valid state (table.onEvent state event)).2
          performed := performed ++ .event state event
            :: (completion table valid state (table.onEvent state event)).1 })
  | ⟨some state, performed⟩, .call .forceStop =>
      (some (if table.onExit state = state then .errNone else .errIncomplete),
        ⟨none, performed ++ [.exit state]⟩)
  | ⟨_, performed⟩, .deinit => (none, ⟨none, performed⟩)

/-- Every request that a start or an event can make runs to completion. -/
structure RunsToCompletion [DecidableEq σ] (table : StateTable σ ε) (valid : σ → Prop)
    (initial : σ) : Prop where
  start : ∃ actions last, SettlesIn table valid initial (table.onEntry initial) actions last
  event : ∀ state, valid state → ∀ event, ∃ actions last,
    SettlesIn table valid state (table.onEvent state event) actions last

/-! ## The engine -/

variable {w : Nat}

/-- The handlers answer as the table says, whatever has been called before. -/
structure Implements (config : SimpleFSMConfig w ε) (table : StateTable (SizeT w) ε) : Prop where
  onEntry : ∀ state trace, (config.delegates state).onEntryHandler trace = table.onEntry state
  onEvent : ∀ state trace event,
    (config.delegates state).onEventHandler trace event = table.onEvent state event
  onExit : ∀ state trace, (config.delegates state).onExitHandler trace = table.onExit state

/-- The states of a configuration. -/
def SimpleFSMConfig.valid (config : SimpleFSMConfig w ε) (state : SizeT w) : Prop :=
  state < config.stateCount

/-- The engine is where the machine of the table is, and has done the same. -/
structure Follows (config : SimpleFSMConfig w ε) (fsm : SimpleFSM w ε)
    (machine : TableMachine (SizeT w) ε) : Prop where
  runs : Runs config fsm
  current : machine.current = if fsm.started then some fsm.state else none
  performed : fsm.trace = machine.performed

section Engine

variable {config : SimpleFSMConfig w ε} {table : StateTable (SizeT w) ε} {fsm : SimpleFSM w ε}
  {p q : Position w ε} {s state request last : SizeT w} {tr : Trace w ε} {code : ErrorCode}
  {actions : List (Mark (SizeT w) ε)} {k : Nat}

theorem Implements.memoryless (h : Implements config table) : Memoryless config := by
  intro state trace trace'
  rw [h.onEntry, h.onEntry, h.onExit, h.onExit]
  exact ⟨rfl, rfl⟩

theorem Implements.target_eq (h : Implements config table) (p : Position w ε) :
    target config p = table.destination p.state p.request := by
  rw [target, h.onExit, StateTable.destination]

/-- The way of the handlers is the completion in the table. -/
theorem SettlesIn.iter (himpl : Implements config table)
    (h : SettlesIn table config.valid state request actions last) :
    ∀ trace, ∃ k, iter (transition config) k ⟨state, request, trace⟩
      = some ⟨last, last, trace ++ actions⟩ := by
  induction h with
  | stays state =>
      intro trace
      refine ⟨0, ?_⟩
      rw [List.append_nil]
      rfl
  | @moves state request last actions hmoves hvalid _ ih =>
      intro trace
      have htarget := himpl.target_eq ⟨state, request, trace⟩
      have hin : ¬ target config ⟨state, request, trace⟩ ≥ config.stateCount := by
        rw [htarget]
        exact BitVec.not_le.mpr hvalid
      have hstep := transition_of_inBounds hmoves hin
      rw [htarget, himpl.onEntry] at hstep
      obtain ⟨k, hway⟩ := ih (trace ++ [.exit state]
        ++ [.entry (table.destination state request)])
      refine ⟨1 + k, ?_⟩
      rw [iter_add]
      show (transition config ⟨state, request, trace⟩).bind _ = _
      rw [hstep, Option.bind_some, hway, List.append_assoc, List.append_assoc]
      rfl

/-- **A CALL IS RUN TO COMPLETION**: where the table settles, the call returns no
    error, in the state and after the actions of the table. -/
theorem Finishes.completed (h : Finishes config p s tr code) (hmemory : Memoryless config)
    (hlimit : config.stateCount < config.maxTransitionCount)
    (hway : iter (transition config) k p = some q) (hsettled : q.request = q.state) :
    code = .errNone ∧ s = q.state ∧ tr = q.trace := by
  have hstuck : transition config q = none := transition_of_settled hsettled
  have hcode : code = .errNone := (h.limitIsFinal hmemory hlimit).settles.mpr
    ⟨k, (hmemory.short_of_stuck hway hstuck).1, q, hway, hsettled⟩
  refine ⟨hcode, ?_⟩
  cases h with
  | settled _ hway' hsettled' hstate htrace =>
      obtain rfl := stuck_unique hway hstuck hway' (transition_of_settled hsettled')
      exact ⟨hstate, htrace⟩
  | timeout => cases hcode
  | outOfBounds => cases hcode

/-- A call that is acted on, of a machine whose table settles. -/
theorem Runs.completed {call : FsmCall ε} (hruns : Runs config fsm)
    (himpl : Implements config table) (hlimit : config.stateCount < config.maxTransitionCount)
    (hbegins : Begins fsm call ⟨state, request, tr⟩)
    (hsettles : SettlesIn table config.valid state request actions last) :
    ∃ fsm', simpleFsmStep fsm call = some (.errNone, fsm') ∧ Runs config fsm' ∧
      fsm'.started = true ∧ fsm'.state = last ∧ fsm'.trace = tr ++ actions := by
  obtain ⟨code, fsm', hstep, hruns', hfinishes, hstarted⟩ := hruns.begins hbegins
  obtain ⟨k, hway⟩ := hsettles.iter himpl tr
  obtain ⟨rfl, hstate, htrace⟩ := hfinishes.completed himpl.memoryless hlimit hway rfl
  exact ⟨fsm', hstep, hruns', hstarted.mpr (.inr rfl), hstate, htrace⟩

/-- A start, and an event of a machine in a state, begin as the table says. -/
theorem Runs.startPosition_eq (hruns : Runs config fsm) (himpl : Implements config table) :
    startPosition fsm = ⟨config.initialState, table.onEntry config.initialState,
      fsm.trace ++ [.entry config.initialState]⟩ := by
  rw [startPosition, hruns.config, himpl.onEntry]

theorem Runs.eventPosition_eq (hruns : Runs config fsm) (himpl : Implements config table)
    (event : ε) : eventPosition fsm event = ⟨fsm.state, table.onEvent fsm.state event,
      fsm.trace ++ [.event fsm.state event]⟩ := by
  rw [eventPosition, hruns.config, himpl.onEvent]

/-- A stopped machine, at any call. -/
theorem Runs.follows_stopped (hruns : Runs config fsm) (hstopped : fsm.started = false)
    (himpl : Implements config table) (hlimit : config.stateCount < config.maxTransitionCount)
    (hcomplete : RunsToCompletion table config.valid config.initialState)
    (call : LifecycleCall ε) :
    ∃ fsm', lifecycleStep fsm call = some ((tableMachine table config.valid config.initialState
        ⟨none, fsm.trace⟩ call).1, fsm') ∧
      Follows config fsm' (tableMachine table config.valid config.initialState
        ⟨none, fsm.trace⟩ call).2 := by
  have hnotStarted : ¬ fsm.started = true := by
    rw [hstopped]
    exact Bool.false_ne_true
  have hnone : (none : Option (SizeT w)) = if fsm.started then some fsm.state else none :=
    (if_neg hnotStarted).symm
  cases call with
  | deinit => exact ⟨simpleFsmDeinit fsm, rfl, hruns.of_state rfl hruns.range.initial, rfl, rfl⟩
  | call call =>
      cases call with
      | start =>
          obtain ⟨actions, last, hsettles⟩ := hcomplete.start
          have hbegins := Begins.start hstopped
          rw [hruns.startPosition_eq himpl] at hbegins
          obtain ⟨fsm', hstep, hruns', hstarted', hstate, htrace⟩ :=
            hruns.completed himpl hlimit hbegins hsettles
          rw [tableMachine, completion_eq hsettles]
          refine ⟨fsm', ?_, hruns', ?_, ?_⟩
          · rw [lifecycleStep, hstep]
            rfl
          · rw [if_pos hstarted', hstate]
          · rw [htrace, List.append_assoc]
            rfl
      | onEvent event =>
          refine ⟨fsm, ?_, hruns, hnone, rfl⟩
          rw [lifecycleStep, simpleFsmStep, simpleFsmOnEvent, if_neg hnotStarted]
          rfl
      | forceStop =>
          refine ⟨fsm, ?_, hruns, hnone, rfl⟩
          rw [lifecycleStep, simpleFsmStep, simpleFsmForceStop, if_neg hnotStarted]
          rfl

/-- A machine in a state, at any call. -/
theorem Runs.follows_started (hruns : Runs config fsm) (hstarted : fsm.started = true)
    (himpl : Implements config table) (hlimit : config.stateCount < config.maxTransitionCount)
    (hcomplete : RunsToCompletion table config.valid config.initialState)
    (call : LifecycleCall ε) :
    ∃ fsm', lifecycleStep fsm call = some ((tableMachine table config.valid config.initialState
        ⟨some fsm.state, fsm.trace⟩ call).1, fsm') ∧
      Follows config fsm' (tableMachine table config.valid config.initialState
        ⟨some fsm.state, fsm.trace⟩ call).2 := by
  cases call with
  | deinit => exact ⟨simpleFsmDeinit fsm, rfl, hruns.of_state rfl hruns.range.initial, rfl, rfl⟩
  | call call =>
      cases call with
      | start =>
          refine ⟨fsm, ?_, hruns, (if_pos hstarted).symm, rfl⟩
          rw [lifecycleStep, simpleFsmStep, simpleFsmStart, if_pos hstarted]
          rfl
      | onEvent event =>
          obtain ⟨actions, last, hsettles⟩ := hcomplete.event fsm.state hruns.state_lt event
          have hbegins := Begins.onEvent event hstarted
          rw [hruns.eventPosition_eq himpl] at hbegins
          obtain ⟨fsm', hstep, hruns', hstarted', hstate, htrace⟩ :=
            hruns.completed himpl hlimit hbegins hsettles
          rw [tableMachine, completion_eq hsettles]
          refine ⟨fsm', ?_, hruns', ?_, ?_⟩
          · rw [lifecycleStep, hstep]
            rfl
          · rw [if_pos hstarted', hstate]
          · rw [htrace, List.append_assoc]
            rfl
      | forceStop =>
          have hanswer : (fsm.config.delegates fsm.state).onExitHandler fsm.trace
              = table.onExit fsm.state := by
            rw [hruns.config]
            exact himpl.onExit _ _
          have hstop := simpleFsmForceStop_eq hruns.range hstarted
          rw [hanswer] at hstop
          refine ⟨{ fsm with trace := fsm.trace ++ [.exit fsm.state], started := false }, ?_,
            hruns.of_state rfl hruns.range.state, rfl, rfl⟩
          rw [lifecycleStep, simpleFsmStep, hstop]
          rfl

/-- A machine is not started before its first start. -/
theorem simpleFsmInit_stopped {fsm₀ : SimpleFSM w ε}
    (hinit : simpleFsmInit fsm config = (.errNone, fsm₀)) : fsm₀.started = false := by
  rw [simpleFsmInit] at hinit
  cases hvalid : simpleFsmValidateConfig config with
  | errNone =>
      rw [hvalid] at hinit
      rw [← (Prod.mk.inj hinit).2]
  | _ =>
      rw [hvalid] at hinit
      cases (Prod.mk.inj hinit).1

/-- **ONE CALL** is answered as the machine of the table answers it, after the same
    actions and in the same state. -/
theorem follows_simulates (himpl : Implements config table)
    (hlimit : config.stateCount < config.maxTransitionCount)
    (hcomplete : RunsToCompletion table config.valid config.initialState) :
    Simulates lifecycleStep (tableMachine table config.valid config.initialState)
      (Follows config) := by
  rintro fsm ⟨current, performed⟩ call ⟨hruns, hcurrent, hperformed⟩
  simp only at hcurrent hperformed
  subst hperformed
  cases hstarted : fsm.started with
  | false =>
      rw [hstarted, if_neg Bool.false_ne_true] at hcurrent
      rw [hcurrent]
      exact hruns.follows_stopped hstarted himpl hlimit hcomplete call
  | true =>
      rw [hstarted, if_pos rfl] at hcurrent
      rw [hcurrent]
      exact hruns.follows_started hstarted himpl hlimit hcomplete call

end Engine

/-- **THE ENGINE IS THE MACHINE OF ITS TABLE.**  Where the handlers answer as a table
    does that runs to completion inside the configuration, and the limit is above the
    number of states, every run of starts, events, forced stops and deinits is defined
    and answered as by the machine of the table; the handlers are called for the same
    actions in the same order, and `simple_fsm_get_current_state` returns its state. -/
theorem simple_fsm_refines_table_machine {fsm fsm₀ : SimpleFSM w ε} {config : SimpleFSMConfig w ε}
    (hinit : simpleFsmInit fsm config = (.errNone, fsm₀))
    (hblock : config.stateDelegates.size = config.stateCount.toNat)
    (table : StateTable (SizeT w) ε) (himpl : Implements config table)
    (hlimit : config.stateCount < config.maxTransitionCount)
    (hcomplete : RunsToCompletion table config.valid config.initialState)
    (calls : List (LifecycleCall ε)) :
    ∃ responses fsm' machine, run lifecycleStep fsm₀ calls = some (responses, fsm') ∧
      runSpec (tableMachine table config.valid config.initialState) ⟨none, fsm₀.trace⟩ calls
        = (responses, machine) ∧
      fsm'.trace = machine.performed ∧
      machine.current = if fsm'.started then some (simpleFsmGetCurrentState fsm') else none := by
  have h₀ : Follows config fsm₀ ⟨none, fsm₀.trace⟩ := by
    refine ⟨simpleFsmInit_runs hinit hblock, ?_, rfl⟩
    rw [simpleFsmInit_stopped hinit, if_neg Bool.false_ne_true]
  obtain ⟨fsm', hrun, h'⟩ := run_refines (follows_simulates himpl hlimit hcomplete) calls fsm₀ _ h₀
  exact ⟨_, fsm', _, hrun, rfl, h'.performed, h'.current⟩

/-- A door: an event opens it, and the next one shuts it, by way of a state that is
    left as soon as it is entered. -/
def doorTable : StateTable (SizeT 8) Unit where
  onEntry := fun state => if state = 2 then 0 else state
  onEvent := fun state _ => if state = 0 then 1 else if state = 1 then 2 else state
  onExit := fun state => state

/-- The handlers of the door. -/
def doorConfig : SimpleFSMConfig 8 Unit where
  stateDelegates := ⟨3, fun s =>
    ⟨fun _ => doorTable.onEntry (BitVec.ofNat 8 s),
      fun _ => doorTable.onEvent (BitVec.ofNat 8 s), fun _ => doorTable.onExit (BitVec.ofNat 8 s)⟩⟩
  stateCount := 3
  initialState := 0
  maxTransitionCount := 4

/-- The door, before its first call. -/
def doorFsm : SimpleFSM 8 Unit := ⟨false, doorConfig, 0, []⟩

theorem doorConfig_implements : Implements doorConfig doorTable := by
  have hstate : ∀ state : SizeT 8, BitVec.ofNat 8 state.toNat = state := by
    intro state
    rw [BitVec.ofNat_toNat, BitVec.setWidth_eq]
  constructor
  · intro state _
    exact congrArg doorTable.onEntry (hstate state)
  · intro state _ event
    exact congrArg (fun s => doorTable.onEvent s event) (hstate state)
  · intro state _
    exact congrArg doorTable.onExit (hstate state)

/-- The door runs to completion. -/
theorem doorTable_completes :
    RunsToCompletion doorTable doorConfig.valid doorConfig.initialState := by
  constructor
  · exact ⟨_, _, .stays 0⟩
  · rintro state - ⟨⟩
    by_cases hshut : state = 0
    · subst hshut
      exact ⟨_, _, .moves (by decide) (by decide : (1 : SizeT 8) < 3) (.stays 1)⟩
    · by_cases hopen : state = 1
      · subst hopen
        exact ⟨_, _, .moves (by decide) (by decide : (2 : SizeT 8) < 3)
          (.moves (by decide) (by decide : (0 : SizeT 8) < 3) (.stays 0))⟩
      · have hstays : doorTable.onEvent state () = state := by
          show (if state = 0 then 1 else if state = 1 then 2 else state) = state
          rw [if_neg hshut, if_neg hopen]
        rw [hstays]
        exact ⟨_, _, .stays state⟩

/-- The door is opened, shut and taken out of use. -/
theorem simple_fsm_refines_table_machine_door :
    ∃ responses fsm' machine,
      run lifecycleStep doorFsm
        [.call .start, .call (.onEvent ()), .call (.onEvent ()), .call .forceStop]
        = some (responses, fsm') ∧
      runSpec (tableMachine doorTable doorConfig.valid doorConfig.initialState) ⟨none, []⟩
        [.call .start, .call (.onEvent ()), .call (.onEvent ()), .call .forceStop]
        = (responses, machine) ∧
      fsm'.trace = machine.performed ∧
      machine.current = if fsm'.started then some (simpleFsmGetCurrentState fsm') else none := by
  have hinit : simpleFsmInit doorFsm doorConfig = (.errNone, doorFsm) := rfl
  exact simple_fsm_refines_table_machine hinit rfl doorTable doorConfig_implements (by decide)
    doorTable_completes _

end CembSimpleFsm
