import CEmbeddedUtils.SimpleFsmProofs

/-! # One call of the simple state machine — which handlers, and which result

    A start or an event calls a first handler, and then blocks of an exit and
    an entry, each block led to by what the handlers before it answered.  This
    file gives the grammar of these calls, from every state a program can bring
    the machine to, and says when the result of the call is the right one.

    It is not when the handlers settle with the last transition there may be:
    the loop leaves because the state requests itself, and the result is read
    off the counter alone. -/

namespace CembSimpleFsm

open PartialIteration Transducer

variable {w : Nat} {ε : Type}

/-- The calls a program makes on a machine, `simple_fsm_deinit` included. -/
inductive LifecycleCall (ε : Type) where
  | call (call : FsmCall ε)
  | deinit

/-- One call; deinit returns nothing. -/
def lifecycleStep : Step (SimpleFSM w ε) (LifecycleCall ε) (Option ErrorCode)
  | fsm, .call call => (simpleFsmStep fsm call).map fun (code, fsm') => (some code, fsm')
  | fsm, .deinit => some (none, simpleFsmDeinit fsm)

/-- The call is acted on, and its first handler leads to `p`. -/
inductive Begins (fsm : SimpleFSM w ε) : FsmCall ε → Position w ε → Prop where
  | start (stopped : fsm.started = false) : Begins fsm .start (startPosition fsm)
  | onEvent (event : ε) (started : fsm.started = true) :
      Begins fsm (.onEvent event) (eventPosition fsm event)

/-- How a call ends that the handlers of `p` lead on, in the state `s` after the
    calls `tr`: it has settled, has made all transitions there may be, or exits
    for a state that there is not. -/
inductive Finishes (config : SimpleFSMConfig w ε) (p : Position w ε) (s : SizeT w)
    (tr : Trace w ε) : ErrorCode → Prop where
  | settled {k : Nat} {q : Position w ε} (short : k < config.maxTransitionCount.toNat)
      (way : iter (transition config) k p = some q) (settled : q.request = q.state)
      (state : s = q.state) (trace : tr = q.trace) : Finishes config p s tr .errNone
  | timeout {q : Position w ε}
      (way : iter (transition config) config.maxTransitionCount.toNat p = some q)
      (state : s = q.state) (trace : tr = q.trace) : Finishes config p s tr .errTimeout
  | outOfBounds {k : Nat} {q : Position w ε} (short : k < config.maxTransitionCount.toNat)
      (way : iter (transition config) k p = some q) (bounds : OutOfBounds config q)
      (state : s = q.state) (trace : tr = q.trace ++ [.exit q.state]) :
      Finishes config p s tr .errOutOfBounds

/-- A machine that runs the configuration, in a state of it. -/
structure Runs (config : SimpleFSMConfig w ε) (fsm : SimpleFSM w ε) : Prop where
  range : InRange fsm
  config : fsm.config = config

/-! ## Every state of the machine -/

section Runs

variable {config : SimpleFSMConfig w ε} {fsm fsm' : SimpleFSM w ε} {call : FsmCall ε}
  {code : ErrorCode} {p : Position w ε}

theorem Runs.state_lt (h : Runs config fsm) : fsm.state < config.stateCount := by
  obtain ⟨hrange, rfl⟩ := h
  exact hrange.state

/-- What a machine runs does not depend on what it has done so far. -/
theorem Runs.of_state (h : Runs config fsm) (hconfig : fsm'.config = fsm.config)
    (hstate : fsm'.state < fsm.config.stateCount) : Runs config fsm' := by
  have hrange := h.range
  constructor
  · constructor
    · rw [hconfig]
      exact hrange.block
    · rw [hconfig]
      exact hrange.initial
    · rw [hconfig]
      exact hrange.limit
    · rw [hconfig]
      exact hstate
  · exact hconfig.trans h.config

/-- An accepted configuration is run. -/
theorem simpleFsmInit_runs {fsm₀ : SimpleFSM w ε}
    (hinit : simpleFsmInit fsm config = (.errNone, fsm₀))
    (hblock : config.stateDelegates.size = config.stateCount.toNat) : Runs config fsm₀ := by
  rw [simpleFsmInit] at hinit
  cases hvalid : simpleFsmValidateConfig config with
  | errNone =>
      rw [hvalid] at hinit
      obtain ⟨-, rfl⟩ := Prod.mk.inj hinit
      obtain ⟨hmax, hinitial⟩ := simpleFsmValidateConfig_eq_errNone hvalid
      exact ⟨⟨hblock, hinitial, hmax, hinitial⟩, rfl⟩
  | _ =>
      rw [hvalid] at hinit
      cases (Prod.mk.inj hinit).1

/-- A resolution leaves a machine that runs the configuration, at the end of
    the way of the handlers. -/
theorem Runs.resolved {fsm₀ : SimpleFSM w ε} {nextState : SizeT w} (h : Runs config fsm₀)
    (hended : Ended fsm₀ nextState (code, fsm')) :
    Runs config fsm' ∧
      Finishes config ⟨fsm₀.state, nextState, fsm₀.trace⟩ fsm'.state fsm'.trace code := by
  have hres := hended.resolved
  refine ⟨⟨hres.range, hres.config.trans h.config⟩, ?_⟩
  rw [← h.config]
  cases hended with
  | settled h hlimit hsettled => exact .settled (h.count_lt hlimit) h.way hsettled rfl rfl
  | timeout h hlimit =>
      have hway := h.way
      rw [h.limit.mp hlimit] at hway
      exact .timeout hway rfl rfl
  | outOfBounds h hlimit hbounds => exact .outOfBounds (h.count_lt hlimit) h.way hbounds rfl rfl

/-- **ONE CALL** that is acted on ends as the way of its handlers does, and a
    start leaves the machine started when it returns no error. -/
theorem Runs.begins (h : Runs config fsm) (hbegins : Begins fsm call p) :
    ∃ code fsm', simpleFsmStep fsm call = some (code, fsm') ∧ Runs config fsm' ∧
      Finishes config p fsm'.state fsm'.trace code ∧
      (fsm'.started = true ↔ call ≠ .start ∨ code = .errNone) := by
  cases hbegins with
  | start hstopped =>
      obtain ⟨code, fsm', hstart, hended⟩ := simpleFsmStart_ended h.range hstopped
      have hruns : Runs config (enterInitial fsm) := h.of_state rfl h.range.initial
      obtain ⟨hruns', hfinishes⟩ := hruns.resolved hended
      by_cases hcode : code ≠ .errNone
      · rw [if_pos hcode] at hstart
        refine ⟨code, _, hstart, hruns'.of_state rfl hruns'.range.state, hfinishes, ?_⟩
        simp [hcode]
      · rw [if_neg hcode] at hstart
        refine ⟨code, _, hstart, hruns', hfinishes, ?_⟩
        rw [hended.resolved.started]
        simp [not_not.mp hcode, enterInitial]
  | onEvent event hstarted =>
      obtain ⟨code, fsm', hevent, hended⟩ := simpleFsmOnEvent_ended h.range hstarted event
      have hruns : Runs config (handleEvent fsm event) := h.of_state rfl h.range.state
      obtain ⟨hruns', hfinishes⟩ := hruns.resolved hended
      refine ⟨code, fsm', hevent, hruns', hfinishes, ?_⟩
      rw [hended.resolved.started]
      simp [handleEvent, hstarted]

/-- A call that is acted on leaves a machine that runs the configuration. -/
theorem Runs.acted (h : Runs config fsm) (hacts : ActsOn fsm.started call) :
    ∃ code fsm', simpleFsmStep fsm call = some (code, fsm') ∧ Runs config fsm' := by
  cases call with
  | start =>
      obtain ⟨code, fsm', hstep, hruns, -⟩ := h.begins (.start hacts)
      exact ⟨code, fsm', hstep, hruns⟩
  | onEvent event =>
      obtain ⟨code, fsm', hstep, hruns, -⟩ := h.begins (.onEvent event hacts)
      exact ⟨code, fsm', hstep, hruns⟩
  | forceStop =>
      exact ⟨_, _, simpleFsmForceStop_eq h.range hacts, h.of_state rfl h.range.state⟩

/-- **ANY CALL** leaves a machine that runs the configuration. -/
theorem Runs.step (call : LifecycleCall ε) (h : Runs config fsm) :
    ∃ r fsm', lifecycleStep fsm call = some (r, fsm') ∧ Runs config fsm' := by
  cases call with
  | call call =>
      by_cases hacts : ActsOn fsm.started call
      · obtain ⟨code, fsm', hstep, h'⟩ := h.acted hacts
        refine ⟨some code, fsm', ?_, h'⟩
        rw [lifecycleStep, hstep]
        rfl
      · obtain ⟨code, hidle⟩ := simpleFsmStep_idle hacts
        refine ⟨some code, fsm, ?_, h⟩
        rw [lifecycleStep, hidle]
        rfl
  | deinit => exact ⟨none, simpleFsmDeinit fsm, rfl, h.of_state rfl h.range.initial⟩

/-- Every state that a program can bring the machine to is one of the
    configuration's. -/
theorem Runs.run (calls : List (LifecycleCall ε)) (h : Runs config fsm) :
    ∃ responses fsm', Transducer.run lifecycleStep fsm calls = some (responses, fsm') ∧
      Runs config fsm' := by
  have hstep : ∀ (fsm : SimpleFSM w ε) (call : LifecycleCall ε), Runs config fsm → True →
      ∃ r fsm', lifecycleStep fsm call = some (r, fsm') ∧ Runs config fsm' := by
    intro fsm call h _
    exact h.step call
  exact run_invariant_of_admits hstep calls fsm h
    (admits_of_forall (fun _ _ => trivial) calls fsm)

end Runs

/-! ## The grammar of one call -/

/-- `k` blocks of an exit and an entry lead from `p` to a position.  A block is
    made where another state is requested.  It goes to the state that the exit
    handler answers, if that is another than the one left, and else to the state
    last requested; it goes to another state, and to one that there is. -/
inductive Blocks (config : SimpleFSMConfig w ε) (p : Position w ε) :
    Nat → Position w ε → Prop where
  | none : Blocks config p 0 p
  | more {k : Nat} {q : Position w ε} (blocks : Blocks config p k q)
      (asks : q.request ≠ q.state) (moves : target config q ≠ q.state)
      (inBounds : target config q < config.stateCount) :
      Blocks config p (k + 1)
        { state := target config q
          request := (config.delegates (target config q)).onEntryHandler
            (q.trace ++ [.exit q.state])
          trace := q.trace ++ [.exit q.state, .entry (target config q)] }

section Grammar

variable {config : SimpleFSMConfig w ε} {p q : Position w ε} {s : SizeT w} {tr : Trace w ε}
  {code : ErrorCode}

/-- A request for another state moves: an answer of the exit handler takes its
    place only if it is another state, too. -/
theorem target_ne (h : q.request ≠ q.state) : target config q ≠ q.state := by
  unfold target
  by_cases hanswer : (config.delegates q.state).onExitHandler q.trace = q.state
  · rw [if_pos hanswer]
    exact h
  · rw [if_neg hanswer]
    exact hanswer

/-- **THE WAY OF THE HANDLERS IS MADE OF BLOCKS.** -/
theorem blocks_of_iter : ∀ k q, iter (transition config) k p = some q → Blocks config p k q := by
  intro k
  induction k with
  | zero =>
      intro q h
      obtain rfl : p = q := Option.some.inj h
      exact .none
  | succ k ih =>
      intro q h
      obtain ⟨r, hr, hnext⟩ := Option.bind_eq_some_iff.mp h
      have hblocks := ih r hr
      by_cases hsettled : r.request = r.state
      · rw [transition_of_settled hsettled] at hnext
        exact nomatch hnext
      · by_cases hout : target config r ≥ config.stateCount
        · rw [transition_of_outOfBounds ⟨hsettled, hout⟩] at hnext
          exact nomatch hnext
        · rw [transition_of_inBounds hsettled hout] at hnext
          obtain rfl := Option.some.inj hnext
          rw [List.append_assoc]
          exact .more hblocks hsettled (target_ne hsettled) (BitVec.not_le.mp hout)

/-- The calls of handlers that a finished call has made follow the grammar. -/
theorem Finishes.grammar (h : Finishes config p s tr code) :
    ∃ k q, k ≤ config.maxTransitionCount.toNat ∧ Blocks config p k q ∧ s = q.state ∧
      tr = q.trace ++ if code = .errOutOfBounds then [.exit q.state] else [] := by
  cases h with
  | settled hshort hway _ hstate htrace =>
      refine ⟨_, _, Nat.le_of_lt hshort, blocks_of_iter _ _ hway, hstate, ?_⟩
      simp [htrace]
  | timeout hway hstate htrace =>
      refine ⟨_, _, Nat.le_refl _, blocks_of_iter _ _ hway, hstate, ?_⟩
      simp [htrace]
  | outOfBounds hshort hway _ hstate htrace =>
      refine ⟨_, _, Nat.le_of_lt hshort, blocks_of_iter _ _ hway, hstate, ?_⟩
      simp [htrace]

end Grammar

/-- **THE GRAMMAR OF ONE CALL**: from every state that a program can bring the
    machine to, a start or an event calls its first handler, then blocks of an
    exit and an entry, and then once more an exit exactly when it returns
    `ERR_OUT_OF_BOUNDS`.  It makes no fewer blocks than the handlers ask for: it
    ends settled, out of transitions or out of bounds, as the result says. -/
theorem simple_fsm_call_grammar {fsm fsm₀ : SimpleFSM w ε} {config : SimpleFSMConfig w ε}
    (hinit : simpleFsmInit fsm config = (.errNone, fsm₀))
    (hblock : config.stateDelegates.size = config.stateCount.toNat)
    (calls : List (LifecycleCall ε)) :
    ∃ responses fsm₁, run lifecycleStep fsm₀ calls = some (responses, fsm₁) ∧
      fsm₁.state < config.stateCount ∧
      ∀ call p, Begins fsm₁ call p →
        ∃ code fsm', simpleFsmStep fsm₁ call = some (code, fsm') ∧
          Finishes config p fsm'.state fsm'.trace code ∧
          ∃ k q, k ≤ config.maxTransitionCount.toNat ∧ Blocks config p k q ∧
            fsm'.state = q.state ∧ fsm'.state < config.stateCount ∧
            fsm'.trace
              = q.trace ++ if code = .errOutOfBounds then [.exit q.state] else [] := by
  obtain ⟨responses, fsm₁, hrun, hruns⟩ := (simpleFsmInit_runs hinit hblock).run calls
  refine ⟨responses, fsm₁, hrun, hruns.state_lt, ?_⟩
  intro call p hbegins
  obtain ⟨code, fsm', hstep, hruns', hfinishes, -⟩ := hruns.begins hbegins
  obtain ⟨k, q, hk, hblocks, hstate, htrace⟩ := hfinishes.grammar
  exact ⟨code, fsm', hstep, hfinishes, k, q, hk, hblocks, hstate, hruns'.state_lt, htrace⟩

/-- Two states; the first requests the second when it is entered, and there is
    one transition for it. -/
def handoverConfig : SimpleFSMConfig 8 Unit where
  stateDelegates := ⟨2, fun s => ⟨fun _ => 1, fun _ _ => 0, fun _ => BitVec.ofNat 8 s⟩⟩
  stateCount := 2
  initialState := 0
  maxTransitionCount := 1

/-- A machine of these two states, before its first call. -/
def handoverFsm : SimpleFSM 8 Unit := ⟨false, handoverConfig, 0, []⟩

/-- The grammar of a second start, after a start and a deinit. -/
theorem simple_fsm_call_grammar_handover :
    ∃ responses fsm₁, run lifecycleStep handoverFsm [.call .start, .deinit]
        = some (responses, fsm₁) ∧
      fsm₁.state < 2#8 ∧
      ∀ call p, Begins fsm₁ call p →
        ∃ code fsm', simpleFsmStep fsm₁ call = some (code, fsm') ∧
          Finishes handoverConfig p fsm'.state fsm'.trace code ∧
          ∃ k q, k ≤ 1 ∧ Blocks handoverConfig p k q ∧
            fsm'.state = q.state ∧ fsm'.state < 2#8 ∧
            fsm'.trace
              = q.trace ++ if code = .errOutOfBounds then [.exit q.state] else [] := by
  have hinit : simpleFsmInit handoverFsm handoverConfig = (.errNone, handoverFsm) := rfl
  exact simple_fsm_call_grammar hinit rfl [.call .start, .deinit]

/-! ## The result of one call -/

/-- From `p` the handlers settle, with at most as many transitions as there
    may be. -/
def Settles (config : SimpleFSMConfig w ε) (p : Position w ε) : Prop :=
  ∃ k ≤ config.maxTransitionCount.toNat, ∃ q,
    iter (transition config) k p = some q ∧ q.request = q.state

/-- From `p` the handlers have all transitions made that there may be, and ask
    for another state still. -/
def KeepsRequesting (config : SimpleFSMConfig w ε) (p : Position w ε) : Prop :=
  ∃ q, iter (transition config) config.maxTransitionCount.toNat p = some q ∧
    q.request ≠ q.state

/-- From `p` the handlers settle with the last transition there may be. -/
def SettlesAtLimit (config : SimpleFSMConfig w ε) (p : Position w ε) : Prop :=
  ∃ q, iter (transition config) config.maxTransitionCount.toNat p = some q ∧
    q.request = q.state

/-- The result says whether the handlers have settled, unless they ask for a
    state that there is not; and a start that settles leaves the machine
    started. -/
def ReportsTruly (config : SimpleFSMConfig w ε) (p : Position w ε) (call : FsmCall ε)
    (code : ErrorCode) (fsm' : SimpleFSM w ε) : Prop :=
  code ≠ .errOutOfBounds →
    (code = .errNone ↔ Settles config p) ∧
    (code = .errTimeout ↔ KeepsRequesting config p) ∧
    (call = .start → Settles config p → fsm'.started = true)

section Reports

variable {config : SimpleFSMConfig w ε} {p q : Position w ε} {s : SizeT w} {tr : Trace w ε}
  {code : ErrorCode} {k : Nat}

/-- A way that gets stuck before the limit does not reach the limit. -/
theorem not_limit_of_stuck (hshort : k < config.maxTransitionCount.toNat)
    (hway : iter (transition config) k p = some q) (hstuck : transition config q = none) :
    ¬ SettlesAtLimit config p ∧ ¬ KeepsRequesting config p := by
  have hnone := iter_eq_none_of_stuck hway hstuck hshort
  constructor
  · rintro ⟨q', hq', -⟩
    rw [hnone] at hq'
    exact nomatch hq'
  · rintro ⟨q', hq', -⟩
    rw [hnone] at hq'
    exact nomatch hq'

/-- A way that reaches the limit settles there or not at all. -/
theorem settles_iff_of_limit
    (hway : iter (transition config) config.maxTransitionCount.toNat p = some q) :
    Settles config p ↔ q.request = q.state := by
  constructor
  · rintro ⟨k, hk, q', hq', hsettled⟩
    rcases Nat.lt_or_eq_of_le hk with hlt | rfl
    · rw [iter_eq_none_of_stuck hq' (transition_of_settled hsettled) hlt] at hway
      exact nomatch hway
    · rw [hq'] at hway
      obtain rfl := Option.some.inj hway
      exact hsettled
  · intro hsettled
    exact ⟨_, Nat.le_refl _, q, hway, hsettled⟩

theorem settlesAtLimit_iff
    (hway : iter (transition config) config.maxTransitionCount.toNat p = some q) :
    SettlesAtLimit config p ↔ q.request = q.state := by
  constructor
  · rintro ⟨q', hq', hsettled⟩
    rw [hq'] at hway
    obtain rfl := Option.some.inj hway
    exact hsettled
  · intro hsettled
    exact ⟨q, hway, hsettled⟩

theorem keepsRequesting_iff
    (hway : iter (transition config) config.maxTransitionCount.toNat p = some q) :
    KeepsRequesting config p ↔ q.request ≠ q.state := by
  constructor
  · rintro ⟨q', hq', hasks⟩
    rw [hq'] at hway
    obtain rfl := Option.some.inj hway
    exact hasks
  · intro hasks
    exact ⟨q, hway, hasks⟩

/-- **THE RESULT OF A FINISHED CALL** is the right one exactly when the handlers
    do not settle with the last transition. -/
theorem Finishes.reportsTruly_iff {call : FsmCall ε} {fsm' : SimpleFSM w ε}
    (h : Finishes config p s tr code)
    (hstarted : fsm'.started = true ↔ call ≠ .start ∨ code = .errNone) :
    ReportsTruly config p call code fsm' ↔ ¬ SettlesAtLimit config p := by
  cases h with
  | settled hshort hway hsettled _ _ =>
      obtain ⟨hlimit, hkeeps⟩ := not_limit_of_stuck hshort hway (transition_of_settled hsettled)
      have hsettles : Settles config p := ⟨_, Nat.le_of_lt hshort, _, hway, hsettled⟩
      constructor
      · intro _
        exact hlimit
      · intro _ _
        refine ⟨?_, ?_, ?_⟩
        · simp [hsettles]
        · simp [hkeeps]
        · intro _ _
          exact hstarted.mpr (.inr rfl)
  | timeout hway _ _ =>
      rw [settlesAtLimit_iff hway, ReportsTruly, settles_iff_of_limit hway,
        keepsRequesting_iff hway]
      constructor
      · intro hreports hsettled
        -- settled at the limit: the code would have to be `ERR_NONE`
        have hcode := (hreports nofun).1.mpr hsettled
        exact nomatch hcode
      · intro hasks _
        refine ⟨?_, ?_, ?_⟩
        · simp [hasks]
        · simp [hasks]
        · intro _ hsettled
          exact absurd hsettled hasks
  | outOfBounds hshort hway hbounds _ _ =>
      obtain ⟨hlimit, -⟩ := not_limit_of_stuck hshort hway (transition_of_outOfBounds hbounds)
      constructor
      · intro _
        exact hlimit
      · intro _ hcode
        exact absurd rfl hcode

end Reports

/-- **TIMEOUTS**: in every state that a program can bring the machine to, a start
    or an event says rightly whether it has settled exactly when its handlers
    do not settle with the last transition there may be. -/
theorem simple_fsm_timeout_iff {fsm fsm₀ : SimpleFSM w ε} {config : SimpleFSMConfig w ε}
    (hinit : simpleFsmInit fsm config = (.errNone, fsm₀))
    (hblock : config.stateDelegates.size = config.stateCount.toNat)
    (calls : List (LifecycleCall ε)) :
    ∃ responses fsm₁, run lifecycleStep fsm₀ calls = some (responses, fsm₁) ∧
      ∀ call p, Begins fsm₁ call p →
        ∃ code fsm', simpleFsmStep fsm₁ call = some (code, fsm') ∧
          (ReportsTruly config p call code fsm' ↔ ¬ SettlesAtLimit config p) := by
  obtain ⟨responses, fsm₁, hrun, hruns⟩ := (simpleFsmInit_runs hinit hblock).run calls
  refine ⟨responses, fsm₁, hrun, ?_⟩
  intro call p hbegins
  obtain ⟨code, fsm', hstep, -, hfinishes, hstarted⟩ := hruns.begins hbegins
  exact ⟨code, fsm', hstep, hfinishes.reportsTruly_iff hstarted⟩

/-- The results of a start and of an event after it. -/
theorem simple_fsm_timeout_iff_handover :
    ∃ responses fsm₁, run lifecycleStep handoverFsm [.call .start] = some (responses, fsm₁) ∧
      ∀ call p, Begins fsm₁ call p →
        ∃ code fsm', simpleFsmStep fsm₁ call = some (code, fsm') ∧
          (ReportsTruly handoverConfig p call code fsm' ↔ ¬ SettlesAtLimit handoverConfig p) := by
  have hinit : simpleFsmInit handoverFsm handoverConfig = (.errNone, handoverFsm) := rfl
  exact simple_fsm_timeout_iff hinit rfl [.call .start]

/-- **A TIMEOUT OF A SETTLED MACHINE**: the start makes the one transition there
    may be, the state entered requests itself, and the machine is reported
    timed out and marked as stopped. -/
theorem simple_fsm_times_out_settled :
    ∃ fsm', simpleFsmInit handoverFsm handoverConfig = (.errNone, handoverFsm) ∧
      simpleFsmStart handoverFsm = some (.errTimeout, fsm') ∧
      Settles handoverConfig (startPosition handoverFsm) ∧ fsm'.started = false ∧
      ¬ ReportsTruly handoverConfig (startPosition handoverFsm) .start .errTimeout fsm' := by
  have hsettles : Settles handoverConfig (startPosition handoverFsm) :=
    ⟨1, Nat.le_refl 1, ⟨1, 1, [.entry 0, .exit 0, .entry 1]⟩, rfl, rfl⟩
  refine ⟨{ handoverFsm with state := 1, trace := [.entry 0, .exit 0, .entry 1] }, rfl, rfl,
    hsettles, rfl, ?_⟩
  intro hreports
  have hcode := (hreports nofun).1.mpr hsettles
  exact nomatch hcode

end CembSimpleFsm
