import CEmbeddedUtils.RecurrenceProofs
import CEmbeddedUtils.SimpleFsmGrammarProofs

/-! # The transition limit of the simple state machine — when a timeout is final

    `max_transition_count` is there so that handlers that never settle do not keep the
    engine in its loop.  Handlers may depend on all that has been called before, and
    then a timeout says only that the limit was too low.

    It says more of handlers without a memory, whose answers on entry and on exit are
    always the same for a state.  Once the limit is above the number of states, such
    handlers either settle, or ask for a state that there is not, after at most as many
    transitions as there are states; or they go round in a circle, and no limit would
    have been enough. -/

namespace CembSimpleFsm

open PartialIteration Transducer

variable {w : Nat} {ε : Type}

/-- The entry handler and the exit handler of a state answer the same whatever has
    been called before; its event handler may answer anything. -/
def Memoryless (config : SimpleFSMConfig w ε) : Prop :=
  ∀ state trace trace', (config.delegates state).onEntryHandler trace
      = (config.delegates state).onEntryHandler trace' ∧
    (config.delegates state).onExitHandler trace = (config.delegates state).onExitHandler trace'

/-- From `p` the handlers ask for transitions for ever. -/
def NeverSettles (config : SimpleFSMConfig w ε) (p : Position w ε) : Prop :=
  ∀ k, ∃ q, iter (transition config) k p = some q

/-- From `p` the handlers settle with at most `n` transitions. -/
def SettlesWithin (config : SimpleFSMConfig w ε) (p : Position w ε) (n : Nat) : Prop :=
  ∃ k ≤ n, ∃ q, iter (transition config) k p = some q ∧ q.request = q.state

/-- From `p` the handlers ask for a state that there is not, after at most `n`
    transitions. -/
def StraysWithin (config : SimpleFSMConfig w ε) (p : Position w ε) (n : Nat) : Prop :=
  ∃ k ≤ n, ∃ q, iter (transition config) k p = some q ∧ OutOfBounds config q

/-- The view of a position without the calls made so far. -/
def view (p : Position w ε) : SizeT w × SizeT w := (p.state, p.request)

section Ways

variable {config : SimpleFSMConfig w ε} {p q : Position w ε} {n : Nat}

/-- A transition leads to a state of the machine, with the request of its entry
    handler. -/
theorem transition_eq_some (h : transition config p = some q) :
    q.state < config.stateCount ∧
      ∃ trace, q.request = (config.delegates q.state).onEntryHandler trace := by
  by_cases hsettled : p.request = p.state
  · rw [transition_of_settled hsettled] at h
    cases h
  · by_cases hout : target config p ≥ config.stateCount
    · rw [transition_of_outOfBounds ⟨hsettled, hout⟩] at h
      cases h
    · rw [transition_of_inBounds hsettled hout] at h
      obtain rfl := Option.some.inj h
      exact ⟨BitVec.not_le.mp hout, _, rfl⟩

/-- **WITHOUT A MEMORY**, the state and the request decide where a transition leads. -/
theorem Memoryless.decidedBy (h : Memoryless config) : DecidedBy (transition config) view := by
  rintro ⟨state, request, trace⟩ ⟨state', request', trace'⟩ hview
  obtain ⟨rfl, rfl⟩ := Prod.mk.inj hview
  have htarget : target config ⟨state, request, trace⟩
      = target config ⟨state, request, trace'⟩ := by
    simp only [target, (h state trace trace').2]
  simp only [transition, htarget]
  by_cases hsettled : request = state
  · rw [if_pos hsettled, if_pos hsettled]
  · rw [if_neg hsettled, if_neg hsettled]
    by_cases hout : target config ⟨state, request, trace'⟩ ≥ config.stateCount
    · rw [if_pos hout, if_pos hout]
    · rw [if_neg hout, if_neg hout]
      exact congrArg (fun answer => some (target config ⟨state, request, trace'⟩, answer))
        (h _ _ _).1

/-- The views there can be after a transition: one for each state. -/
def viewsOf (config : SimpleFSMConfig w ε) : Finset (SizeT w × SizeT w) :=
  (Finset.range config.stateCount.toNat).image fun state =>
    (BitVec.ofNat w state, (config.delegates (BitVec.ofNat w state)).onEntryHandler [])

theorem card_viewsOf_le : (viewsOf config).card ≤ config.stateCount.toNat :=
  Finset.card_image_le.trans (Nat.le_of_eq (Finset.card_range _))

theorem Memoryless.view_mem (h : Memoryless config) (hn : 0 < n)
    (hq : iter (transition config) n p = some q) : view q ∈ viewsOf config := by
  obtain ⟨m, rfl⟩ : ∃ m, n = m + 1 := ⟨n - 1, by omega⟩
  obtain ⟨r, -, hlast⟩ := Option.bind_eq_some_iff.mp hq
  obtain ⟨hstate, trace, hrequest⟩ := transition_eq_some hlast
  refine Finset.mem_image.mpr ⟨q.state.toNat, Finset.mem_range.mpr hstate, ?_⟩
  rw [BitVec.ofNat_toNat, BitVec.setWidth_eq, view, hrequest]
  exact congrArg (Prod.mk q.state) (h q.state [] trace).1

/-- **MORE TRANSITIONS THAN STATES**: then there is no end to them. -/
theorem Memoryless.neverSettles (h : Memoryless config) (hlong : config.stateCount.toNat < n)
    (hq : iter (transition config) n p = some q) : NeverSettles config p :=
  never_ends_of_card_lt h.decidedBy (viewsOf config) (fun _ _ hm hr => h.view_mem hm hr)
    (Nat.lt_of_le_of_lt card_viewsOf_le hlong) hq

/-- What ends, ends after at most as many transitions as there are states. -/
theorem Memoryless.short_of_stuck (h : Memoryless config)
    (hq : iter (transition config) n p = some q) (hstuck : transition config q = none) :
    n ≤ config.stateCount.toNat ∧ ¬ NeverSettles config p := by
  have hends : ¬ NeverSettles config p := by
    intro hnever
    obtain ⟨r, hr⟩ := hnever (n + 1)
    rw [iter_eq_none_of_stuck hq hstuck (Nat.lt_succ_self n)] at hr
    cases hr
  exact ⟨Nat.le_of_not_lt fun hlong => hends (h.neverSettles hlong hq), hends⟩

end Ways

/-- The result of a call says how the handlers end, within as many transitions as
    there are states, or that they do not. -/
structure LimitIsFinal (config : SimpleFSMConfig w ε) (p : Position w ε) (code : ErrorCode) :
    Prop where
  settles : code = .errNone ↔ SettlesWithin config p config.stateCount.toNat
  strays : code = .errOutOfBounds ↔ StraysWithin config p config.stateCount.toNat
  never : code = .errTimeout ↔ NeverSettles config p

/-- The result of a finished call, where the limit is above the number of states. -/
theorem Finishes.limitIsFinal {config : SimpleFSMConfig w ε} {p : Position w ε} {s : SizeT w}
    {tr : Trace w ε} {code : ErrorCode} (h : Finishes config p s tr code)
    (hmemory : Memoryless config) (hlimit : config.stateCount < config.maxTransitionCount) :
    LimitIsFinal config p code := by
  cases h with
  | settled hshort hway hsettled _ _ =>
      have hstuck : transition config _ = none := transition_of_settled hsettled
      obtain ⟨hbound, hends⟩ := hmemory.short_of_stuck hway hstuck
      refine ⟨?_, ?_, ?_⟩
      · exact iff_of_true rfl ⟨_, hbound, _, hway, hsettled⟩
      · refine iff_of_false nofun ?_
        rintro ⟨k, -, q, hq, hout⟩
        have hsame := stuck_unique hway hstuck hq (transition_of_outOfBounds hout)
        rw [hsame] at hsettled
        exact hout.1 hsettled
      · exact iff_of_false nofun hends
  | timeout hway _ _ =>
      have hnever := hmemory.neverSettles hlimit hway
      refine ⟨?_, ?_, ?_⟩
      · refine iff_of_false nofun ?_
        rintro ⟨k, -, q, hq, hsettled⟩
        exact (hmemory.short_of_stuck hq (transition_of_settled hsettled)).2 hnever
      · refine iff_of_false nofun ?_
        rintro ⟨k, -, q, hq, hout⟩
        exact (hmemory.short_of_stuck hq (transition_of_outOfBounds hout)).2 hnever
      · exact iff_of_true rfl hnever
  | outOfBounds hshort hway hbounds _ _ =>
      have hstuck := transition_of_outOfBounds hbounds
      obtain ⟨hbound, hends⟩ := hmemory.short_of_stuck hway hstuck
      refine ⟨?_, ?_, ?_⟩
      · refine iff_of_false nofun ?_
        rintro ⟨k, -, q, hq, hsettled⟩
        have hsame := stuck_unique hway hstuck hq (transition_of_settled hsettled)
        rw [← hsame] at hsettled
        exact hbounds.1 hsettled
      · exact iff_of_true rfl ⟨_, hbound, _, hway, hbounds⟩
      · exact iff_of_false nofun hends

/-! ## Another limit -/

/-- The same configuration with another `max_transition_count`. -/
def SimpleFSMConfig.withLimit (config : SimpleFSMConfig w ε) (limit : SizeT w) :
    SimpleFSMConfig w ε :=
  { config with maxTransitionCount := limit }

/-- The same machine with another `max_transition_count` in its configuration. -/
def SimpleFSM.withLimit (fsm : SimpleFSM w ε) (limit : SizeT w) : SimpleFSM w ε :=
  { fsm with config := fsm.config.withLimit limit }

section Limits

variable {config : SimpleFSMConfig w ε} {fsm : SimpleFSM w ε} {p : Position w ε}
  {s s' limit : SizeT w} {tr tr' : Trace w ε} {code code' : ErrorCode}

theorem Runs.withLimit (h : Runs config fsm) (hlimit : 0 < limit.toNat) :
    Runs (config.withLimit limit) (fsm.withLimit limit) := by
  obtain ⟨hrange, rfl⟩ := h
  exact ⟨⟨hrange.block, hrange.initial, hlimit, hrange.state⟩, rfl⟩

theorem Begins.withLimit {call : FsmCall ε} (h : Begins fsm call p) :
    Begins (fsm.withLimit limit) call p := by
  cases h with
  | start hstopped => exact .start hstopped
  | onEvent event hstarted => exact .onEvent event hstarted

/-- How the handlers end is no matter of the limit, and it decides the result. -/
theorem LimitIsFinal.code_eq (h : LimitIsFinal config p code)
    (h' : LimitIsFinal (config.withLimit limit) p code')
    (hfinishes : Finishes (config.withLimit limit) p s tr code') : code' = code := by
  cases hfinishes with
  | settled _ _ _ _ _ => exact (h.settles.mpr (h'.settles.mp rfl)).symm
  | timeout _ _ _ => exact (h.never.mpr (h'.never.mp rfl)).symm
  | outOfBounds _ _ _ _ _ => exact (h.strays.mpr (h'.strays.mp rfl)).symm

/-- Handlers that end, end in the same place under every limit that lets them. -/
theorem Finishes.end_eq (h : Finishes config p s tr code)
    (h' : Finishes (config.withLimit limit) p s' tr' code) (hcode : code ≠ .errTimeout) :
    s' = s ∧ tr' = tr := by
  cases h with
  | settled _ hway hsettled hstate htrace =>
      cases h' with
      | settled _ hway' hsettled' hstate' htrace' =>
          obtain rfl := stuck_unique hway (transition_of_settled hsettled) hway'
            (transition_of_settled hsettled')
          exact ⟨hstate'.trans hstate.symm, htrace'.trans htrace.symm⟩
  | timeout _ _ _ => exact absurd rfl hcode
  | outOfBounds _ hway hbounds hstate htrace =>
      cases h' with
      | outOfBounds _ hway' hbounds' hstate' htrace' =>
          obtain rfl := stuck_unique hway (transition_of_outOfBounds hbounds) hway'
            (transition_of_outOfBounds hbounds')
          exact ⟨hstate'.trans hstate.symm, htrace'.trans htrace.symm⟩

/-- **ANOTHER LIMIT ABOVE THE NUMBER OF STATES** gives the same result, and the same
    machine after the call, unless the call times out under both. -/
theorem Runs.begins_withLimit (h : Runs config fsm) (hmemory : Memoryless config)
    {call : FsmCall ε} (hbegins : Begins fsm call p) {fsm' : SimpleFSM w ε}
    (hruns' : Runs config fsm') (hfinishes : Finishes config p fsm'.state fsm'.trace code)
    (hstarted : fsm'.started = true ↔ call ≠ .start ∨ code = .errNone)
    (hfinal : LimitIsFinal config p code) (hlimit : config.stateCount < limit) :
    ∃ fsm'', simpleFsmStep (fsm.withLimit limit) call = some (code, fsm'') ∧
      (code ≠ .errTimeout → fsm'' = fsm'.withLimit limit) := by
  have hpos : 0 < limit.toNat := Nat.zero_lt_of_lt hlimit
  obtain ⟨code', fsm'', hstep, hruns'', hfinishes'', hstarted''⟩ :=
    (h.withLimit hpos).begins hbegins.withLimit
  obtain rfl := hfinal.code_eq (hfinishes''.limitIsFinal hmemory hlimit) hfinishes''
  refine ⟨fsm'', hstep, ?_⟩
  intro hcode
  obtain ⟨hstate, htrace⟩ := hfinishes.end_eq hfinishes'' hcode
  have hsame : fsm''.started = fsm'.started := Bool.eq_iff_iff.mpr (hstarted''.trans hstarted.symm)
  have hconfig : fsm''.config = fsm'.config.withLimit limit := by
    rw [hruns''.config, hruns'.config]
  obtain ⟨started, config', state, trace⟩ := fsm''
  obtain rfl : started = _ := hsame
  obtain rfl : config' = _ := hconfig
  obtain rfl : state = _ := hstate
  obtain rfl : trace = _ := htrace
  rfl

end Limits

/-- **A LIMIT ABOVE THE NUMBER OF STATES IS FINAL.**  Of handlers without a memory, in
    every state that a program can bring the machine to, a start or an event returns
    `ERR_TIMEOUT` exactly when they would never settle, whatever the limit; and
    `ERR_NONE` or `ERR_OUT_OF_BOUNDS` exactly when they settle, or ask for a state that
    there is not, after at most as many transitions as there are states.  Under any other
    such limit the result is the same, and without a timeout the machine is, too. -/
theorem simple_fsm_limit_is_final {fsm fsm₀ : SimpleFSM w ε} {config : SimpleFSMConfig w ε}
    (hinit : simpleFsmInit fsm config = (.errNone, fsm₀))
    (hblock : config.stateDelegates.size = config.stateCount.toNat)
    (hmemory : Memoryless config) (hlimit : config.stateCount < config.maxTransitionCount)
    (calls : List (LifecycleCall ε)) :
    ∃ responses fsm₁, run lifecycleStep fsm₀ calls = some (responses, fsm₁) ∧
      ∀ call p, Begins fsm₁ call p →
        ∃ code fsm', simpleFsmStep fsm₁ call = some (code, fsm') ∧
          LimitIsFinal config p code ∧
          ∀ limit, config.stateCount < limit →
            ∃ fsm'', simpleFsmStep (fsm₁.withLimit limit) call = some (code, fsm'') ∧
              (code ≠ .errTimeout → fsm'' = fsm'.withLimit limit) := by
  obtain ⟨responses, fsm₁, hrun, hruns⟩ := (simpleFsmInit_runs hinit hblock).run calls
  refine ⟨responses, fsm₁, hrun, ?_⟩
  intro call p hbegins
  obtain ⟨code, fsm', hstep, hruns', hfinishes, hstarted⟩ := hruns.begins hbegins
  have hfinal := hfinishes.limitIsFinal hmemory hlimit
  refine ⟨code, fsm', hstep, hfinal, ?_⟩
  intro limit hlimit'
  exact hruns.begins_withLimit hmemory hbegins hruns' hfinishes hstarted hfinal hlimit'

/-- Two states, each of which requests the other when it is entered. -/
def pingPongConfig : SimpleFSMConfig 8 Unit where
  stateDelegates := ⟨2, fun s =>
    ⟨fun _ => if s = 0 then 1 else 0, fun _ _ => 0, fun _ => BitVec.ofNat 8 s⟩⟩
  stateCount := 2
  initialState := 0
  maxTransitionCount := 3

/-- A machine of these two states, before its first call. -/
def pingPongFsm : SimpleFSM 8 Unit := ⟨false, pingPongConfig, 0, []⟩

/-- The two states that request each other time out, never settle, and time out as well
    with 200 transitions. -/
theorem simple_fsm_limit_is_final_ping_pong :
    ∃ fsm', simpleFsmStep pingPongFsm .start = some (.errTimeout, fsm') ∧
      NeverSettles pingPongConfig (startPosition pingPongFsm) ∧
      ∃ fsm'', simpleFsmStep (pingPongFsm.withLimit 200) .start = some (.errTimeout, fsm'') := by
  have hinit : simpleFsmInit pingPongFsm pingPongConfig = (.errNone, pingPongFsm) := rfl
  obtain ⟨responses, fsm₁, hrun, hcalls⟩ := simple_fsm_limit_is_final hinit rfl
    (fun _ _ _ => ⟨rfl, rfl⟩) (by decide) []
  obtain ⟨-, rfl⟩ := Prod.mk.inj (Option.some.inj hrun)
  obtain ⟨code, fsm', hstep, hfinal, hlimits⟩ := hcalls .start _ (.start rfl)
  have hcode : (simpleFsmStep pingPongFsm .start).map Prod.fst = some .errTimeout := rfl
  rw [hstep] at hcode
  obtain rfl : code = .errTimeout := Option.some.inj hcode
  obtain ⟨fsm'', hstep', -⟩ := hlimits 200 (by decide)
  exact ⟨fsm', hstep, hfinal.never.mp rfl, fsm'', hstep'⟩

end CembSimpleFsm
