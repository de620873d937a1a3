import CEmbeddedUtils.TransducerProofs

/-! # Lifecycles — machines that are opened, closed and opened again

    A component is set up with a configuration, used, taken down, and set up again
    with another.  Seen from outside it is CLOSED or OPEN: while closed it answers
    every call in a fixed way, while open it is a machine of its own, and an init
    that is refused changes nothing.

    `lifecycle_simulates` puts this together from its parts: what an init makes, that
    deinit closes whatever state it finds, that a closed state answers and stays, and
    that the open machine refines its specification. -/

namespace Transducer

variable {σ τ κ Config Code Op Res : Type}

/-- The calls of a lifecycle. -/
inductive LifecycleOp (Config Op : Type) where
  | init (config : Config)
  | deinit
  | call (op : Op)

/-- What they answer. -/
inductive LifecycleRes (Code Res : Type) where
  | inited (code : Code)
  | deinited
  | answered (r : Res)
  deriving DecidableEq

/-- The machine with its init and its deinit. -/
def lifecycle (init : σ → Config → Code × σ) (deinit : σ → σ) (step : Step σ Op Res) :
    Step σ (LifecycleOp Config Op) (LifecycleRes Code Res)
  | s, .init config => some (.inited (init s config).1, (init s config).2)
  | s, .deinit => some (.deinited, deinit s)
  | s, .call op => (step s op).map fun (r, s') => (.answered r, s')

/-- What a component of this kind is meant to do: `opened` says what a configuration
    makes, if it is accepted; `closed` is what a closed component answers. -/
def lifecycleSpec (opened : Config → Option τ) (accepted refused : Code) (spec : Spec τ Op Res)
    (closed : Op → Res) : Spec (Option τ) (LifecycleOp Config Op) (LifecycleRes Code Res)
  | t, .init config =>
      match opened config with
      | some t₀ => (.inited accepted, some t₀)
      | none => (.inited refused, t)
  | _, .deinit => (.deinited, none)
  | none, .call op => (.answered (closed op), none)
  | some t, .call op => (.answered (spec t op).1, some (spec t op).2)

/-- A specification for every size, as one that remembers the size. -/
def sized (spec : κ → Spec τ Op Res) : Spec (κ × τ) Op Res
  | (k, t), op => ((spec k t op).1, (k, (spec k t op).2))

/-- The states of a component and of its specification, closed or open. -/
def LifecycleRel (closed : σ → Prop) (R : σ → τ → Prop) (s : σ) : Option τ → Prop
  | none => closed s
  | some t => R s t

/-- Simulations for every size are one of the specification that remembers it. -/
theorem sized_simulates {step : Step σ Op Res} {spec : κ → Spec τ Op Res}
    {R : κ → σ → τ → Prop} (hsim : ∀ k, Simulates step (spec k) (R k)) :
    Simulates step (sized spec) (fun s (k, t) => R k s t) := by
  rintro s ⟨k, t⟩ op h
  exact hsim k s t op h

/-- **LIFECYCLE RULE**: a component refines its lifecycle when an init makes what it is
    meant to or changes nothing, deinit closes any state, a closed state answers in the
    fixed way and stays, and the open machine refines its specification. -/
theorem lifecycle_simulates {init : σ → Config → Code × σ} {deinit : σ → σ}
    {step : Step σ Op Res} {opened : Config → Option τ} {accepted refused : Code}
    {spec : Spec τ Op Res} {answer : Op → Res} {closed : σ → Prop} {R : σ → τ → Prop}
    (hopened : ∀ s config t, opened config = some t →
      ∃ s₀, init s config = (accepted, s₀) ∧ R s₀ t)
    (hrefused : ∀ s config, opened config = none → init s config = (refused, s))
    (hdeinit : ∀ s, closed (deinit s))
    (hclosed : ∀ s op, closed s → step s op = some (answer op, s))
    (hopen : Simulates step spec R) :
    Simulates (lifecycle init deinit step) (lifecycleSpec opened accepted refused spec answer)
      (LifecycleRel closed R) := by
  intro s t op h
  cases op with
  | init config =>
      cases hconfig : opened config with
      | none =>
          simp only [lifecycle, lifecycleSpec, hrefused s config hconfig, hconfig]
          exact ⟨s, rfl, h⟩
      | some t₀ =>
          obtain ⟨s₀, hinit, h₀⟩ := hopened s config t₀ hconfig
          simp only [lifecycle, lifecycleSpec, hinit, hconfig]
          exact ⟨s₀, rfl, h₀⟩
  | deinit => exact ⟨deinit s, rfl, hdeinit s⟩
  | call op =>
      cases t with
      | none =>
          refine ⟨s, ?_, h⟩
          rw [lifecycle, hclosed s op h]
          rfl
      | some t =>
          obtain ⟨s', hstep, h'⟩ := hopen s t op h
          refine ⟨s', ?_, h'⟩
          rw [lifecycle, hstep]
          rfl

/-- Specifications that agree on every operation of a run give the same run. -/
theorem runSpec_congr {spec spec' : Spec τ Op Res} {ops : List Op}
    (h : ∀ op ∈ ops, ∀ t, spec t op = spec' t op) (t : τ) :
    runSpec spec t ops = runSpec spec' t ops := by
  induction ops generalizing t with
  | nil => rfl
  | cons op ops ih =>
      obtain ⟨hop, hrest⟩ := List.forall_mem_cons.mp h
      rw [runSpec, runSpec, hop t, ih hrest]

end Transducer
