import Mathlib.Algebra.BigOperators.Group.List.Basic
import Mathlib.Algebra.GroupWithZero.Nat

/-! # Machines that answer — runs, invariants and refinement

    A component with an interface is a deterministic machine: in a state, an
    operation either is UNDEFINED (an access outside its block, an overflow, a
    loop that does not end) or gives one response and one next state.  A
    finite sequence of calls is a run.

    The rules here lift a fact about one step to every run:

    * `run_history` — an invariant of the state and of the past responses that
      every step keeps holds after every run;
    * `run_operations` — the same for the past operations;
    * `run_invariant_of_admits` — an invariant that every step keeps holds after
      every run whose operations are admitted by the states they are issued in;
    * `run_keeps` — what every defined step keeps, every defined run keeps;
    * `run_inert_iff` — a machine answers all runs from a state in a fixed way and
      stays there exactly when it does so on every single call;
    * `exists_undefined_run` — a machine that can always come closer to an undefined
      step has an undefined run;
    * `run_balance` — a quantity that every step changes by what its response
      says balances over every run;
    * `run_amortised` — a run spends no more than its operations bring in and its
      first state has saved;
    * `run_refines` — a machine whose steps match those of a total
      specification gives the specification's responses on every run. -/

namespace Transducer

variable {σ τ Op Res : Type}

/-- One step of a machine; `none` is undefined behaviour. -/
abbrev Step (σ Op Res : Type) := σ → Op → Option (Res × σ)

/-- A total machine: what a component is meant to do. -/
abbrev Spec (τ Op Res : Type) := τ → Op → Res × τ

/-- The responses and the final state of a sequence of operations. -/
def run (step : Step σ Op Res) : σ → List Op → Option (List Res × σ)
  | s, [] => some ([], s)
  | s, op :: ops =>
      match step s op with
      | none => none
      | some (r, s') => (run step s' ops).map fun (rs, s'') => (r :: rs, s'')

/-- The responses and the final state of a sequence on a specification. -/
def runSpec (spec : Spec τ Op Res) : τ → List Op → List Res × τ
  | t, [] => ([], t)
  | t, op :: ops =>
      ((spec t op).1 :: (runSpec spec (spec t op).2 ops).1,
        (runSpec spec (spec t op).2 ops).2)

/-- The machine with calls besides that only look at the state. -/
def withQueries {Query Ans : Type} (step : Step σ Op Res) (query : σ → Query → Ans) :
    Step σ (Op ⊕ Query) (Res ⊕ Ans)
  | s, .inl op => (step s op).map fun (r, s') => (.inl r, s')
  | s, .inr q => some (.inr (query s q), s)

/-- Every operation of the sequence is issued in a state that admits it. -/
def Admits (step : Step σ Op Res) (ok : σ → Op → Prop) : σ → List Op → Prop
  | _, [] => True
  | s, op :: ops => ok s op ∧ ∀ r s', step s op = some (r, s') → Admits step ok s' ops

/-- A run of the specification goes on from where its first part ends. -/
theorem runSpec_append (spec : Spec τ Op Res) (ops ops' : List Op) (t : τ) :
    runSpec spec t (ops ++ ops')
      = ((runSpec spec t ops).1 ++ (runSpec spec (runSpec spec t ops).2 ops').1,
          (runSpec spec (runSpec spec t ops).2 ops').2) := by
  induction ops generalizing t with
  | nil => rfl
  | cons op ops ih =>
      rw [List.cons_append, runSpec, ih]
      rfl

/-- A run starts with a step of its first operation. -/
theorem run_cons {step : Step σ Op Res} {s : σ} {op : Op} {ops : List Op}
    {r : Res} {s' : σ} (h : step s op = some (r, s')) :
    run step s (op :: ops)
      = (run step s' ops).map fun (rs, s'') => (r :: rs, s'') := by
  simp only [run, h]

/-- Inversion of a run of at least one operation. -/
theorem run_cons_eq_some {step : Step σ Op Res} {s : σ} {op : Op} {ops : List Op}
    {rs : List Res} {s'' : σ} (h : run step s (op :: ops) = some (rs, s'')) :
    ∃ r s' rs', step s op = some (r, s') ∧ run step s' ops = some (rs', s'')
      ∧ rs = r :: rs' := by
  cases hstep : step s op with
  | none =>
      simp only [run, hstep] at h
      exact nomatch h
  | some p =>
      obtain ⟨r, s'⟩ := p
      rw [run_cons hstep] at h
      obtain ⟨⟨rs', s₂⟩, hrun, heq⟩ := Option.map_eq_some_iff.mp h
      obtain ⟨rfl, rfl⟩ := Prod.mk.inj heq
      exact ⟨r, s', rs', rfl, hrun, rfl⟩

/-- An admitted step extends an admitted sequence. -/
theorem Admits.cons {step : Step σ Op Res} {ok : σ → Op → Prop} {s s' : σ} {op : Op}
    {ops : List Op} {r : Res} (hok : ok s op) (hstep : step s op = some (r, s'))
    (h : Admits step ok s' ops) : Admits step ok s (op :: ops) := by
  refine ⟨hok, ?_⟩
  intro r₁ s₁ h₁
  obtain ⟨-, rfl⟩ := Prod.mk.inj (Option.some.inj (hstep.symm.trans h₁))
  exact h

/-! ## Invariants of runs -/

/-- **HISTORY RULE**: an invariant of the state and of all responses so far
    that every step keeps holds after every run, and every run is defined. -/
theorem run_history {step : Step σ Op Res} {I : List Res → σ → Prop}
    (hstep : ∀ past s op, I past s →
      ∃ r s', step s op = some (r, s') ∧ I (past ++ [r]) s') :
    ∀ (ops : List Op) (past : List Res) (s : σ), I past s →
      ∃ rs s', run step s ops = some (rs, s') ∧ rs.length = ops.length ∧
        I (past ++ rs) s' := by
  intro ops
  induction ops with
  | nil =>
      intro past s hs
      exact ⟨[], s, rfl, rfl, by rw [List.append_nil]; exact hs⟩
  | cons op ops ih =>
      intro past s hs
      obtain ⟨r, s₁, h₁, hs₁⟩ := hstep past s op hs
      obtain ⟨rs, s₂, h₂, hlength, hs₂⟩ := ih (past ++ [r]) s₁ hs₁
      refine ⟨r :: rs, s₂, by rw [run_cons h₁, h₂]; rfl, congrArg (· + 1) hlength, ?_⟩
      rw [List.append_cons]
      exact hs₂

/-- **HISTORY OF OPERATIONS**: an invariant of the state and of all operations so
    far that every step keeps holds after every run, and every run is defined. -/
theorem run_operations {step : Step σ Op Res} {I : List Op → σ → Prop}
    (hstep : ∀ past s op, I past s →
      ∃ r s', step s op = some (r, s') ∧ I (past ++ [op]) s') :
    ∀ (ops past : List Op) (s : σ), I past s →
      ∃ rs s', run step s ops = some (rs, s') ∧ I (past ++ ops) s' := by
  intro ops
  induction ops with
  | nil =>
      intro past s hs
      exact ⟨[], s, rfl, by rw [List.append_nil]; exact hs⟩
  | cons op ops ih =>
      intro past s hs
      obtain ⟨r, s₁, h₁, hs₁⟩ := hstep past s op hs
      obtain ⟨rs, s₂, h₂, hs₂⟩ := ih (past ++ [op]) s₁ hs₁
      refine ⟨r :: rs, s₂, by rw [run_cons h₁, h₂]; rfl, ?_⟩
      rw [List.append_cons]
      exact hs₂

/-- **INVARIANT RULE**: what every admitted step keeps holds after every run
    of admitted operations, and the run is defined. -/
theorem run_invariant_of_admits {step : Step σ Op Res} {I : σ → Prop}
    {ok : σ → Op → Prop}
    (hstep : ∀ s op, I s → ok s op → ∃ r s', step s op = some (r, s') ∧ I s') :
    ∀ (ops : List Op) (s : σ), I s → Admits step ok s ops →
      ∃ rs s', run step s ops = some (rs, s') ∧ I s' := by
  intro ops
  induction ops with
  | nil => intro s hs _; exact ⟨[], s, rfl, hs⟩
  | cons op ops ih =>
      intro s hs hadm
      obtain ⟨hok, hrest⟩ := hadm
      obtain ⟨r, s₁, h₁, hs₁⟩ := hstep s op hs hok
      obtain ⟨rs, s₂, h₂, hs₂⟩ := ih s₁ hs₁ (hrest r s₁ h₁)
      exact ⟨r :: rs, s₂, by rw [run_cons h₁, h₂]; rfl, hs₂⟩

/-- What every defined step keeps, every defined run keeps. -/
theorem run_keeps {step : Step σ Op Res} {I : σ → Prop}
    (hstep : ∀ s op r s', I s → step s op = some (r, s') → I s') :
    ∀ (ops : List Op) (s : σ) {rs : List Res} {s' : σ}, I s →
      run step s ops = some (rs, s') → I s' := by
  intro ops
  induction ops with
  | nil =>
      intro s rs s' hs hrun
      obtain ⟨-, rfl⟩ := Prod.mk.inj (Option.some.inj hrun)
      exact hs
  | cons op ops ih =>
      intro s rs s' hs hrun
      obtain ⟨r, s₁, rs₁, h₁, hrun₁, -⟩ := run_cons_eq_some hrun
      exact ih s₁ (hstep s op r s₁ hs h₁) hrun₁

/-- **INERT STATES**: every run from a state gets fixed answers and ends where it
    began exactly when every single call does. -/
theorem run_inert_iff {step : Step σ Op Res} {answer : Op → Res} {s : σ} :
    (∀ ops, run step s ops = some (ops.map answer, s)) ↔
      ∀ op, step s op = some (answer op, s) := by
  constructor
  · intro hruns op
    obtain ⟨r, s', rs, hstep, hrun, hanswers⟩ := run_cons_eq_some (hruns [op])
    obtain ⟨rfl, rfl⟩ := Prod.mk.inj (Option.some.inj hrun)
    obtain ⟨rfl, -⟩ := List.cons.inj hanswers
    exact hstep
  · intro hstep ops
    induction ops with
    | nil => rfl
    | cons op ops ih =>
        rw [run_cons (hstep op), ih]
        rfl

/-- A state that every call and every look leaves with a fixed answer. -/
theorem withQueries_inert {Query Ans : Type} {step : Step σ Op Res}
    {query : σ → Query → Ans} {answer : Op → Res} {seen : Query → Ans} {s : σ}
    (hstep : ∀ op, step s op = some (answer op, s)) (hquery : ∀ q, query s q = seen q) :
    ∀ op, withQueries step query s op = some (Sum.map answer seen op, s) := by
  rintro (op | q)
  · show (step s op).map _ = _
    rw [hstep]
    rfl
  · show some (Sum.inr (query s q), s) = _
    rw [hquery]
    rfl

/-- **UNDEFINED IN THE END**: if from every state of the invariant some operation is
    undefined, or leads to one with a smaller variant, then some run is undefined. -/
theorem exists_undefined_run {step : Step σ Op Res} {I : σ → Prop} (variant : σ → Nat)
    (hstep : ∀ s, I s → ∃ op, step s op = none ∨
      ∃ r s', step s op = some (r, s') ∧ I s' ∧ variant s' < variant s) :
    ∀ s, I s → ∃ ops, run step s ops = none := by
  intro s
  induction hvariant : variant s using Nat.strongRecOn generalizing s with
  | ind v ih =>
      intro hs
      obtain ⟨op, hnone | ⟨r, s', h', hs', hless⟩⟩ := hstep s hs
      · exact ⟨[op], by simp only [run, hnone]⟩
      · rw [hvariant] at hless
        obtain ⟨ops, hops⟩ := ih _ hless s' rfl hs'
        exact ⟨op :: ops, by rw [run_cons h', hops]; rfl⟩

/-- **BALANCE RULE**: a quantity of the state that every step changes by a
    gain and a loss read off the operation and its response changes over a run
    by the sums of the two. -/
theorem run_balance {M : Type} [AddCommMonoid M] {step : Step σ Op Res} {I : σ → Prop}
    (val : σ → M) (gain loss : Op × Res → M)
    (hstep : ∀ s op, I s → ∃ r s', step s op = some (r, s') ∧ I s' ∧
      val s' + loss (op, r) = val s + gain (op, r)) :
    ∀ (ops : List Op) (s : σ), I s →
      ∃ rs s', run step s ops = some (rs, s') ∧ I s' ∧
        val s' + ((ops.zip rs).map loss).sum = val s + ((ops.zip rs).map gain).sum := by
  intro ops
  induction ops with
  | nil => intro s hs; exact ⟨[], s, rfl, hs, rfl⟩
  | cons op ops ih =>
      intro s hs
      obtain ⟨r, s₁, h₁, hs₁, hb₁⟩ := hstep s op hs
      obtain ⟨rs, s₂, h₂, hs₂, hb₂⟩ := ih s₁ hs₁
      refine ⟨r :: rs, s₂, by rw [run_cons h₁, h₂]; rfl, hs₂, ?_⟩
      simp only [List.zip_cons_cons, List.map_cons, List.sum_cons]
      calc val s₂ + (loss (op, r) + ((ops.zip rs).map loss).sum)
          = val s₂ + ((ops.zip rs).map loss).sum + loss (op, r) := by
            rw [add_comm (loss (op, r)), add_assoc]
        _ = val s₁ + ((ops.zip rs).map gain).sum + loss (op, r) := by rw [hb₂]
        _ = val s₁ + loss (op, r) + ((ops.zip rs).map gain).sum := by
            rw [add_assoc, add_comm _ (loss (op, r)), add_assoc]
        _ = val s + (gain (op, r) + ((ops.zip rs).map gain).sum) := by
            rw [hb₁, add_assoc]

/-- **AMORTISED COST**: where every admitted step that spends one, says its response,
    takes it from the savings of the state or from what its operation brings in, a run
    spends no more than these. -/
theorem run_amortised {step : Step σ Op Res} {I : σ → Prop} {ok : σ → Op → Prop}
    (savings : σ → Nat) (income : Op → Nat) (spends : Res → Bool)
    (hstep : ∀ s op, I s → ok s op → ∃ r s', step s op = some (r, s') ∧ I s' ∧
      savings s' + (if spends r then 1 else 0) ≤ savings s + income op) :
    ∀ (ops : List Op) (s : σ), I s → Admits step ok s ops →
      ∃ rs s', run step s ops = some (rs, s') ∧ I s' ∧
        savings s' + rs.countP spends ≤ savings s + (ops.map income).sum := by
  intro ops
  induction ops with
  | nil => intro s hs _; exact ⟨[], s, rfl, hs, by simp⟩
  | cons op ops ih =>
      intro s hs hadm
      obtain ⟨hok, hrest⟩ := hadm
      obtain ⟨r, s₁, h₁, hs₁, hfirst⟩ := hstep s op hs hok
      obtain ⟨rs, s₂, h₂, hs₂, hlater⟩ := ih s₁ hs₁ (hrest r s₁ h₁)
      refine ⟨r :: rs, s₂, by rw [run_cons h₁, h₂]; rfl, hs₂, ?_⟩
      simp only [List.countP_cons, List.map_cons, List.sum_cons]
      omega

/-- Where an admitted operation has a defined step and has `P`, all operations of
    an admitted sequence have it. -/
theorem forall_of_admits {step : Step σ Op Res} {I : σ → Prop} {ok : σ → Op → Prop}
    {P : Op → Prop}
    (hstep : ∀ s op, I s → ok s op → ∃ r s', step s op = some (r, s') ∧ I s' ∧ P op) :
    ∀ (ops : List Op) (s : σ), I s → Admits step ok s ops → ∀ op ∈ ops, P op := by
  intro ops
  induction ops with
  | nil => intro s _ _ op hop; exact nomatch hop
  | cons first ops ih =>
      intro s hs hadm op hop
      obtain ⟨hok, hrest⟩ := hadm
      obtain ⟨r, s', hfirst, hs', hP⟩ := hstep s first hs hok
      rcases List.mem_cons.mp hop with rfl | hlater
      · exact hP
      · exact ih s' hs' (hrest r s' hfirst) op hlater

/-- Where `P` of an operation makes a state of the invariant admit it and keeps
    the invariant, a sequence of such operations is admitted. -/
theorem admits_of_forall_mem {step : Step σ Op Res} {I : σ → Prop} {ok : σ → Op → Prop}
    {P : Op → Prop}
    (hstep : ∀ s op, I s → P op → ok s op ∧ ∀ r s', step s op = some (r, s') → I s') :
    ∀ (ops : List Op) (s : σ), I s → (∀ op ∈ ops, P op) → Admits step ok s ops := by
  intro ops
  induction ops with
  | nil => intro s _ _; exact trivial
  | cons op ops ih =>
      intro s hs hall
      obtain ⟨hop, hrest⟩ := List.forall_mem_cons.mp hall
      obtain ⟨hok, hkeeps⟩ := hstep s op hs hop
      refine ⟨hok, ?_⟩
      intro r s' h
      exact ih s' (hkeeps r s' h) hrest

/-! ## Refinement -/

/-- `R` is a simulation: from related states the machine is defined, answers
    as the specification does, and the next states are related. -/
def Simulates (step : Step σ Op Res) (spec : Spec τ Op Res) (R : σ → τ → Prop) :
    Prop :=
  ∀ s t op, R s t → ∃ s', step s op = some ((spec t op).1, s') ∧ R s' (spec t op).2

/-- Every sequence is admitted when every operation is. -/
theorem admits_of_forall {step : Step σ Op Res} {ok : σ → Op → Prop}
    (hok : ∀ s op, ok s op) : ∀ (ops : List Op) (s : σ), Admits step ok s ops := by
  intro ops
  induction ops with
  | nil => intro s; exact trivial
  | cons op ops ih => intro s; exact ⟨hok s op, fun _ s' _ => ih s'⟩

/-- The refinement rule for runs whose operations are all admitted. -/
theorem run_refines_of_admits {step : Step σ Op Res} {spec : Spec τ Op Res}
    {R : σ → τ → Prop} {ok : σ → Op → Prop}
    (hsim : ∀ s t op, R s t → ok s op →
      ∃ s', step s op = some ((spec t op).1, s') ∧ R s' (spec t op).2) :
    ∀ (ops : List Op) (s : σ) (t : τ), R s t → Admits step ok s ops →
      ∃ s', run step s ops = some ((runSpec spec t ops).1, s')
        ∧ R s' (runSpec spec t ops).2 := by
  intro ops
  induction ops with
  | nil => intro s t h _; exact ⟨s, rfl, h⟩
  | cons op ops ih =>
      intro s t h hadm
      obtain ⟨s₁, h₁, hR₁⟩ := hsim s t op h hadm.1
      obtain ⟨s₂, h₂, hR₂⟩ := ih s₁ (spec t op).2 hR₁ (hadm.2 _ s₁ h₁)
      exact ⟨s₂, by rw [run_cons h₁, h₂]; rfl, hR₂⟩

/-- **REFINEMENT RULE**: a simulation gives the specification's responses on
    every run, and related final states. -/
theorem run_refines {step : Step σ Op Res} {spec : Spec τ Op Res}
    {R : σ → τ → Prop} (hsim : Simulates step spec R)
    (ops : List Op) (s : σ) (t : τ) (h : R s t) :
    ∃ s', run step s ops = some ((runSpec spec t ops).1, s')
      ∧ R s' (runSpec spec t ops).2 :=
  run_refines_of_admits (fun s t op h _ => hsim s t op h) ops s t h
    (admits_of_forall (fun _ _ => trivial) ops s)

/-- Where a defined step is an admitted one, a defined run is admitted. -/
theorem admits_of_run {step : Step σ Op Res} {I : σ → Prop} {ok : σ → Op → Prop}
    (hok : ∀ s op r s', I s → step s op = some (r, s') → ok s op ∧ I s') :
    ∀ (ops : List Op) (s : σ) {rs : List Res} {s' : σ}, I s →
      run step s ops = some (rs, s') → Admits step ok s ops := by
  intro ops
  induction ops with
  | nil => intro s rs s' _ _; exact trivial
  | cons op ops ih =>
      intro s rs s' hs hrun
      obtain ⟨r, s₁, rs₁, hstep, hrun₁, -⟩ := run_cons_eq_some hrun
      obtain ⟨h₁, hs₁⟩ := hok s op r s₁ hs hstep
      exact Admits.cons h₁ hstep (ih s₁ hs₁ hrun₁)

/-- Two machines that refine one specification give equal responses. -/
theorem run_agree {σ' : Type} {step : Step σ Op Res} {step' : Step σ' Op Res}
    {spec : Spec τ Op Res} {R : σ → τ → Prop} {R' : σ' → τ → Prop}
    (hsim : Simulates step spec R) (hsim' : Simulates step' spec R')
    (ops : List Op) {s : σ} {s' : σ'} {t : τ} (h : R s t) (h' : R' s' t) :
    ∃ rs s₁ s₁', run step s ops = some (rs, s₁) ∧ run step' s' ops = some (rs, s₁') := by
  obtain ⟨s₁, h₁, -⟩ := run_refines hsim ops s t h
  obtain ⟨s₁', h₁', -⟩ := run_refines hsim' ops s' t h'
  exact ⟨_, s₁, s₁', h₁, h₁'⟩

end Transducer
