import Mathlib.Data.List.Basic

/-! # Interrupts — a call inside a call

    A C function is the list of its statements.  Each acts on the state that the
    program shares and on the function's own variables; it goes on to the next
    statement, or returns.  An interrupt is a complete call of something else
    on the shared state, after any number of statements.  One that comes before
    the first statement or after the last puts the two calls in an order; what
    one in between does depends on what the statements have read by then. -/

namespace Interrupt

variable {σ ℓ ρ ρ' : Type}

/-- What a statement does: go on with new values of the variables, or return. -/
inductive Flow (σ ℓ ρ : Type) where
  | next (locals : ℓ) (s : σ)
  | returned (result : ρ) (s : σ)

/-- A statement; `none` is undefined behaviour. -/
abbrev Statement (σ ℓ ρ : Type) := ℓ → σ → Option (Flow σ ℓ ρ)

/-- A complete call. -/
abbrev Call (σ ρ : Type) := σ → Option (ρ × σ)

/-- The statements from the first on; a function does not fall off its end. -/
def exec : List (Statement σ ℓ ρ) → ℓ → Call σ ρ
  | [], _, _ => none
  | statement :: rest, locals, s =>
      match statement locals s with
      | none => none
      | some (.next locals' s') => exec rest locals' s'
      | some (.returned result s') => some (result, s')

/-- The statements with an interrupt after `k` of them, or after the return if
    this comes first. -/
def interrupted (isr : Call σ ρ') : Nat → List (Statement σ ℓ ρ) → ℓ → σ →
    Option (ρ × ρ' × σ)
  | 0, body, locals, s => do
      let (result', s') ← isr s
      let (result, s'') ← exec body locals s'
      some (result, result', s'')
  | _ + 1, [], _, _ => none
  | k + 1, statement :: rest, locals, s =>
      match statement locals s with
      | none => none
      | some (.next locals' s') => interrupted isr k rest locals' s'
      | some (.returned result s') => do
          let (result', s'') ← isr s'
          some (result, result', s'')

section Rules

variable {isr : Call σ ρ'} {statement : Statement σ ℓ ρ} {rest body : List (Statement σ ℓ ρ)}
  {locals locals' : ℓ} {s s' : σ} {result : ρ}

@[simp] theorem exec_next (h : statement locals s = some (.next locals' s')) :
    exec (statement :: rest) locals s = exec rest locals' s' := by
  simp only [exec, h]

@[simp] theorem exec_returned (h : statement locals s = some (.returned result s')) :
    exec (statement :: rest) locals s = some (result, s') := by
  simp only [exec, h]

/-- One statement further. -/
theorem interrupted_next (k : Nat) (h : statement locals s = some (.next locals' s')) :
    interrupted isr (k + 1) (statement :: rest) locals s
      = interrupted isr k rest locals' s' := by
  simp only [interrupted, h]

/-- The interrupt comes after the return. -/
theorem interrupted_returned (k : Nat) (h : statement locals s = some (.returned result s')) :
    interrupted isr (k + 1) (statement :: rest) locals s
      = (isr s').map fun (result', s'') => (result, result', s'') := by
  simp only [interrupted, h]
  cases isr s' with
  | none => rfl
  | some p => rfl

/-- **BEFORE THE FIRST STATEMENT** the interrupt is the first of the two calls. -/
theorem interrupted_zero {result' : ρ'} (h : isr s = some (result', s')) :
    interrupted isr 0 body locals s
      = (exec body locals s').map fun (result, s'') => (result, result', s'') := by
  rw [interrupted, h]
  show (exec body locals s').bind _ = _
  cases exec body locals s' with
  | none => rfl
  | some p => rfl

/-- **AFTER THE LAST STATEMENT** the interrupt is the second of the two calls. -/
theorem interrupted_of_length_le {k : Nat} (hk : body.length ≤ k)
    (h : exec body locals s = some (result, s')) :
    interrupted isr k body locals s
      = (isr s').map fun (result', s'') => (result, result', s'') := by
  induction body generalizing k locals s with
  | nil => exact nomatch h
  | cons statement rest ih =>
      cases k with
      | zero => exact absurd hk (Nat.not_succ_le_zero _)
      | succ k =>
          cases hstatement : statement locals s with
          | none =>
              simp only [exec, hstatement] at h
              exact nomatch h
          | some flow =>
              cases flow with
              | next locals' s₁ =>
                  rw [exec_next hstatement] at h
                  rw [interrupted_next k hstatement]
                  exact ih (Nat.le_of_succ_le_succ hk) h
              | returned result₁ s₁ =>
                  rw [exec_returned hstatement] at h
                  obtain ⟨rfl, rfl⟩ := Prod.mk.inj (Option.some.inj h)
                  exact interrupted_returned k hstatement

end Rules

end Interrupt
