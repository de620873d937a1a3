import Mathlib.Data.List.Basic

/-! # Bounded loops

    A C loop is its body, run until the body leaves it.  The body may be
    undefined, may go AGAIN with a new loop state, or may be DONE with a
    result (the loop condition failed, a `break`, a `return` inside).  The
    bound is part of the embedding only: a loop that has not left after
    `fuel` rounds counts as undefined, so a theorem that a loop gives a
    result is also a theorem that it ends. -/

namespace BoundedLoop

variable {σ ρ : Type}

/-- What one round of a loop body does to the loop. -/
inductive Control (σ ρ : Type) where
  | again (s : σ)
  | done (r : ρ)

/-- Run `body` until it is done, for at most `fuel` rounds. -/
def loop (body : σ → Option (Control σ ρ)) : Nat → σ → Option ρ
  | 0, _ => none
  | fuel + 1, s =>
      match body s with
      | none => none
      | some (.done r) => some r
      | some (.again s') => loop body fuel s'

/-- A round that is done ends the loop. -/
theorem loop_of_done {body : σ → Option (Control σ ρ)} {s : σ} {r : ρ}
    (h : body s = some (.done r)) (fuel : Nat) : loop body (fuel + 1) s = some r := by
  simp only [loop, h]

/-- A round that goes again is followed by the rest of the loop. -/
theorem loop_of_again {body : σ → Option (Control σ ρ)} {s s' : σ}
    (h : body s = some (.again s')) (fuel : Nat) :
    loop body (fuel + 1) s = loop body fuel s' := by
  simp only [loop, h]

/-- A loop that has left is not changed by more fuel. -/
theorem loop_mono {body : σ → Option (Control σ ρ)} {r : ρ} :
    ∀ {fuel fuel' : Nat} {s : σ}, fuel ≤ fuel' → loop body fuel s = some r →
      loop body fuel' s = some r := by
  intro fuel
  induction fuel with
  | zero => intro _ _ _ h; cases h
  | succ fuel ih =>
      intro fuel' s hle h
      cases fuel' with
      | zero => exact absurd hle (Nat.not_succ_le_zero fuel)
      | succ fuel' =>
          have hle' : fuel ≤ fuel' := Nat.le_of_succ_le_succ hle
          cases hbody : body s with
          | none =>
              rw [loop, hbody] at h
              cases h
          | some control =>
              cases control with
              | done r' =>
                  rw [loop_of_done hbody] at h ⊢
                  exact h
              | again s' =>
                  rw [loop_of_again hbody] at h ⊢
                  exact ih hle' h

/-- **LOOP RULE**: if in every state of the invariant the body either is done
    with a result that meets `Q`, or goes again to a state of the invariant
    with a smaller variant, then the loop ends with a result that meets `Q`. -/
theorem loop_spec {body : σ → Option (Control σ ρ)} {I : σ → Prop} {Q : ρ → Prop}
    (variant : σ → Nat)
    (hbody : ∀ s, I s →
      (∃ r, body s = some (.done r) ∧ Q r) ∨
      (∃ s', body s = some (.again s') ∧ I s' ∧ variant s' < variant s)) :
    ∀ (fuel : Nat) (s : σ), I s → variant s < fuel →
      ∃ r, loop body fuel s = some r ∧ Q r := by
  intro fuel
  induction fuel with
  | zero => intro s _ hlt; exact absurd hlt (Nat.not_lt_zero _)
  | succ fuel ih =>
      intro s hs hlt
      rcases hbody s hs with ⟨r, hr, hQ⟩ | ⟨s', hs', hI, hvar⟩
      · exact ⟨r, loop_of_done hr fuel, hQ⟩
      · obtain ⟨r, hr, hQ⟩ := ih s' hI (by omega)
        exact ⟨r, by rw [loop_of_again hs' fuel]; exact hr, hQ⟩

/-- The body in the states that meet `P`; undefined in the others. -/
def guarded (P : σ → Prop) [DecidablePred P] (body : σ → Option (Control σ ρ)) :
    σ → Option (Control σ ρ) :=
  fun s => if P s then body s else none

/-- **GUARD RULE**: where an invariant of the body implies `P`, the loop is in no
    round outside of `P`. -/
theorem loop_guarded {body : σ → Option (Control σ ρ)} {I P : σ → Prop} [DecidablePred P]
    (himp : ∀ s, I s → P s)
    (hagain : ∀ s s', I s → body s = some (.again s') → I s') :
    ∀ (fuel : Nat) (s : σ), I s → loop (guarded P body) fuel s = loop body fuel s := by
  intro fuel
  induction fuel with
  | zero => intro _ _; rfl
  | succ fuel ih =>
      intro s hs
      have hguard : guarded P body s = body s := if_pos (himp s hs)
      rw [loop, loop, hguard]
      cases hbody : body s with
      | none => rfl
      | some control =>
          cases control with
          | done r => rfl
          | again s' => exact ih s' (hagain s s' hs hbody)

end BoundedLoop
