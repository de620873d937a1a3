import Mathlib.Data.List.Basic

/-! # Entry/exit pairing of a trace

    A trace records what is done to things that are entered, used and left.
    It is PAIRED when something is entered only while nothing is, and used or
    left only while it is the one entered.  A trace stays paired under one
    more mark exactly when the mark is allowed by what is entered now. -/

namespace Pairing

variable {σ ε : Type}

/-- One entry of a trace. -/
inductive Mark (σ ε : Type) where
  | entry (s : σ)
  | event (s : σ) (e : ε)
  | exit (s : σ)

/-- What is entered after a mark. -/
def enteredAfter : Option σ → Mark σ ε → Option σ
  | _, .entry s => some s
  | now, .event _ _ => now
  | _, .exit _ => none

/-- What is entered after a trace: what the last entry or exit in it says. -/
def entered (trace : List (Mark σ ε)) : Option σ := trace.foldl enteredAfter none

/-- A mark is allowed while `now` is entered. -/
def Allowed (now : Option σ) : Mark σ ε → Prop
  | .entry _ => now = none
  | .event s _ => now = some s
  | .exit s => now = some s

/-- Every mark of the trace is allowed by what is entered before it. -/
def Paired (trace : List (Mark σ ε)) : Prop :=
  ∀ before mark after, trace = before ++ mark :: after → Allowed (entered before) mark

/-- What is entered after one more mark. -/
theorem entered_concat (trace : List (Mark σ ε)) (mark : Mark σ ε) :
    entered (trace ++ [mark]) = enteredAfter (entered trace) mark := by
  rw [entered, List.foldl_append]
  rfl

theorem paired_nil : Paired ([] : List (Mark σ ε)) := by
  intro before mark after h
  cases before with
  | nil => exact nomatch h
  | cons first before => exact nomatch h

/-- The mark after a trace is allowed when the whole is paired. -/
theorem Paired.allowed {trace marks : List (Mark σ ε)} {mark : Mark σ ε}
    (h : Paired (trace ++ mark :: marks)) : Allowed (entered trace) mark :=
  h trace mark marks rfl

/-- **ONE MORE MARK** keeps a trace paired when it is allowed. -/
theorem Paired.concat {trace : List (Mark σ ε)} {mark : Mark σ ε} (h : Paired trace)
    (hmark : Allowed (entered trace) mark) : Paired (trace ++ [mark]) := by
  intro before mark' after heq
  rcases List.eq_nil_or_concat after with rfl | ⟨after', last, rfl⟩
  · obtain ⟨rfl, hlast⟩ := List.append_inj' heq rfl
    obtain rfl := List.head_eq_of_cons_eq hlast
    exact hmark
  · rw [List.concat_eq_append, ← List.cons_append, ← List.append_assoc] at heq
    obtain ⟨htrace, -⟩ := List.append_inj' heq rfl
    exact h before mark' after' htrace

end Pairing
