import CEmbeddedUtils.TransducerProofs
import Mathlib.Logic.Function.Basic

/-! # Families of machines — one call at a time, each to one of them

    Several machines side by side are one machine: a call names the machine it is
    for, and the others stay as they are.  Such a family does nothing but what its
    members do.  The calls to a member, and the answers to them, are a run of that
    member alone (`run_family_member`); and the family is undefined only where a
    member is (`exists_run_family`).

    A machine may also be called through names, several of which may stand for one
    member: `run_map_of_step` carries over what is known of the family. -/

namespace Transducer

variable {ι σ Op Res α : Type} [DecidableEq ι]

/-- The family of machines: a call changes the machine it is for. -/
def family (step : ι → Step σ Op Res) : Step (ι → σ) (ι × Op) Res
  | s, (i, op) => (step i (s i) op).map fun (r, s') => (r, Function.update s i s')

/-- What of a list is for member `i`. -/
def ofMember (i : ι) (xs : List (ι × α)) : List α :=
  xs.filterMap fun (j, x) => if j = i then some x else none

/-- The answers to the calls for member `i`. -/
def answersTo (i : ι) (calls : List (ι × Op)) (rs : List Res) : List Res :=
  ofMember i ((calls.map Prod.fst).zip rs)

section Members

variable {i j : ι}

@[simp] theorem ofMember_nil (i : ι) : ofMember i ([] : List (ι × α)) = [] := rfl

theorem ofMember_cons_self (x : α) (xs : List (ι × α)) :
    ofMember i ((i, x) :: xs) = x :: ofMember i xs := by
  simp [ofMember]

theorem ofMember_cons_of_ne (h : j ≠ i) (x : α) (xs : List (ι × α)) :
    ofMember i ((j, x) :: xs) = ofMember i xs := by
  simp [ofMember, h]

theorem answersTo_cons_self (op : Op) (calls : List (ι × Op)) (r : Res) (rs : List Res) :
    answersTo i ((i, op) :: calls) (r :: rs) = r :: answersTo i calls rs :=
  ofMember_cons_self _ _

theorem answersTo_cons_of_ne (h : j ≠ i) (op : Op) (calls : List (ι × Op)) (r : Res)
    (rs : List Res) : answersTo i ((j, op) :: calls) (r :: rs) = answersTo i calls rs :=
  ofMember_cons_of_ne h _ _

end Members

section Runs

variable {step : ι → Step σ Op Res} {s : ι → σ} {calls : List (ι × Op)}

/-- Inversion of a call: the member called makes a step, and no other. -/
theorem family_eq_some {i : ι} {op : Op} {r : Res} {s' : ι → σ}
    (h : family step s (i, op) = some (r, s')) :
    step i (s i) op = some (r, s' i) ∧ ∀ j, j ≠ i → s' j = s j := by
  obtain ⟨⟨r₁, t⟩, hstep, heq⟩ := Option.map_eq_some_iff.mp h
  obtain ⟨rfl, rfl⟩ := Prod.mk.inj heq
  refine ⟨?_, ?_⟩
  · rw [hstep, Function.update_self]
  · intro j hj
    exact Function.update_of_ne hj _ _

/-- **A MEMBER RUNS ALONE**: in a run of the family, the calls to a member get the
    answers, and leave it in the state, that they would if there were no other. -/
theorem run_family_member {rs : List Res} {s' : ι → σ}
    (hrun : run (family step) s calls = some (rs, s')) (i : ι) :
    run (step i) (s i) (ofMember i calls) = some (answersTo i calls rs, s' i) := by
  induction calls generalizing s rs with
  | nil =>
      obtain ⟨rfl, rfl⟩ := Prod.mk.inj (Option.some.inj hrun)
      rfl
  | cons call calls ih =>
      obtain ⟨j, op⟩ := call
      obtain ⟨r, s₁, rs₁, hstep, hrest, rfl⟩ := run_cons_eq_some hrun
      obtain ⟨hmember, hothers⟩ := family_eq_some hstep
      by_cases hji : j = i
      · subst hji
        rw [ofMember_cons_self, answersTo_cons_self, run_cons hmember, ih hrest]
        rfl
      · rw [ofMember_cons_of_ne hji, answersTo_cons_of_ne hji, ← hothers i (Ne.symm hji)]
        exact ih hrest

/-- **ONLY A MEMBER CAN BE UNDEFINED**: where every member has a run of its calls,
    the family has one of all calls. -/
theorem exists_run_family
    (hmembers : ∀ i, ∃ rs t, run (step i) (s i) (ofMember i calls) = some (rs, t)) :
    ∃ rs s', run (family step) s calls = some (rs, s') := by
  induction calls generalizing s with
  | nil => exact ⟨[], s, rfl⟩
  | cons call calls ih =>
      obtain ⟨j, op⟩ := call
      obtain ⟨rs, t, hrun⟩ := hmembers j
      rw [ofMember_cons_self] at hrun
      obtain ⟨r, t₁, rs₁, hstep, hrest, -⟩ := run_cons_eq_some hrun
      have hcall : family step s (j, op) = some (r, Function.update s j t₁) := by
        show (step j (s j) op).map _ = _
        rw [hstep]
        rfl
      have htail : ∀ i, ∃ rs t,
          run (step i) (Function.update s j t₁ i) (ofMember i calls) = some (rs, t) := by
        intro i
        by_cases hij : i = j
        · subst hij
          rw [Function.update_self]
          exact ⟨rs₁, t, hrest⟩
        · obtain ⟨rs', t', hrun'⟩ := hmembers i
          rw [ofMember_cons_of_ne (Ne.symm hij)] at hrun'
          rw [Function.update_of_ne hij]
          exact ⟨rs', t', hrun'⟩
      obtain ⟨rs', s', hrun'⟩ := ih htail
      exact ⟨r :: rs', s', by rw [run_cons hcall, hrun']; rfl⟩

/-- A machine whose calls are calls of another runs as the other does. -/
theorem run_map_of_step {τ Op' : Type} {step₁ : Step τ Op' Res} {step₂ : Step τ Op Res}
    (name : Op' → Op) (hstep : ∀ s op, step₁ s op = step₂ s (name op)) (ops : List Op') (s : τ) :
    run step₁ s ops = run step₂ s (ops.map name) := by
  induction ops generalizing s with
  | nil => rfl
  | cons op ops ih =>
      rw [List.map_cons, run, run, hstep]
      cases step₂ s (name op) with
      | none => rfl
      | some p =>
          obtain ⟨r, s'⟩ := p
          show (run step₁ s' ops).map _ = (run step₂ s' (ops.map name)).map _
          rw [ih]

end Runs

end Transducer
