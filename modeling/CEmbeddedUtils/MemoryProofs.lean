import Mathlib.Data.List.Basic
import Mathlib.Logic.Function.Basic

/-! # Blocks of memory — checked cells and copies

    A block is what a C pointer to an array gives a function: `size` cells,
    each readable and writable, and nothing outside.  `load` and `store` of a
    cell outside the block are undefined (`none`), and so are copies that
    reach outside; a computation over blocks that gives a result has therefore
    touched cells below `size` only.

    The cells are a function of the index, so a frame condition is an equation
    between functions; what the function says at or beyond `size` is never
    read. -/

namespace Memory

variable {α : Type}

/-- A block of `size` cells. -/
structure Block (α : Type) where
  size : Nat
  cell : Nat → α

namespace Block

/-- Read one cell. -/
def load (b : Block α) (i : Nat) : Option α :=
  if i < b.size then some (b.cell i) else none

/-- Write one cell. -/
def store (b : Block α) (i : Nat) (v : α) : Option (Block α) :=
  if i < b.size then some { b with cell := Function.update b.cell i v } else none

/-- The cells `[off, off + len)` as a list. -/
def slice (b : Block α) (off len : Nat) : List α :=
  (List.range len).map fun i => b.cell (off + i)

/-- The cells after the list `vs` is written from `off` on. -/
def overwrite (b : Block α) (off : Nat) (vs : List α) : Block α where
  size := b.size
  cell := fun i => if off ≤ i then vs[i - off]?.getD (b.cell i) else b.cell i

/-- Copy `len` cells out of the block, as `memcpy` from `&block[off]`. -/
def copyOut (b : Block α) (off len : Nat) : Option (List α) :=
  if off + len ≤ b.size then some (b.slice off len) else none

/-- Copy a list into the block, as `memcpy` to `&block[off]`. -/
def copyIn (b : Block α) (off : Nat) (vs : List α) : Option (Block α) :=
  if off + vs.length ≤ b.size then some (b.overwrite off vs) else none

/-- A block that holds exactly a list; `fill` is never read. -/
def ofList (fill : α) (vs : List α) : Block α where
  size := vs.length
  cell := fun i => vs[i]?.getD fill

/-! ## One cell -/

theorem load_of_lt {b : Block α} {i : Nat} (h : i < b.size) :
    b.load i = some (b.cell i) := if_pos h

theorem store_of_lt {b : Block α} {i : Nat} (h : i < b.size) (v : α) :
    b.store i v = some { b with cell := Function.update b.cell i v } := if_pos h

/-! ## Copies -/

@[simp] theorem length_slice (b : Block α) (off len : Nat) :
    (b.slice off len).length = len := by
  simp [slice]

theorem getElem_slice (b : Block α) (off len i : Nat) (h : i < (b.slice off len).length) :
    (b.slice off len)[i] = b.cell (off + i) := by
  simp [slice]

/-- Two slices are equal when their cells are. -/
theorem slice_congr {b b' : Block α} {off off' len : Nat}
    (h : ∀ i, i < len → b.cell (off + i) = b'.cell (off' + i)) :
    b.slice off len = b'.slice off' len := by
  apply List.map_congr_left
  intro i hi
  exact h i (List.mem_range.mp hi)

/-- A slice splits at any point. -/
theorem slice_add (b : Block α) (off m n : Nat) :
    b.slice off (m + n) = b.slice off m ++ b.slice (off + m) n := by
  simp only [slice, List.range_add, List.map_append, List.map_map]
  congr 1
  apply List.map_congr_left
  intro i _
  simp only [Function.comp_apply, Nat.add_assoc]

/-- A written cell holds the list's element. -/
theorem cell_overwrite_inside (b : Block α) {off i : Nat} (vs : List α)
    (h : i < vs.length) : (b.overwrite off vs).cell (off + i) = vs[i] := by
  show (if off ≤ off + i then vs[off + i - off]?.getD (b.cell (off + i))
    else b.cell (off + i)) = vs[i]
  rw [if_pos (Nat.le_add_right off i), Nat.add_sub_cancel_left,
    List.getElem?_eq_getElem h, Option.getD_some]

/-- **FRAME**: a cell outside the written range keeps its value. -/
theorem cell_overwrite_outside (b : Block α) {off i : Nat} (vs : List α)
    (h : i < off ∨ off + vs.length ≤ i) : (b.overwrite off vs).cell i = b.cell i := by
  show (if off ≤ i then vs[i - off]?.getD (b.cell i) else b.cell i) = b.cell i
  by_cases hle : off ≤ i
  · rw [if_pos hle, List.getElem?_eq_none (by omega), Option.getD_none]
  · rw [if_neg hle]

/-- Reading back what was just written. -/
theorem slice_overwrite_same (b : Block α) (off : Nat) (vs : List α) :
    (b.overwrite off vs).slice off vs.length = vs := by
  apply List.ext_getElem
  · exact length_slice _ _ _
  · intro i h₁ h₂
    rw [getElem_slice, cell_overwrite_inside b vs h₂]

/-- A slice disjoint from the written range reads the old cells. -/
theorem slice_overwrite_disjoint (b : Block α) {off off' len : Nat} (vs : List α)
    (h : off' + len ≤ off ∨ off + vs.length ≤ off') :
    (b.overwrite off vs).slice off' len = b.slice off' len := by
  apply slice_congr
  intro i hi
  exact cell_overwrite_outside b vs (by omega)

/-- Writing nothing changes nothing. -/
theorem overwrite_nil (b : Block α) (off : Nat) : b.overwrite off [] = b := by
  obtain ⟨size, cell⟩ := b
  simp [overwrite]

/-- Writing an element and the rest after it is writing the list. -/
theorem overwrite_cons (b : Block α) (off : Nat) (v : α) (vs : List α) :
    ({ b with cell := Function.update b.cell off v } : Block α).overwrite (off + 1) vs
      = b.overwrite off (v :: vs) := by
  simp only [overwrite, Block.mk.injEq, true_and]
  funext i
  rcases Nat.lt_trichotomy i off with hi | rfl | hi
  · rw [if_neg (by omega), if_neg (by omega), Function.update_of_ne (by omega)]
  · rw [if_neg (by omega), if_pos (Nat.le_refl _), Nat.sub_self, Function.update_self]
    rfl
  · rw [if_pos (by omega), if_pos (by omega), Function.update_of_ne (by omega),
      show i - off = i - (off + 1) + 1 by omega, List.getElem?_cons_succ]

/-- Writing a slice back where it is changes nothing. -/
theorem overwrite_slice (b : Block α) (off len : Nat) : b.overwrite off (b.slice off len) = b := by
  induction len generalizing off with
  | zero => exact overwrite_nil b off
  | succ len ih =>
      have hself : ({ b with cell := Function.update b.cell off (b.cell off) } : Block α) = b := by
        rw [Function.update_eq_self]
      rw [Nat.add_comm len 1, slice_add]
      show b.overwrite off (b.cell off :: b.slice (off + 1) len) = b
      rw [← overwrite_cons, hself, ih]

/-- Writing two lists one behind the other is writing their concatenation. -/
theorem overwrite_append (b : Block α) (off : Nat) (us vs : List α) :
    (b.overwrite off us).overwrite (off + us.length) vs = b.overwrite off (us ++ vs) := by
  induction us generalizing b off with
  | nil => rw [overwrite_nil, List.length_nil, Nat.add_zero, List.nil_append]
  | cons u us ih =>
      rw [← overwrite_cons, List.length_cons, ← Nat.add_assoc, Nat.add_right_comm, ih,
        overwrite_cons, List.cons_append]

@[simp] theorem size_ofList (fill : α) (vs : List α) : (ofList fill vs).size = vs.length := rfl

/-- The cells of a list's block are the list. -/
theorem slice_ofList (fill : α) (vs : List α) : (ofList fill vs).slice 0 vs.length = vs := by
  apply List.ext_getElem
  · exact length_slice _ _ _
  · intro i h₁ h₂
    rw [getElem_slice, Nat.zero_add]
    show vs[i]?.getD fill = vs[i]
    rw [List.getElem?_eq_getElem h₂, Option.getD_some]

theorem copyOut_of_le {b : Block α} {off len : Nat} (h : off + len ≤ b.size) :
    b.copyOut off len = some (b.slice off len) := if_pos h

theorem copyIn_of_le {b : Block α} {off : Nat} {vs : List α}
    (h : off + vs.length ≤ b.size) : b.copyIn off vs = some (b.overwrite off vs) :=
  if_pos h

/-- A copy that reaches outside the block is undefined. -/
theorem copyIn_eq_none {b : Block α} {off : Nat} {vs : List α}
    (h : b.size < off + vs.length) : b.copyIn off vs = none :=
  if_neg (by omega)

end Block

end Memory
