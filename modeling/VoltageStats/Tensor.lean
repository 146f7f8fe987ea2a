/-!
# Tensors

A tensor is an array of cells with a shape: the lengths of its axes. Cells are kept in row-major
order, the last axis running fastest, and there is one for every index tuple. `Tensor.get?` is
the view that everything else is stated through.
-/

namespace VoltageStats

/-- The number of index tuples of a shape. -/
def volume : List Nat → Nat
  | [] => 1
  | n :: shape => n * volume shape

/-- The position of an index tuple in row-major order; none if an index is out of range or the
tuple has another length than the shape. -/
def rowMajor? : (shape index : List Nat) → Option Nat
  | [], [] => some 0
  | n :: shape, i :: index =>
    if i < n then (rowMajor? shape index).map (i * volume shape + ·) else none
  | _, _ => none

/-- The position of an index tuple in column-major order, the first axis running fastest. -/
def columnMajor : (shape index : List Nat) → Nat
  | n :: shape, i :: index => i + n * columnMajor shape index
  | _, _ => 0

/-- The index tuple at a position in row-major order. -/
def indexAt : (shape : List Nat) → (position : Nat) → List Nat
  | [], _ => []
  | _ :: shape, position => position / volume shape :: indexAt shape (position % volume shape)

/-- A position in row-major order names a position in column-major order. -/
theorem columnMajor_indexAt_lt {shape : List Nat} {position : Nat}
    (h : position < volume shape) : columnMajor shape (indexAt shape position) < volume shape := by
  induction shape generalizing position with
  | nil => simp [columnMajor, volume]
  | cons n shape ih =>
    simp only [volume] at h
    have hpos : 0 < volume shape := Nat.pos_of_mul_pos_left (Nat.zero_lt_of_lt h)
    have hi : position / volume shape < n := (Nat.div_lt_iff_lt_mul hpos).mpr h
    have hc := ih (Nat.mod_lt position hpos)
    calc columnMajor (n :: shape) (indexAt (n :: shape) position)
        = position / volume shape
          + n * columnMajor shape (indexAt shape (position % volume shape)) := rfl
      _ < n + n * columnMajor shape (indexAt shape (position % volume shape)) := by omega
      _ = n * (columnMajor shape (indexAt shape (position % volume shape)) + 1) := by
          rw [Nat.mul_add, Nat.mul_one, Nat.add_comm]
      _ ≤ n * volume shape := Nat.mul_le_mul_left n hc

/-- An array of cells with a shape. -/
structure Tensor (α : Type) where
  shape : List Nat
  cells : Array α
  size_eq : cells.size = volume shape

namespace Tensor

variable {α β : Type}

instance [DecidableEq α] : DecidableEq (Tensor α) := fun s t =>
  decidable_of_iff (s.shape = t.shape ∧ s.cells = t.cells)
    (by cases s; cases t; simp)

/-- The cell at an index tuple. -/
def get? (t : Tensor α) (index : List Nat) : Option α := do
  t.cells[← rowMajor? t.shape index]?

/-- A tensor without cells. -/
def empty : Tensor α := ⟨[0], #[], by simp [volume]⟩

instance : Inhabited (Tensor α) := ⟨empty⟩

/-- Cells in row-major order, if there are as many as the shape has index tuples. -/
def ofCells? (shape : List Nat) (cells : Array α) : Option (Tensor α) :=
  if h : cells.size = volume shape then some ⟨shape, cells, h⟩ else none

/-- The tensor whose cell at each position in row-major order is given. -/
def ofFn (shape : List Nat) (cell : Nat → α) : Tensor α :=
  ⟨shape, Array.ofFn fun (i : Fin (volume shape)) => cell i, by simp⟩

/-- Cells in column-major order, brought into row-major order. -/
def ofColumnMajor? (shape : List Nat) (cells : Array α) : Option (Tensor α) :=
  if h : cells.size = volume shape then
    some ⟨shape,
      Array.ofFn fun (position : Fin (volume shape)) =>
        have hlt : columnMajor shape (indexAt shape position) < cells.size :=
          Nat.lt_of_lt_of_eq (columnMajor_indexAt_lt position.isLt) h.symm
        cells[columnMajor shape (indexAt shape position)],
      by simp⟩
  else none

/-- The tensor with every cell changed. -/
def map (f : α → β) (t : Tensor α) : Tensor β := ⟨t.shape, t.cells.map f, by simp [t.size_eq]⟩

end Tensor

end VoltageStats
