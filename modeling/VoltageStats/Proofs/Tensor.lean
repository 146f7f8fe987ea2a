import Mathlib
import VoltageStats.Tensor

/-!
# Cells of tensors

Where the cells of a tensor are: an index tuple has a position exactly when every index is in
range (`isSome_rowMajor?`), and every position of a cell is that of the index tuple that `indexAt`
names (`rowMajor?_indexAt`) and of no other (`indexAt_of_rowMajor?`). A tensor that is
made or changed cell by cell is seen through `get?` one tuple at a time.
-/

namespace VoltageStats

variable {α β : Type} {shape index : List Nat} {position : Nat}

theorem volume_singleton (n : Nat) : volume [n] = n := Nat.mul_one n

/-- An index tuple has a position exactly when every index is in range. -/
theorem isSome_rowMajor? : (rowMajor? shape index).isSome ↔ List.Forall₂ (· < ·) index shape := by
  induction shape generalizing index with
  | nil => cases index <;> simp [rowMajor?]
  | cons n shape ih =>
      cases index with
      | nil => simp [rowMajor?]
      | cons i index =>
          rw [rowMajor?, List.forall₂_cons, ← ih]
          by_cases hi : i < n <;> simp [hi]

/-- The position of an index tuple is one of the positions of the cells. -/
theorem rowMajor?_lt (h : rowMajor? shape index = some position) : position < volume shape := by
  induction shape generalizing index position with
  | nil =>
      cases index with
      | nil =>
          obtain rfl := Option.some.inj h
          exact Nat.zero_lt_one
      | cons => cases h
  | cons n shape ih =>
      cases index with
      | nil => cases h
      | cons i index =>
          rw [rowMajor?] at h
          split at h
          next hi =>
            obtain ⟨inner, hinner, rfl⟩ := Option.map_eq_some_iff.mp h
            have hlt := ih hinner
            calc i * volume shape + inner
                < i * volume shape + volume shape := Nat.add_lt_add_left hlt _
              _ = (i + 1) * volume shape := (Nat.succ_mul i _).symm
              _ ≤ n * volume shape := Nat.mul_le_mul_right _ hi
          · cases h

/-- A position is that of the index tuple found there. -/
theorem rowMajor?_indexAt (h : position < volume shape) :
    rowMajor? shape (indexAt shape position) = some position := by
  induction shape generalizing position with
  | nil =>
      obtain rfl : position = 0 := Nat.lt_one_iff.mp h
      rfl
  | cons n shape ih =>
      rw [volume] at h
      have hpos : 0 < volume shape := Nat.pos_of_mul_pos_left (Nat.zero_lt_of_lt h)
      have hi : position / volume shape < n := (Nat.div_lt_iff_lt_mul hpos).mpr h
      rw [indexAt, rowMajor?, if_pos hi, ih (Nat.mod_lt position hpos), Option.map_some,
        Nat.mul_comm, Nat.div_add_mod]

/-- Index tuples with the same position are the same. -/
theorem indexAt_of_rowMajor? (h : rowMajor? shape index = some position) :
    indexAt shape position = index := by
  induction shape generalizing index position with
  | nil =>
      cases index with
      | nil => rfl
      | cons => cases h
  | cons n shape ih =>
      cases index with
      | nil => cases h
      | cons i index =>
          rw [rowMajor?] at h
          split at h
          next hi =>
            obtain ⟨inner, hinner, rfl⟩ := Option.map_eq_some_iff.mp h
            have hlt := rowMajor?_lt hinner
            have hpos : 0 < volume shape := Nat.zero_lt_of_lt hlt
            rw [indexAt, Nat.mul_comm, Nat.mul_add_div hpos, Nat.mul_add_mod,
              Nat.div_eq_of_lt hlt, Nat.mod_eq_of_lt hlt, ih hinner, Nat.add_zero]
          · cases h

namespace Tensor

theorem get?_eq_bind (t : Tensor α) (index : List Nat) :
    t.get? index = (rowMajor? t.shape index).bind fun position => t.cells[position]? := rfl

/-- Every cell is found under an index tuple, and what is found is a cell. -/
theorem mem_cells_iff {t : Tensor α} {cell : α} :
    cell ∈ t.cells ↔ ∃ index, t.get? index = some cell := by
  constructor
  · intro hmem
    obtain ⟨position, hlt, rfl⟩ := Array.mem_iff_getElem.mp hmem
    refine ⟨indexAt t.shape position, ?_⟩
    rw [get?_eq_bind, rowMajor?_indexAt (t.size_eq ▸ hlt), Option.bind_some,
      Array.getElem?_eq_getElem hlt]
  · rintro ⟨index, hget⟩
    obtain ⟨position, -, hcell⟩ := Option.bind_eq_some_iff.mp hget
    exact Array.mem_of_getElem? hcell

/-- There is a cell under every index tuple that is in range. -/
theorem exists_get? {t : Tensor α} (hshape : t.shape = shape)
    (h : List.Forall₂ (· < ·) index shape) : ∃ cell, t.get? index = some cell := by
  obtain rfl := hshape
  obtain ⟨position, hposition⟩ := Option.isSome_iff_exists.mp (isSome_rowMajor?.mpr h)
  have hlt : position < t.cells.size := t.size_eq ▸ rowMajor?_lt hposition
  exact ⟨t.cells[position], by
    rw [get?_eq_bind, hposition, Option.bind_some, Array.getElem?_eq_getElem hlt]⟩

@[simp] theorem get?_map (f : α → β) (t : Tensor α) (index : List Nat) :
    (t.map f).get? index = (t.get? index).map f := by
  rw [get?_eq_bind, get?_eq_bind, Option.map_bind]
  exact congrArg _ (funext fun position => Array.getElem?_map)

/-- The cell of a tensor made cell by cell. -/
theorem get?_ofFn (shape : List Nat) (cell : Nat → α) (index : List Nat) :
    (ofFn shape cell).get? index = (rowMajor? shape index).map cell := by
  rw [get?_eq_bind]
  cases h : rowMajor? shape index with
  | none => simp [ofFn, h]
  | some position => simp [ofFn, h, rowMajor?_lt h]

/-- The cells of a tensor that is made of cells in row-major order. -/
theorem get?_of_ofCells? {cells : Array α} {t : Tensor α} (h : ofCells? shape cells = some t) :
    t.shape = shape ∧ cells.size = volume shape ∧
      ∀ index position, rowMajor? shape index = some position →
        t.get? index = cells[position]? := by
  unfold ofCells? at h
  split at h
  next hsize =>
    obtain rfl := Option.some.inj h
    refine ⟨rfl, hsize, fun index position hposition => ?_⟩
    rw [get?_eq_bind, hposition, Option.bind_some]
  · cases h

/-- The cells of a tensor that is made of cells in column-major order. -/
theorem get?_of_ofColumnMajor? {cells : Array α} {t : Tensor α}
    (h : ofColumnMajor? shape cells = some t) :
    t.shape = shape ∧ cells.size = volume shape ∧
      ∀ index position, rowMajor? shape index = some position →
        t.get? index = cells[columnMajor shape index]? := by
  unfold ofColumnMajor? at h
  split at h
  next hsize =>
    obtain rfl := Option.some.inj h
    refine ⟨rfl, hsize, fun index position hposition => ?_⟩
    -- The tuple that is found at the position is the one whose position it is.
    obtain rfl := indexAt_of_rowMajor? hposition
    have hlt : position < volume shape := rowMajor?_lt hposition
    have hcolumn : columnMajor shape (indexAt shape position) < cells.size :=
      hsize ▸ columnMajor_indexAt_lt hlt
    rw [get?_eq_bind, hposition, Option.bind_some, Array.getElem?_ofFn, dif_pos hlt,
      Array.getElem?_eq_getElem hcolumn]
  · cases h

/-- As many cells as a shape has index tuples make a tensor in either order. -/
theorem exists_of_size {cells : Array α} (hsize : cells.size = volume shape)
    (isColumnMajor : Bool) :
    ∃ t, (if isColumnMajor then ofColumnMajor? shape cells else ofCells? shape cells) = some t := by
  cases isColumnMajor with
  | true =>
      rw [if_pos rfl, ofColumnMajor?, dif_pos hsize]
      exact ⟨_, rfl⟩
  | false =>
      rw [if_neg Bool.false_ne_true, ofCells?, dif_pos hsize]
      exact ⟨_, rfl⟩

end Tensor

end VoltageStats
