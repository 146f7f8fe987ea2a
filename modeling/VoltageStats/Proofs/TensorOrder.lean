import VoltageStats.Proofs.Bytes
import VoltageStats.Proofs.Tensor

/-!
# Cells one after the other

The index tuples of a shape can be gone through with the last axis running fastest or with the
first, and so the cells of a tensor follow one another in two orders (`Tensor.byRows`,
`Tensor.byColumns`). The position of a tuple in either order is what `rowMajor?` and `columnMajor`
compute (`getElem?_rowTuples`, `getElem?_columnTuples`), so a tensor is made of its own cells in
whichever order they are told (`Tensor.ofCells?_byRows`, `Tensor.ofColumnMajor?_byColumns`).
-/

namespace VoltageStats

/-- The item at an offset into one of some pieces of one length. -/
theorem getElem?_flatMap_const {α β : Type} {piece : α → List β} {width : Nat}
    (hpiece : ∀ x, (piece x).length = width) {xs : List α} {x : α} {i offset : Nat}
    (hx : xs[i]? = some x) (hoffset : offset < width) :
    (xs.flatMap piece)[i * width + offset]? = (piece x)[offset]? := by
  induction xs generalizing i with
  | nil => cases hx
  | cons head xs ih =>
      rw [List.flatMap_cons]
      cases i with
      | zero =>
          obtain rfl := Option.some.inj hx
          rw [Nat.zero_mul, Nat.zero_add, List.getElem?_append_left (by rwa [hpiece])]
      | succ i =>
          have hposition :
              (i + 1) * width + offset = (piece head).length + (i * width + offset) := by
            rw [hpiece, Nat.succ_mul]
            omega
          rw [hposition, List.getElem?_append_right (Nat.le_add_right _ _),
            Nat.add_sub_cancel_left]
          exact ih hx

/-! ## Index tuples -/

/-- The index tuples of a shape, the last axis running fastest. -/
def rowTuples : (shape : List Nat) → List (List Nat)
  | [] => [[]]
  | n :: shape => (List.range n).flatMap fun i => (rowTuples shape).map (i :: ·)

/-- The index tuples of a shape, the first axis running fastest. -/
def columnTuples : (shape : List Nat) → List (List Nat)
  | [] => [[]]
  | n :: shape => (columnTuples shape).flatMap fun index => (List.range n).map (· :: index)

variable {α : Type} {shape index : List Nat} {position : Nat}

theorem length_rowTuples (shape : List Nat) : (rowTuples shape).length = volume shape := by
  induction shape with
  | nil => rfl
  | cons n shape ih =>
      rw [rowTuples, length_flatMap_const (fun i => (List.length_map _).trans ih),
        List.length_range, volume]

theorem length_columnTuples (shape : List Nat) : (columnTuples shape).length = volume shape := by
  induction shape with
  | nil => rfl
  | cons n shape ih =>
      have hwidth : ∀ index, ((List.range n).map (· :: index)).length = n := by simp
      rw [columnTuples, length_flatMap_const hwidth, ih, volume, Nat.mul_comm]

/-- In row-major order the index tuples are those whose indices are in range. -/
theorem mem_rowTuples : index ∈ rowTuples shape ↔ List.Forall₂ (· < ·) index shape := by
  induction shape generalizing index with
  | nil => simp [rowTuples]
  | cons n shape ih =>
      cases index with
      | nil => simp [rowTuples]
      | cons i index => simp [rowTuples, ih]

/-- In column-major order they are the same. -/
theorem mem_columnTuples : index ∈ columnTuples shape ↔ List.Forall₂ (· < ·) index shape := by
  induction shape generalizing index with
  | nil => simp [columnTuples]
  | cons n shape ih =>
      cases index with
      | nil => simp [columnTuples]
      | cons i index => simp [columnTuples, ih, and_comm]

/-- Every index tuple is listed at its position in row-major order. -/
theorem getElem?_rowTuples (h : rowMajor? shape index = some position) :
    (rowTuples shape)[position]? = some index := by
  induction shape generalizing index position with
  | nil =>
      cases index with
      | nil =>
          obtain rfl := Option.some.inj h
          rfl
      | cons => cases h
  | cons n shape ih =>
      cases index with
      | nil => cases h
      | cons i index =>
          rw [rowMajor?] at h
          split at h
          next hi =>
            obtain ⟨inner, hinner, rfl⟩ := Option.map_eq_some_iff.mp h
            -- The tuples that start with one index make up a piece as long as the rest is large.
            have hpiece : ∀ i, ((rowTuples shape).map (i :: ·)).length = volume shape :=
              fun i => (List.length_map _).trans (length_rowTuples shape)
            rw [rowTuples, getElem?_flatMap_const hpiece (List.getElem?_range hi)
              (rowMajor?_lt hinner), List.getElem?_map, ih hinner, Option.map_some]
          · cases h

/-- Every index tuple is listed at its position in column-major order. -/
theorem getElem?_columnTuples (h : List.Forall₂ (· < ·) index shape) :
    (columnTuples shape)[columnMajor shape index]? = some index := by
  induction h with
  | nil => rfl
  | @cons i n index shape hi _ ih =>
      -- The tuples that end in the same way make up a piece as long as the first axis.
      have hpiece : ∀ index, ((List.range n).map (· :: index)).length = n := by simp
      rw [columnTuples, columnMajor, Nat.add_comm, Nat.mul_comm,
        getElem?_flatMap_const hpiece ih hi, List.getElem?_map, List.getElem?_range hi,
        Option.map_some]

example : rowTuples [2, 2] = [[0, 0], [0, 1], [1, 0], [1, 1]] := by decide

example : columnTuples [2, 2] = [[0, 0], [1, 0], [0, 1], [1, 1]] := by decide

/-! ## Cells -/

namespace Tensor

/-- The cells at some index tuples, one after the other. -/
def cellsAt (t : Tensor α) (indices : List (List Nat)) : List α := indices.filterMap t.get?

/-- The cells, the last axis running fastest. -/
def byRows (t : Tensor α) : List α := t.cellsAt (rowTuples t.shape)

/-- The cells, the first axis running fastest. -/
def byColumns (t : Tensor α) : List α := t.cellsAt (columnTuples t.shape)

section

variable {t : Tensor α} {indices : List (List Nat)}
  (hindices : ∀ index ∈ indices, List.Forall₂ (· < ·) index t.shape)

include hindices

/-- There is a cell for each of some index tuples that are in range. -/
theorem map_some_cellsAt : (t.cellsAt indices).map some = indices.map t.get? := by
  induction indices with
  | nil => rfl
  | cons index indices ih =>
      obtain ⟨cell, hcell⟩ := exists_get? rfl (hindices index List.mem_cons_self)
      rw [cellsAt, List.filterMap_cons_some hcell, List.map_cons, List.map_cons, hcell,
        ← ih fun index hindex => hindices index (List.mem_cons_of_mem _ hindex), cellsAt]

theorem length_cellsAt : (t.cellsAt indices).length = indices.length := by
  simpa using congrArg List.length (map_some_cellsAt hindices)

theorem getElem?_cellsAt (h : indices[position]? = some index) :
    (t.cellsAt indices)[position]? = t.get? index := by
  have hcell : ((t.cellsAt indices)[position]?).map some = some (t.get? index) := by
    rw [← List.getElem?_map, map_some_cellsAt hindices, List.getElem?_map, h, Option.map_some]
  obtain ⟨cell, hfound, hsome⟩ := Option.map_eq_some_iff.mp hcell
  rw [hfound, hsome]

end

theorem length_byColumns (t : Tensor α) : t.byColumns.length = volume t.shape := by
  rw [byColumns, length_cellsAt fun index => mem_columnTuples.mp, length_columnTuples]

/-- The cells are kept in row-major order. -/
theorem byRows_eq (t : Tensor α) : t.byRows = t.cells.toList := by
  have hlength : t.byRows.length = volume t.shape := by
    rw [byRows, length_cellsAt fun index => mem_rowTuples.mp, length_rowTuples]
  apply List.ext_getElem?
  intro position
  by_cases hlt : position < volume t.shape
  · have hposition := rowMajor?_indexAt hlt
    rw [byRows, getElem?_cellsAt (fun index => mem_rowTuples.mp) (getElem?_rowTuples hposition),
      get?_eq_bind, hposition, Option.bind_some, Array.getElem?_toList]
  · rw [List.getElem?_eq_none (by omega), List.getElem?_eq_none]
    rw [Array.length_toList, t.size_eq]
    omega

/-- Tensors of one shape with the same cell under every index tuple are the same. -/
theorem ext_get? {s t : Tensor α} (hshape : s.shape = t.shape)
    (h : ∀ index, List.Forall₂ (· < ·) index t.shape → s.get? index = t.get? index) : s = t := by
  have hcells : s.cells = t.cells := by
    apply Array.toList_inj.mp
    rw [← byRows_eq, ← byRows_eq, byRows, byRows, cellsAt, cellsAt, hshape]
    exact List.filterMap_congr fun index hindex => h index (mem_rowTuples.mp hindex)
  cases s
  cases t
  simp only [mk.injEq]
  exact ⟨hshape, hcells⟩

/-- A tensor is made of its cells in row-major order. -/
theorem ofCells?_byRows (t : Tensor α) : ofCells? t.shape t.byRows.toArray = some t := by
  rw [byRows_eq, Array.toArray_toList, ofCells?, dif_pos t.size_eq]

/-- A tensor is made of its cells in column-major order, too. -/
theorem ofColumnMajor?_byColumns (t : Tensor α) :
    ofColumnMajor? t.shape t.byColumns.toArray = some t := by
  have hsize : t.byColumns.toArray.size = volume t.shape := t.length_byColumns
  obtain ⟨s, hs⟩ := exists_of_size hsize true
  rw [if_pos rfl] at hs
  obtain ⟨hshape, -, hget⟩ := get?_of_ofColumnMajor? hs
  have heq : s = t := by
    refine ext_get? hshape fun index hindex => ?_
    obtain ⟨position, hposition⟩ := Option.isSome_iff_exists.mp (isSome_rowMajor?.mpr hindex)
    rw [hget index position hposition, List.getElem?_toArray, byColumns,
      getElem?_cellsAt (fun index => mem_columnTuples.mp) (getElem?_columnTuples hindex)]
  rw [hs, heq]

end Tensor

end VoltageStats
