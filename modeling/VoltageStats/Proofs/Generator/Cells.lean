import VoltageStats.Generator.Reduction
import VoltageStats.Proofs.Tensor

/-!
# Cells of generated arrays

The generated arrays are put together from the cells of each polarisation, and these from one cell
or one row for each component or from a grid. Each cell is found again under its indices, and what
is true of every part is true of every cell of the whole.
-/

namespace VoltageStats

variable {α β : Type} {n m : Nat}

theorem Polarisation.index_lt (pol : Polarisation) : pol.index < polarisationCount := by
  cases pol <;> decide

theorem Component.index_lt (component : Component) : component.index < componentCount := by
  cases component <;> decide

/-! ## What is found -/

/-- A polarisation of an array is found after all of the polarisations before it. -/
theorem Tensor.get?_ofPolarisations {shape : List Nat}
    (cells : Polarisation → Vector α (volume shape)) (pol : Polarisation) (index : List Nat) :
    (ofPolarisations shape cells).get? (pol.index :: index) =
      (rowMajor? shape index).bind fun position => (cells pol)[position]? := by
  rw [get?_eq_bind, ofPolarisations, rowMajor?, if_pos pol.index_lt, Option.bind_map]
  refine Option.bind_congr fun position hposition => ?_
  have hlt : position < volume shape := rowMajor?_lt hposition
  cases pol with
  | a => simp [Polarisation.index, Array.getElem?_append, hlt]
  | b =>
      have hge : ¬ volume shape + position < volume shape := Nat.not_lt_of_le (Nat.le_add_right _ _)
      simp [Polarisation.index, Array.getElem?_append, hge]

/-- The cell of a component. -/
theorem get?_componentCells (cell : Polarisation → Component → α) (pol : Polarisation)
    (component : Component) :
    (Tensor.ofPolarisations [componentCount] fun pol => componentCells (cell pol)).get?
      [pol.index, component.index] = some (cell pol component) := by
  rw [Tensor.get?_ofPolarisations]
  cases component <;> rfl

/-- A cell in the row of a component. -/
theorem get?_componentRows (row : Polarisation → Component → Vector α n) (pol : Polarisation)
    (component : Component) (i : Nat) :
    (Tensor.ofPolarisations [componentCount, n] fun pol => componentRows (row pol)).get?
      [pol.index, component.index, i] = (row pol component)[i]? := by
  rw [Tensor.get?_ofPolarisations]
  by_cases hi : i < n
  · have hposition : rowMajor? [componentCount, n] [component.index, i] =
        some (component.index * n + i) := by
      simp [rowMajor?, component.index_lt, hi, volume]
    rw [hposition, Option.bind_some, componentRows, Vector.getElem?_cast]
    cases component with
    | real =>
        rw [Component.index, Nat.zero_mul, Nat.zero_add, Vector.getElem?_append_left hi]
    | imag =>
        rw [Component.index, Nat.one_mul, Vector.getElem?_append_right (Nat.le_add_right n i),
          Nat.add_sub_cancel_left]
  · simp [rowMajor?, hi]

/-- A cell in a plane. -/
theorem get?_plane (plane : Polarisation → Vector α (volume [n, m])) (pol : Polarisation)
    (i j : Nat) :
    (Tensor.ofPolarisations [n, m] plane).get? [pol.index, i, j] =
      if i < n ∧ j < m then (plane pol)[i * m + j]? else none := by
  rw [Tensor.get?_ofPolarisations]
  by_cases hi : i < n
  · by_cases hj : j < m <;> simp [rowMajor?, volume, hi, hj]
  · simp [rowMajor?, hi]

theorem position_lt_volume {i j : Nat} (hi : i < n) (hj : j < m) : i * m + j < volume [n, m] := by
  have hposition : rowMajor? [n, m] [i, j] = some (i * m + j) := by
    simp [rowMajor?, volume, hi, hj]
  exact rowMajor?_lt hposition

/-- A cell in a grid. -/
theorem get?_gridCells (cell : Polarisation → Nat → Nat → α) (pol : Polarisation) {i j : Nat}
    (hi : i < n) (hj : j < m) :
    (Tensor.ofPolarisations [n, m] fun pol => gridCells n m (cell pol)).get? [pol.index, i, j] =
      some (cell pol i j) := by
  have hrow : (i * m + j) / m = i := by
    rw [Nat.div_eq_iff (Nat.zero_lt_of_lt hj)]
    omega
  have hcolumn : (i * m + j) % m = j := by
    rw [Nat.mul_comm, Nat.mul_add_mod, Nat.mod_eq_of_lt hj]
  rw [get?_plane, if_pos ⟨hi, hj⟩, Vector.getElem?_eq_getElem (position_lt_volume hi hj), gridCells,
    Vector.getElem_ofFn, hrow, hcolumn]

/-- A cell in a row. -/
theorem get?_row (row : Polarisation → Vector α n) (pol : Polarisation) {i : Nat} (hi : i < n) :
    (Tensor.ofPolarisations [n] fun pol => (row pol).cast (volume_singleton n).symm).get?
      [pol.index, i] = some ((row pol).get ⟨i, hi⟩) := by
  have hposition : rowMajor? [n] [i] = some i := by
    simp [rowMajor?, hi, volume]
  rw [Tensor.get?_ofPolarisations, hposition, Option.bind_some, Vector.getElem?_cast,
    Vector.getElem?_eq_getElem hi, Vector.get_eq_getElem]

/-! ## What is true of every cell -/

theorem Tensor.forall_map {t : Tensor α} {f : α → β} {P : β → Prop}
    (h : ∀ cell ∈ t.cells, P (f cell)) : ∀ cell ∈ (t.map f).cells, P cell := by
  intro cell hmem
  obtain ⟨source, hsource, rfl⟩ := Array.mem_map.mp hmem
  exact h source hsource

variable {P : α → Prop}

theorem Tensor.forall_ofPolarisations {shape : List Nat}
    {cells : Polarisation → Vector α (volume shape)} (h : ∀ pol, ∀ cell ∈ cells pol, P cell) :
    ∀ cell ∈ (ofPolarisations shape cells).cells, P cell := by
  intro cell hmem
  rcases Array.mem_append.mp hmem with ha | hb
  · exact h .a cell ((Vector.mem_toArray_iff _ _).mp ha)
  · exact h .b cell ((Vector.mem_toArray_iff _ _).mp hb)

theorem forall_componentCells {cell : Component → α} (h : ∀ component, P (cell component)) :
    ∀ x ∈ componentCells cell, P x := by
  intro x hmem
  have hcases : x = cell .real ∨ x = cell .imag := by
    simpa [componentCells] using (Vector.mem_toArray_iff _ _).mpr hmem
  obtain rfl | rfl := hcases
  · exact h .real
  · exact h .imag

theorem forall_componentRows {row : Component → Vector α n}
    (h : ∀ component, ∀ x ∈ row component, P x) : ∀ x ∈ componentRows row, P x := by
  intro x hmem
  rcases (by simpa [componentRows] using hmem : x ∈ row .real ∨ x ∈ row .imag) with hreal | himag
  · exact h .real x hreal
  · exact h .imag x himag

theorem forall_gridCells {cell : Nat → Nat → α} (h : ∀ i j, P (cell i j)) :
    ∀ x ∈ gridCells n m cell, P x := by
  intro x hmem
  obtain ⟨i, rfl⟩ := Vector.mem_ofFn.mp hmem
  exact h _ _

end VoltageStats
