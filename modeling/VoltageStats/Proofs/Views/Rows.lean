import VoltageStats.Proofs.Checked
import VoltageStats.Proofs.Tensor
import VoltageStats.Views

/-!
# Rows of views

A view has one row for each tuple of its axes, in order, and a selection keeps the rows that it
admits (`Enumerates`). It is so for a view that makes one row for each place that is selected
(`enumerates_of_rows`), and for one that makes a block of rows for each (`enumerates_of_blocks`).
Lines and planes of a tensor are found whole.
-/

namespace VoltageStats

variable {α β γ : Type}

/-! ## Rows -/

/-- Items with the same positions as some numbers are related to these. -/
theorem forall₂_zipIdx {R : Nat → α → Prop} {first count : Nat} {xs : List α}
    (h : List.Forall₂ R (List.range' first count) xs) :
    List.Forall₂ (fun i x => R i x.1 ∧ x.2 = i) (List.range' first count) (xs.zipIdx first) := by
  induction xs generalizing first count with
  | nil =>
      rw [List.forall₂_nil_right_iff] at h
      rw [h]
      exact .nil
  | cons x xs ih =>
      cases count with
      | zero => cases h
      | succ count =>
          rw [List.range'_succ, List.forall₂_cons] at h
          rw [List.range'_succ, List.zipIdx_cons]
          exact .cons ⟨h.1, rfl⟩ (ih h.2)

/-- What is left of blocks of items when the items of some blocks are left out. -/
theorem flatMap_filter {f : α → List β} {p : α → Bool} {q : β → Bool}
    (h : ∀ x, ∀ y ∈ f x, q y = p x) (xs : List α) :
    (xs.filter p).flatMap f = (xs.flatMap f).filter q := by
  induction xs with
  | nil => rfl
  | cons x xs ih =>
      rw [List.flatMap_cons, List.filter_append, ← ih, List.filter_cons]
      cases hx : p x with
      | true =>
          have hall : (f x).filter q = f x :=
            List.filter_eq_self.mpr fun y hy => (h x y hy).trans hx
          rw [if_pos rfl, List.flatMap_cons, hall]
      | false =>
          have hnone : (f x).filter q = [] :=
            List.filter_eq_nil_iff.mpr fun y hy => by simp [h x y hy, hx]
          rw [if_neg Bool.false_ne_true, hnone, List.nil_append]

/-- The rows of one of the places show the items there in order. -/
theorem forall₂_filter_place {Place Item Row : Type} {places : List Place} {items : List Item}
    {rows : List Row} {Shows : Place × Item → Row → Prop} {place : Place} {p : Place → Bool}
    {q : Row → Bool} (h : List.Forall₂ Shows (places ×ˢ items) rows)
    (hplace : places.filter p = [place])
    (hrow : ∀ place item row, Shows (place, item) row → q row = p place) :
    List.Forall₂ (fun item row => Shows (place, item) row) items (rows.filter q) := by
  have hitems : (places ×ˢ items).filter (fun tuple => p tuple.1) = items.map (place, ·) := by
    show List.filter _ (List.flatMap _ _) = _
    rw [← flatMap_filter (p := p), hplace]
    · exact List.append_nil _
    · intro place tuple hmem
      obtain ⟨item, -, rfl⟩ := List.mem_map.mp hmem
      rfl
  have hrows : List.Forall₂ Shows ((places ×ˢ items).filter fun tuple => p tuple.1)
      (rows.filter q) := by
    refine List.rel_filter (fun tuple row hshows => ?_) h
    exact iff_of_eq (congrArg (· = true) (hrow tuple.1 tuple.2 row hshows).symm)
  rw [hitems] at hrows
  exact List.forall₂_map_left_iff.mp hrows

/-- A view has one row for each tuple, in order, and a selection keeps the rows that it admits. -/
def Enumerates {Tuple Row : Type} (view : Selection → Option (List Row)) (tuples : List Tuple)
    (Shows : Tuple → Row → Prop) (admits : Selection → Row → Bool) : Prop :=
  ∃ rows, view .all = some rows ∧ List.Forall₂ Shows tuples rows ∧
    ∀ sel, view sel = some (rows.filter (admits sel))

/-- A view without tuples has no rows. -/
theorem Enumerates.eq_nil {Tuple Row : Type} {view : Selection → Option (List Row)}
    {Shows : Tuple → Row → Prop} {admits : Selection → Row → Bool}
    (h : Enumerates view [] Shows admits) (sel : Selection) : view sel = some [] := by
  obtain ⟨rows, -, hshows, hselected⟩ := h
  obtain rfl := List.forall₂_nil_left_iff.mp hshows
  exact hselected sel

section

variable {Place Item Row : Type} {places : Selection → List Place} {everything : List Place}
  {items : List Item}
  {admitsPlace : Selection → Place → Bool} {admits : Selection → Row → Bool}

/-- A view that makes one row for each place. -/
theorem enumerates_of_rows {view : Selection → Option (List Row)} {row : Place → Option Row}
    {Shows : Place → Row → Prop}
    (hview : ∀ sel, view sel = (places sel).mapM row)
    (hall : places .all = everything)
    (hplaces : ∀ sel, places sel = everything.filter (admitsPlace sel))
    (hrow : ∀ place, ∃ r, row place = some r ∧ Shows place r)
    (hadmits : ∀ sel place r, Shows place r → admits sel r = admitsPlace sel place) :
    Enumerates view everything Shows admits := by
  choose rowOf hrowOf hshows using hrow
  obtain rfl : row = fun place => some (rowOf place) := funext hrowOf
  have hmap : ∀ sel, view sel = some ((places sel).map rowOf) := fun sel =>
    (hview sel).trans List.mapM_pure
  refine ⟨_, hall ▸ hmap .all, ?_, fun sel => ?_⟩
  · exact List.forall₂_map_right_iff.mpr (List.forall₂_same.mpr fun place _ => hshows place)
  · have hcomp : admits sel ∘ rowOf = admitsPlace sel :=
      funext fun place => hadmits sel place _ (hshows place)
    rw [hmap, hplaces, List.filter_map, hcomp]

/-- Blocks of rows are put together once all of them are made. -/
theorem bind_flatten (blocks : Option (List (List α))) :
    (do return (← blocks).flatten) = blocks.map List.flatten := by
  cases blocks with
  | none => rfl
  | some blocks => rfl

/-- A view that makes a block of rows for each place, one row for each item of its own axis. -/
theorem enumerates_of_blocks {view : Selection → Option (List Row)}
    {block : Place → Option (List Row)} {Shows : Place × Item → Row → Prop}
    (hview : ∀ sel, view sel = ((places sel).mapM block).map List.flatten)
    (hall : places .all = everything)
    (hplaces : ∀ sel, places sel = everything.filter (admitsPlace sel))
    (hblock : ∀ place, ∃ rows, block place = some rows ∧
      List.Forall₂ (fun item r => Shows (place, item) r) items rows)
    (hadmits : ∀ sel place item r, Shows (place, item) r → admits sel r = admitsPlace sel place) :
    Enumerates view (everything ×ˢ items) Shows admits := by
  choose blockOf hblockOf hshows using hblock
  obtain rfl : block = fun place => some (blockOf place) := funext hblockOf
  have hflat : ∀ sel, view sel = some ((places sel).flatMap blockOf) := fun sel => by
    rw [hview]
    exact congrArg (Option.map List.flatten) List.mapM_pure
  refine ⟨_, hall ▸ hflat .all, ?_, fun sel => ?_⟩
  · refine List.rel_flatten ?_
    refine List.forall₂_map_left_iff.mpr (List.forall₂_map_right_iff.mpr ?_)
    exact List.forall₂_same.mpr fun place _ => List.forall₂_map_left_iff.mpr (hshows place)
  · have hblocks : ∀ place, ∀ r ∈ blockOf place, admits sel r = admitsPlace sel place := by
      intro place r hmem
      obtain ⟨item, -, hitem⟩ := exists_of_mem_forall₂ (hshows place) hmem
      exact hadmits sel place item r hitem
    rw [hflat, hplaces, flatMap_filter hblocks]

end

/-! ## Selections -/

namespace Selection

/-- Whether a polarisation is selected. -/
def admitsPol (sel : Selection) (pol : Polarisation) : Bool := sel.pol.all (· = pol)

/-- Whether a component is selected. -/
def admitsDim (sel : Selection) (dim : Component) : Bool := sel.dim.all (· = dim)

/-- Whether the variant with or without interference is selected. -/
def admitsFlag (sel : Selection) (flag : Bool) : Bool := sel.rfiExcised.all (· = flag)

theorem pols_eq (sel : Selection) : sel.pols = Polarisation.all.filter sel.admitsPol := by
  obtain ⟨_ | _ | _, dim, flag⟩ := sel <;> rfl

theorem components_eq (sel : Selection) :
    sel.components = (Polarisation.all ×ˢ Component.all).filter fun place =>
      sel.admitsPol place.1 && sel.admitsDim place.2 := by
  obtain ⟨_ | _ | _, _ | _ | _, flag⟩ := sel <;> rfl

theorem variants_eq (sel : Selection) :
    sel.variants = (Polarisation.all ×ˢ [false, true]).filter fun place =>
      sel.admitsPol place.1 && sel.admitsFlag place.2 := by
  obtain ⟨_ | _ | _, dim, _ | _ | _⟩ := sel <;> rfl

theorem triples_eq (sel : Selection) :
    sel.triples = (Polarisation.all ×ˢ Component.all ×ˢ [false, true]).filter fun place =>
      sel.admitsPol place.1 && sel.admitsDim place.2.1 && sel.admitsFlag place.2.2 := by
  obtain ⟨_ | _ | _, _ | _ | _, _ | _ | _⟩ := sel <;> rfl

end Selection

/-! ## Cells -/

namespace Tensor

variable {t : Tensor α} {before index : List Nat} {n m : Nat}

/-- The cells of a line. -/
theorem exists_line? (hshape : t.shape = before ++ [n])
    (hindex : List.Forall₂ (· < ·) index before) :
    ∃ cells, t.line? index = some cells ∧
      List.Forall₂ (fun i cell => t.get? (index ++ [i]) = some cell) (List.range n) cells := by
  have hlength : t.shape[index.length]? = some n := by
    rw [hshape, hindex.length_eq, List.getElem?_concat_length]
  have hcell : ∀ i ∈ List.range n, ∃ cell, t.get? (index ++ [i]) = some cell ∧
      t.get? (index ++ [i]) = some cell := by
    intro i hi
    have hlt : List.Forall₂ (· < ·) (index ++ [i]) (before ++ [n]) :=
      List.rel_append hindex (.cons (List.mem_range.mp hi) .nil)
    obtain ⟨cell, hget⟩ := exists_get? hshape hlt
    exact ⟨cell, hget, hget⟩
  rw [line?, hlength]
  exact exists_mapM hcell

/-- The lines of a plane. -/
theorem exists_plane? (hshape : t.shape = before ++ [n, m])
    (hindex : List.Forall₂ (· < ·) index before) :
    ∃ lines, t.plane? index = some lines ∧
      List.Forall₂ (fun i line => List.Forall₂ (fun j cell => t.get? (index ++ [i, j]) = some cell)
        (List.range m) line) (List.range n) lines := by
  have hlength : t.shape[index.length]? = some n := by
    rw [hshape, hindex.length_eq, List.getElem?_append_right (Nat.le_refl _), Nat.sub_self]
    rfl
  have hline : ∀ i ∈ List.range n, ∃ line, t.line? (index ++ [i]) = some line ∧
      List.Forall₂ (fun j cell => t.get? (index ++ [i, j]) = some cell) (List.range m) line := by
    intro i hi
    have hlt : List.Forall₂ (· < ·) (index ++ [i]) (before ++ [n]) :=
      List.rel_append hindex (.cons (List.mem_range.mp hi) .nil)
    have hline := exists_line? (t := t) (n := m) (by simpa using hshape) hlt
    simpa using hline
  rw [plane?, hlength]
  exact exists_mapM hline

end Tensor

end VoltageStats
