import Mathlib
import VoltageStats.Generator.Config

/-!
# Bin counts divide their items

The number of bins for some items divides the number of items (`binCount_dvd`), so there is a bin
as soon as there is an item, and there are never more bins than items. It is the least divisor that
is not below the number asked for (`binCount_isLeast`), and so it grows with that number and is kept
when it is asked for itself (`binCount_least_divisor`).
-/

namespace VoltageStats

variable {items requested bound : Nat}

theorem largestDivisorUpTo_dvd (items bound : Nat) : largestDivisorUpTo items bound ∣ items := by
  induction bound with
  | zero => exact Nat.one_dvd items
  | succ bound ih =>
      rw [largestDivisorUpTo]
      split
      · exact Nat.dvd_of_mod_eq_zero ‹_›
      · exact ih

/-- Items are divided evenly into bins. -/
theorem binCount_dvd (items requested : Nat) : binCount items requested ∣ items := by
  unfold binCount
  split
  · exact Nat.dvd_refl items
  · split
    · exact Nat.dvd_of_mod_eq_zero ‹_›
    · exact Nat.div_dvd_of_dvd (largestDivisorUpTo_dvd items _)

theorem binCount_pos (hitems : 0 < items) : 0 < binCount items requested :=
  Nat.pos_of_dvd_of_pos (binCount_dvd items requested) hitems

theorem binCount_le (hitems : 0 < items) : binCount items requested ≤ items :=
  Nat.le_of_dvd hitems (binCount_dvd items requested)

/-- No divisor up to the bound is larger. -/
theorem le_largestDivisorUpTo {d : Nat} (hdvd : d ∣ items) (hpos : 0 < d) (hle : d ≤ bound) :
    d ≤ largestDivisorUpTo items bound := by
  induction bound with
  | zero => omega
  | succ bound ih =>
      rw [largestDivisorUpTo]
      split
      · exact hle
      next hmod =>
        have hne : d ≠ bound + 1 := by
          intro heq
          exact hmod (Nat.mod_eq_zero_of_dvd (heq ▸ hdvd))
        exact ih (by omega)

theorem largestDivisorUpTo_le (hpos : 0 < bound) : largestDivisorUpTo items bound ≤ bound := by
  induction bound with
  | zero => omega
  | succ bound ih =>
      rw [largestDivisorUpTo]
      split
      · exact Nat.le_refl _
      · rcases Nat.eq_zero_or_pos bound with hzero | hbound
        · rw [hzero]
          exact Nat.le_refl 1
        · exact Nat.le_succ_of_le (ih hbound)

/-- There are as many bins as are asked for, if there are as many items. -/
theorem le_binCount (hle : requested ≤ items) : requested ≤ binCount items requested := by
  unfold binCount
  split
  · exact hle
  · split
    · exact Nat.le_refl requested
    next hzero _ =>
      have hreq : 0 < requested := Nat.pos_of_ne_zero hzero
      have hitems : 0 < items := Nat.lt_of_lt_of_le hreq hle
      have hpos : 0 < largestDivisorUpTo items (items / requested) :=
        Nat.pos_of_dvd_of_pos (largestDivisorUpTo_dvd items _) hitems
      have hfactor : largestDivisorUpTo items (items / requested) ≤ items / requested :=
        largestDivisorUpTo_le (Nat.div_pos hle hreq)
      rw [Nat.le_div_iff_mul_le hpos, Nat.mul_comm]
      exact (Nat.le_div_iff_mul_le hreq).mp hfactor

/-- No divisor from the number asked for on is smaller. -/
theorem binCount_le_of_dvd {d : Nat} (hitems : 0 < items) (hreq : 0 < requested)
    (hdvd : d ∣ items) (hle : requested ≤ d) : binCount items requested ≤ d := by
  unfold binCount
  rw [if_neg (Nat.ne_of_gt hreq)]
  split
  · exact hle
  · -- The items of a bin divide the items as well, and the more they are the fewer bins there are.
    have hd : 0 < d := Nat.pos_of_dvd_of_pos hdvd hitems
    have hpos : 0 < items / d := Nat.div_pos (Nat.le_of_dvd hitems hdvd) hd
    have hfactor : items / d ≤ largestDivisorUpTo items (items / requested) :=
      le_largestDivisorUpTo (Nat.div_dvd_of_dvd hdvd) hpos (Nat.div_le_div_left hle hreq)
    calc items / largestDivisorUpTo items (items / requested)
        ≤ items / (items / d) := Nat.div_le_div_left hfactor hpos
      _ = d := Nat.div_div_self hdvd (Nat.ne_of_gt hitems)

/-- The number of bins is the least divisor that is not below the number asked for, or not below
the number of items where more are asked for. -/
theorem binCount_isLeast (hitems : 0 < items) (hreq : 0 < requested) :
    IsLeast {d | d ∣ items ∧ min requested items ≤ d} (binCount items requested) := by
  constructor
  · refine ⟨binCount_dvd items requested, ?_⟩
    rcases Nat.le_total requested items with hle | hle
    · rw [Nat.min_eq_left hle]
      exact le_binCount hle
    · rcases Nat.eq_or_lt_of_le hle with heq | hlt
      · rw [heq, Nat.min_self]
        exact le_binCount (Nat.le_refl requested)
      · have hzero : items / requested = 0 := Nat.div_eq_of_lt hlt
        have hmod : items % requested ≠ 0 := by
          rw [Nat.mod_eq_of_lt hlt]
          exact Nat.ne_of_gt hitems
        rw [binCount, if_neg (Nat.ne_of_gt hreq), if_neg hmod, hzero, largestDivisorUpTo,
          Nat.div_one]
        exact Nat.min_le_right requested items
  · intro d hd
    obtain ⟨hdvd, hle⟩ := hd
    rcases Nat.le_total requested items with hreqle | hreqle
    · exact binCount_le_of_dvd hitems hreq hdvd (Nat.min_eq_left hreqle ▸ hle)
    · exact Nat.le_trans (binCount_le hitems) (Nat.min_eq_right hreqle ▸ hle)

/-- A number of bins that divides the items is used as it is. -/
theorem binCount_of_dvd (hreq : 0 < requested) (hdvd : requested ∣ items) :
    binCount items requested = requested := by
  rw [binCount, if_neg (Nat.ne_of_gt hreq), if_pos (Nat.mod_eq_zero_of_dvd hdvd)]

/-- To ask for more bins than there are items is to ask for one bin for each. -/
theorem binCount_of_le (hitems : 0 < items) (hle : items ≤ requested) :
    binCount items requested = items := by
  have hleast := (binCount_isLeast hitems (Nat.lt_of_lt_of_le hitems hle)).1.2
  rw [Nat.min_eq_right hle] at hleast
  exact Nat.le_antisymm (binCount_le hitems) hleast

/-- There are no fewer bins where more are asked for, as fewer divisors are left to choose from. -/
theorem binCount_mono {more : Nat} (hitems : 0 < items) (hreq : 0 < requested)
    (hmore : requested ≤ more) : binCount items requested ≤ binCount items more := by
  have hleast := binCount_isLeast hitems hreq
  have hleastMore := binCount_isLeast hitems (Nat.lt_of_lt_of_le hreq hmore)
  refine hleastMore.mono hleast ?_
  rintro d ⟨hdvd, hle⟩
  have hmin : min requested items ≤ min more items := min_le_min_right items hmore
  exact ⟨hdvd, Nat.le_trans hmin hle⟩

/-- The number of bins for some items is the least divisor of their number that is not below the
number of bins asked for, or not below the number of items where more bins are asked for. So it is
the number asked for if that divides the items, never a smaller one unless there are too few items,
no smaller for a larger one, and what it was if it is asked for again. -/
theorem binCount_least_divisor (hitems : 1 ≤ items) (hreq : 1 ≤ requested) :
    IsLeast {d | d ∣ items ∧ min requested items ≤ d} (binCount items requested) ∧
    (requested ∣ items → binCount items requested = requested) ∧
    (requested ≤ items → requested ≤ binCount items requested) ∧
    (items ≤ requested → binCount items requested = items) ∧
    (∀ more, requested ≤ more → binCount items requested ≤ binCount items more) ∧
    binCount items (binCount items requested) = binCount items requested := by
  refine ⟨binCount_isLeast hitems hreq, binCount_of_dvd hreq, le_binCount, binCount_of_le hitems,
    fun more => binCount_mono hitems hreq, ?_⟩
  exact binCount_of_dvd (binCount_pos hitems) (binCount_dvd items requested)

/-- If five bins are asked for, thirty-two items are put into eight bins. -/
theorem binCount_thirtyTwo :
    1 ≤ 32 ∧ 1 ≤ 5 ∧ binCount 32 5 = 8 ∧ IsLeast {d | d ∣ 32 ∧ 5 ≤ d} 8 ∧ 8 ≤ binCount 32 9 ∧
      binCount 32 8 = 8 := by
  obtain ⟨hleast, -, -, -, hmono, hagain⟩ :=
    @binCount_least_divisor 32 5 (by decide) (by decide)
  have hbins : binCount 32 5 = 8 := by decide
  rw [hbins] at hleast hmono hagain
  exact ⟨by decide, by decide, hbins, hleast, hmono 9 (by decide), hagain⟩

end VoltageStats
