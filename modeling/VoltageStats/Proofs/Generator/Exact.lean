import Mathlib
import VoltageStats.Generator.Moments

/-!
# Exact arithmetic

Over the rationals nothing is rounded. So it makes no difference in which order numbers are added
(`laneSum_rat`) or averaged (`mean_flatMap`), the mean and the variance of some numbers say what
their squares come to (`mean_sq`), and the smallest, the mean and the largest are in this order
(`smallest_le_mean`, `mean_le_largest`).
-/

namespace VoltageStats

open Arithmetic

/-- The number that a pattern stands for, zero if it stands for none. -/
def BinaryValue.toRat : BinaryValue → ℚ
  | .finite negative magnitude exponent =>
    (if negative then -(magnitude : ℚ) else magnitude) * 2 ^ exponent
  | _ => 0

/-- The rationals. Every one of them is a number, so where there is nothing to take a mean of the
result is one too. -/
instance : Arithmetic ℚ where
  ofCount n := n
  ofSample n := n
  ofDouble x := x.value.toRat
  undefined := 0

@[simp] theorem ofCount_rat (n : Nat) : (ofCount n : ℚ) = n := rfl

variable {x : ℚ} {xs : List ℚ}

/-! ## Sums -/

theorem foldl_add_eq (start : ℚ) (xs : List ℚ) : xs.foldl (· + ·) start = start + xs.sum := by
  induction xs generalizing start with
  | nil => simp
  | cons x xs ih => rw [List.foldl_cons, ih, List.sum_cons, add_assoc]

theorem sum_rat (xs : List ℚ) : sum xs = xs.sum := by
  rw [sum]
  exact (foldl_add_eq _ xs).trans (by simp)

/-- Lanes lose nothing. -/
theorem laneSumFrom_rat (p₀ p₁ p₂ p₃ p₄ p₅ p₆ p₇ : ℚ) (xs : List ℚ) :
    laneSumFrom p₀ p₁ p₂ p₃ p₄ p₅ p₆ p₇ xs =
      p₀ + p₁ + p₂ + p₃ + p₄ + p₅ + p₆ + p₇ + xs.sum := by
  induction p₀, p₁, p₂, p₃, p₄, p₅, p₆, p₇, xs using laneSumFrom.induct with
  | case1 p₀ p₁ p₂ p₃ p₄ p₅ p₆ p₇ x₀ x₁ x₂ x₃ x₄ x₅ x₆ x₇ xs ih =>
      rw [laneSumFrom, ih]
      simp only [List.sum_cons]
      ring
  | case2 p₀ p₁ p₂ p₃ p₄ p₅ p₆ p₇ xs hshort =>
      rw [laneSumFrom, foldl_add_eq, ofCount_rat]
      · push_cast
        ring
      · exact hshort

theorem laneSum_rat (xs : List ℚ) : laneSum xs = xs.sum := by
  rw [laneSum, laneSumFrom_rat]
  simp

/-! ## Means and variances -/

theorem mean_rat (hne : xs ≠ []) : mean xs = xs.sum / xs.length := by
  rw [mean, if_neg (by simpa using hne), sum_rat, ofCount_rat]

theorem length_pos (hne : xs ≠ []) : (0 : ℚ) < xs.length :=
  Nat.cast_pos.mpr (List.length_pos_of_ne_nil hne)

theorem mean_map_add {α : Type} {xs : List α} (hne : xs ≠ []) (f g : α → ℚ) :
    mean (xs.map fun x => f x + g x) = mean (xs.map f) + mean (xs.map g) := by
  have hmap : ∀ f : α → ℚ, xs.map f ≠ [] := fun _ => by simpa using hne
  simp only [mean_rat (hmap _), List.length_map, List.sum_map_add, add_div]

/-- The mean of lists of one length together is the mean of their means. -/
theorem mean_flatMap {α : Type} {n : Nat} {xs : List α} {f : α → List ℚ} (hne : xs ≠ [])
    (hn : 0 < n) (hlength : ∀ x, (f x).length = n) :
    mean (xs.flatMap f) = mean (xs.map fun x => mean (f x)) := by
  have hlists : ∀ x, f x ≠ [] := fun x => List.ne_nil_of_length_pos ((hlength x).symm ▸ hn)
  have hflat : xs.flatMap f ≠ [] := by
    obtain ⟨x, hmem⟩ := List.exists_mem_of_ne_nil xs hne
    exact fun hnil => hlists x (List.flatMap_eq_nil_iff.mp hnil x hmem)
  have hlengths : (xs.flatMap f).length = xs.length * n := by
    simp [List.length_flatMap, hlength]
  have hmeans : ∀ x, mean (f x) = (f x).sum * (n : ℚ)⁻¹ := fun x => by
    rw [mean_rat (hlists x), hlength, div_eq_mul_inv]
  calc mean (xs.flatMap f)
      = (xs.map fun x => (f x).sum).sum / (xs.length * n) := by
        rw [mean_rat hflat, hlengths, Nat.cast_mul, List.flatMap, List.sum_flatten, List.map_map]
        rfl
    _ = (xs.map fun x => mean (f x)).sum / xs.length := by
        simp only [hmeans, List.sum_map_mul_right]
        rw [← div_eq_mul_inv, div_div, mul_comm (n : ℚ)]
    _ = mean (xs.map fun x => mean (f x)) := by
        rw [mean_rat (by simpa using hne), List.length_map]

theorem sampleVariance_rat (hlength : 2 ≤ xs.length) :
    sampleVariance xs = (xs.map fun x => (x - mean xs) ^ 2).sum / (xs.length - 1) := by
  have hdegrees : ((xs.length - 1 : Nat) : ℚ) = xs.length - 1 := Nat.cast_pred (by omega)
  unfold sampleVariance
  rw [if_neg (by omega)]
  simp only [sum_rat, ofCount_rat, hdegrees, sq]

/-- The squared distances of some numbers from a centre. -/
theorem sum_sq_sub (center : ℚ) (xs : List ℚ) :
    (xs.map fun x => (x - center) ^ 2).sum =
      (xs.map (· ^ 2)).sum - 2 * center * xs.sum + xs.length * center ^ 2 := by
  induction xs with
  | nil => simp
  | cons x xs ih =>
      simp only [List.map_cons, List.sum_cons, List.length_cons, ih]
      push_cast
      ring

/-- The mean of the squares of some numbers is made of their mean and their variance. -/
theorem mean_sq (hlength : 2 ≤ xs.length) :
    mean (xs.map (· ^ 2)) =
      mean xs ^ 2 + sampleVariance xs * (xs.length - 1) / xs.length := by
  have hne : xs ≠ [] := by
    rintro rfl
    cases hlength
  have hpos : (xs.length : ℚ) ≠ 0 := (length_pos hne).ne'
  have hdegrees : (xs.length : ℚ) - 1 ≠ 0 := by
    have htwo : (2 : ℚ) ≤ xs.length := by exact_mod_cast hlength
    linarith
  have hsum : xs.sum = xs.length * mean xs := by
    rw [mean_rat hne, mul_div_cancel₀ _ hpos]
  rw [mean_rat (by simpa using hne), List.length_map, sampleVariance_rat hlength, sum_sq_sub, hsum]
  field_simp
  ring

/-! ## Extremes -/

/-- The largest of some numbers is one of them, and none of them is larger. -/
theorem largest_isGreatest (hne : xs ≠ []) : IsGreatest {x | x ∈ xs} (largest xs) := by
  cases xs with
  | nil => exact absurd rfl hne
  | cons x xs => exact List.max?_eq_some_iff.mp List.max?_cons'

/-- The smallest of some numbers is one of them, and none of them is smaller. -/
theorem smallest_isLeast (hne : xs ≠ []) : IsLeast {x | x ∈ xs} (smallest xs) := by
  cases xs with
  | nil => exact absurd rfl hne
  | cons x xs => exact List.min?_eq_some_iff.mp List.min?_cons'

theorem smallest_le_mean (hne : xs ≠ []) : smallest xs ≤ mean xs := by
  have hsum : xs.length • smallest xs ≤ xs.sum :=
    List.card_nsmul_le_sum xs _ (smallest_isLeast hne).2
  rw [nsmul_eq_mul] at hsum
  rw [mean_rat hne, le_div_iff₀ (length_pos hne), mul_comm]
  exact hsum

theorem mean_le_largest (hne : xs ≠ []) : mean xs ≤ largest xs := by
  have hsum : xs.sum ≤ xs.length • largest xs :=
    List.sum_le_card_nsmul xs _ (largest_isGreatest hne).2
  rw [nsmul_eq_mul] at hsum
  rw [mean_rat hne, div_le_iff₀ (length_pos hne), mul_comm]
  exact hsum

/-- If each part has a largest number, the largest number of all is the largest of those. -/
theorem isGreatest_image_of_cover {ι : Type} {indices : Set ι} {part : ι → Set ℚ} {top : ι → ℚ}
    {whole : Set ℚ} (hcover : ∀ y, y ∈ whole ↔ ∃ i ∈ indices, y ∈ part i)
    (hpart : ∀ i ∈ indices, IsGreatest (part i) (top i)) (hwhole : IsGreatest whole x) :
    IsGreatest (top '' indices) x := by
  have hle : ∀ i ∈ indices, top i ≤ x := fun i hi =>
    hwhole.2 ((hcover (top i)).mpr ⟨i, hi, (hpart i hi).1⟩)
  constructor
  · obtain ⟨i, hi, hmem⟩ := (hcover x).mp hwhole.1
    exact ⟨i, hi, le_antisymm (hle i hi) ((hpart i hi).2 hmem)⟩
  · intro y hy
    obtain ⟨i, hi, rfl⟩ := hy
    exact hle i hi

end VoltageStats
