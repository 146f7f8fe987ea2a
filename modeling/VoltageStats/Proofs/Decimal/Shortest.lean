import VoltageStats.Decimal.Shortest
import VoltageStats.Proofs.Binary.Rounding

/-!
# The shortest decimal rounds to its number

A point that a grid has in a neighbourhood is in it (`gridPoint?_spec`), and a grid that is fine
enough has one. For doubles the grids that are looked through get fine enough, so that the shortest
decimal is in the neighbourhood of its number (`contains_shortest`), and every decimal there is
rounded to the number (`binary64_ofDecimal_eq`).
-/

namespace VoltageStats.Decimal

/-- The number that a decimal writes. -/
def value (d : Decimal) : ℚ := d.digits * 10 ^ d.exponent

namespace Neighbourhood

variable {n : Neighbourhood} {v : ℚ} {k : ℤ}

/-- Whether a number is in a neighbourhood. -/
def Contains (n : Neighbourhood) (v : ℚ) : Prop :=
  if n.closed then n.low ≤ v * n.denominator ∧ v * n.denominator ≤ n.high
  else n.low < v * n.denominator ∧ v * n.denominator < n.high

/-- Whether a neighbourhood has a middle that is inside it. -/
structure IsProper (n : Neighbourhood) : Prop where
  denominator_pos : 0 < n.denominator
  low_lt : n.low < n.middle
  lt_high : n.middle < n.high

/-- What the bounds of a neighbourhood are multiplied with, to compare them with the points of a
grid. -/
def scale (k : ℤ) : Nat := if 0 ≤ k then 1 else 10 ^ (-k).toNat

/-- The distance of the points of a grid in these terms. -/
def unit (n : Neighbourhood) (k : ℤ) : Nat :=
  if 0 ≤ k then n.denominator * 10 ^ k.toNat else n.denominator

theorem scale_pos (k : ℤ) : 0 < scale k := by
  unfold scale
  split_ifs <;> positivity

theorem unit_pos (hn : n.IsProper) (k : ℤ) : 0 < n.unit k := by
  have := hn.denominator_pos
  unfold unit
  split_ifs <;> positivity

theorem unit_eq (n : Neighbourhood) (k : ℤ) :
    (n.unit k : ℚ) = 10 ^ k * n.denominator * scale k := by
  unfold unit scale
  split_ifs with hk
  · have hpow := zpow_of_nonneg 10 hk
    push_cast at hpow ⊢
    rw [hpow]
    ring
  · have hpow := zpow_of_neg 10 (not_le.mp hk)
    push_cast at hpow ⊢
    rw [hpow]
    field_simp

/-- A point of a grid is compared with the bounds of a neighbourhood without division. -/
theorem contains_value_iff {digits : Nat} :
    n.Contains (value ⟨digits, k⟩) ↔
      if n.closed then n.low * scale k ≤ digits * n.unit k ∧ digits * n.unit k ≤ n.high * scale k
      else n.low * scale k < digits * n.unit k ∧ digits * n.unit k < n.high * scale k := by
  have hpos : (0 : ℚ) < scale k := by exact_mod_cast scale_pos k
  have hpoint : value ⟨digits, k⟩ * n.denominator * scale k = (digits * n.unit k : Nat) := by
    push_cast
    rw [unit_eq, value]
    ring
  have hle (bound : Nat) : (bound : ℚ) ≤ value ⟨digits, k⟩ * n.denominator ↔
      bound * scale k ≤ digits * n.unit k := by
    rw [← mul_le_mul_iff_left₀ hpos, hpoint]
    norm_cast
  have hge (bound : Nat) : value ⟨digits, k⟩ * n.denominator ≤ bound ↔
      digits * n.unit k ≤ bound * scale k := by
    rw [← mul_le_mul_iff_left₀ hpos, hpoint]
    norm_cast
  unfold Contains
  simp only [← not_le, hle, hge]

end Neighbourhood

open Neighbourhood

variable {tie : TieRule} {n : Neighbourhood} {k : ℤ} {d : Decimal}

/-- The points of a grid on both sides of the middle of a neighbourhood. -/
theorem below_middle (hn : n.IsProper) (k : ℤ) :
    n.middle * scale k / n.unit k * n.unit k ≤ n.middle * scale k ∧
      n.middle * scale k < (n.middle * scale k / n.unit k + 1) * n.unit k :=
  ⟨Nat.div_mul_le_self _ _, (Nat.div_lt_iff_lt_mul (unit_pos hn k)).mp (Nat.lt_succ_self _)⟩

/-- A point that is found on a grid is positive and in the neighbourhood. -/
theorem gridPoint?_spec (hn : n.IsProper) (h : gridPoint? tie n k = some d) :
    0 < d.digits ∧ n.Contains d.value := by
  obtain ⟨hbelow, habove⟩ := below_middle hn k
  have hlow : n.low * scale k < n.middle * scale k :=
    Nat.mul_lt_mul_of_pos_right hn.low_lt (scale_pos k)
  have hhigh : n.middle * scale k < n.high * scale k :=
    Nat.mul_lt_mul_of_pos_right hn.lt_high (scale_pos k)
  unfold gridPoint? at h
  dsimp only at h
  rw [← scale, ← unit] at h
  generalize n.middle * scale k / n.unit k = below at *
  -- Which of the two points counts in a tie does not matter here, only that it is one of them.
  have hcases : (d = ⟨below, k⟩ ∧ 0 < below ∧
      if n.closed then n.low * scale k ≤ below * n.unit k else n.low * scale k < below * n.unit k) ∨
      (d = ⟨below + 1, k⟩ ∧ if n.closed then (below + 1) * n.unit k ≤ n.high * scale k
        else (below + 1) * n.unit k < n.high * scale k) := by
    cases hclosed : n.closed <;>
      simp only [hclosed, Bool.false_eq_true, if_true, if_false] at h ⊢ <;>
      cases tie <;> split_ifs at h <;> cases h <;> simp [*]
  rcases hcases with ⟨rfl, hpos, hhit⟩ | ⟨rfl, hhit⟩
  · refine ⟨hpos, contains_value_iff.mpr ?_⟩
    split_ifs at hhit ⊢
    · exact ⟨hhit, by omega⟩
    · exact ⟨hhit, by omega⟩
  · refine ⟨Nat.succ_pos _, contains_value_iff.mpr ?_⟩
    split_ifs at hhit ⊢
    · exact ⟨by omega, hhit⟩
    · exact ⟨by omega, hhit⟩

/-- A grid that is finer than the lower half of a neighbourhood has a point in it. -/
theorem isSome_gridPoint? (hn : n.IsProper) (hk : n.unit k ≤ (n.middle - n.low) * scale k) :
    (gridPoint? tie n k).isSome := by
  obtain ⟨hbelow, habove⟩ := below_middle hn k
  rw [Nat.succ_mul] at habove
  rw [Nat.sub_mul] at hk
  unfold gridPoint?
  dsimp only
  rw [← scale, ← unit]
  generalize n.middle * scale k / n.unit k = below at *
  have hlow : n.low * scale k < below * n.unit k := by omega
  have hpos : 0 < below := by
    by_contra hzero
    obtain rfl : below = 0 := by omega
    omega
  have hhit : (if n.closed = true then n.low * scale k ≤ below * n.unit k
      else n.low * scale k < below * n.unit k) ∧ 0 < below := by
    split_ifs
    · exact ⟨hlow.le, hpos⟩
    · exact ⟨hlow, hpos⟩
  rw [if_pos hhit]
  cases tie <;> split_ifs <;> rfl

/-- If the last grid is fine enough, a point is found on it or on one before. -/
theorem gridPoint?_firstGridPoint (hn : n.IsProper) {steps : Nat}
    (hlast : n.unit (k - steps) ≤ (n.middle - n.low) * scale (k - steps)) :
    ∃ grid, gridPoint? tie n grid = some (firstGridPoint tie n (steps + 1) k) := by
  induction steps generalizing k with
  | zero =>
      rw [Nat.cast_zero, sub_zero] at hlast
      have hsome : (gridPoint? tie n k).isSome := isSome_gridPoint? hn hlast
      obtain ⟨d, hd⟩ := Option.isSome_iff_exists.mp hsome
      exact ⟨k, by rw [firstGridPoint, hd]⟩
  | succ steps ih =>
      rw [firstGridPoint]
      cases hpoint : gridPoint? tie n k with
      | some d => exact ⟨k, hpoint⟩
      | none =>
          -- The same grid is the last one, with one step less before it.
          refine ih ?_
          rwa [sub_sub, add_comm 1, ← Nat.cast_add_one]

/-! ## The neighbourhood of a number -/

variable {f : BinaryFormat} {m : Nat} {e : ℤ} {v : ℚ}

/-- A quarter of a unit of the last place is one in the terms of the neighbourhood. -/
theorem quarter_eq (e : ℤ) :
    ((if 2 ≤ e then 2 ^ (e - 2).toNat else 1 : Nat) : ℚ) =
      2 ^ e / 4 * (if 2 ≤ e then 1 else 2 ^ (2 - e).toNat : Nat) := by
  have hquarter : (2 : ℚ) ^ e / 4 = 2 ^ (e - 2) := by
    rw [zpow_sub₀ two_ne_zero]
    norm_num
  rw [hquarter]
  split_ifs with he
  · have hpow := zpow_of_nonneg 2 (sub_nonneg.mpr he)
    push_cast at hpow ⊢
    rw [hpow, mul_one]
  · have hpow := zpow_of_neg 2 (e := e - 2) (by omega)
    rw [neg_sub] at hpow
    push_cast at hpow ⊢
    rw [hpow, one_div_mul_cancel (by positivity)]

theorem isProper_neighbourhood (hm : 0 < m) : (neighbourhood f m e).IsProper := by
  have hquarter : 0 < (if 2 ≤ e then 2 ^ (e - 2).toNat else 1 : Nat) := by split_ifs <;> positivity
  refine ⟨?_, Nat.mul_lt_mul_of_pos_right ?_ hquarter, Nat.mul_lt_mul_of_pos_right ?_ hquarter⟩
  · show 0 < (if 2 ≤ e then 1 else 2 ^ (2 - e).toNat : Nat)
    split_ifs <;> positivity
  · split_ifs <;> omega
  · omega

/-- A number in a neighbourhood, in quarters of a unit of the last place. -/
theorem contains_neighbourhood_iff (hm : 0 < m) :
    (neighbourhood f m e).Contains v ↔
      let low := 4 * (m : ℚ) - if m = 2 ^ f.fractionBits ∧ f.leastExponent < e then 1 else 2
      let high := 4 * (m : ℚ) + 2
      if m % 2 = 0 then low ≤ 4 * (v / 2 ^ e) ∧ 4 * (v / 2 ^ e) ≤ high
      else low < 4 * (v / 2 ^ e) ∧ 4 * (v / 2 ^ e) < high := by
  have hquarter := quarter_eq e
  have hpos : (0 : ℚ) < (if 2 ≤ e then 2 ^ (e - 2).toNat else 1 : Nat) := by
    split_ifs <;> positivity
  have hpoint : v * (neighbourhood f m e).denominator =
      4 * (v / 2 ^ e) * (if 2 ≤ e then 2 ^ (e - 2).toNat else 1 : Nat) := by
    rw [hquarter, neighbourhood]
    field_simp
  have hlow : ((neighbourhood f m e).low : ℚ) =
      (4 * m - if m = 2 ^ f.fractionBits ∧ f.leastExponent < e then 1 else 2) *
        (if 2 ≤ e then 2 ^ (e - 2).toNat else 1 : Nat) := by
    rw [neighbourhood, Nat.cast_mul, Nat.cast_sub (by split_ifs <;> omega)]
    push_cast
    rfl
  have hhigh : ((neighbourhood f m e).high : ℚ) =
      (4 * m + 2) * (if 2 ≤ e then 2 ^ (e - 2).toNat else 1 : Nat) := by
    rw [neighbourhood]
    push_cast
    rfl
  unfold Contains
  simp only [hpoint, hlow, hhigh, mul_le_mul_iff_left₀ hpos, mul_lt_mul_iff_left₀ hpos]
  simp only [neighbourhood, decide_eq_true_eq]

/-- What is in the neighbourhood of a number is rounded to it. -/
theorem rounds_of_contains (hm : 0 < m) (h : (neighbourhood f m e).Contains v) :
    Rounds (v / 2 ^ e) m ∧
      (m = 2 ^ f.fractionBits → f.leastExponent < e → (m : ℚ) - 1 / 4 ≤ v / 2 ^ e) := by
  rw [contains_neighbourhood_iff hm] at h
  dsimp only at h
  have hbounds : (4 * (m : ℚ) - if m = 2 ^ f.fractionBits ∧ f.leastExponent < e then 1 else 2) ≤
      4 * (v / 2 ^ e) ∧ 4 * (v / 2 ^ e) ≤ 4 * m + 2 := by
    split at h
    · exact h
    · exact ⟨h.1.le, h.2.le⟩
  refine ⟨⟨?_, by linarith, ?_⟩, ?_⟩
  · split at hbounds <;> linarith
  · intro htie
    by_contra hodd
    rw [if_neg hodd] at h
    rcases htie with htie | htie
    · split at h <;> linarith
    · linarith
  · intro hpower hleast
    rw [if_pos ⟨hpower, hleast⟩] at hbounds
    linarith

/-! ## Doubles -/

/-- Three powers of ten are at most ten powers of two, and at least nine. -/
theorem ten_zpow_le {k j : ℤ} (hup : 10 * k ≤ 3 * j) (hdown : 3 * k ≤ j) :
    (10 : ℚ) ^ k ≤ 2 ^ j := by
  rcases le_total 0 k with hk | hk
  · have hcube : ((10 : ℚ) ^ k) ^ 3 ≤ (2 ^ j) ^ 3 := by
      calc ((10 : ℚ) ^ k) ^ 3 = 1000 ^ k := by
            rw [← zpow_natCast, zpow_comm]
            norm_num
        _ ≤ 1024 ^ k := zpow_le_zpow_left₀ hk (by norm_num) (by norm_num)
        _ = 2 ^ (10 * k) := by
            rw [zpow_mul]
            norm_num
        _ ≤ 2 ^ (3 * j) := zpow_le_zpow_right₀ one_le_two hup
        _ = (2 ^ j) ^ 3 := by rw [mul_comm, zpow_mul]; rfl
    exact (pow_le_pow_iff_left₀ (by positivity) (by positivity) three_ne_zero).mp hcube
  · calc (10 : ℚ) ^ k ≤ 8 ^ k := by
          rw [← inv_le_inv₀ (by positivity) (by positivity), ← zpow_neg, ← zpow_neg]
          exact zpow_le_zpow_left₀ (by omega) (by norm_num) (by norm_num)
      _ = 2 ^ (3 * k) := by
          rw [zpow_mul]
          norm_num
      _ ≤ 2 ^ j := zpow_le_zpow_right₀ one_le_two hdown

theorem two_zpow_le {k j : ℤ} (hk : 0 ≤ k) (h : j ≤ 3 * k) : (2 : ℚ) ^ j ≤ 10 ^ k := by
  calc (2 : ℚ) ^ j ≤ 2 ^ (3 * k) := zpow_le_zpow_right₀ one_le_two h
    _ = 8 ^ k := by
        rw [zpow_mul]
        norm_num
    _ ≤ 10 ^ k := zpow_le_zpow_left₀ hk (by norm_num) (by norm_num)

/-- The exponents of doubles. -/
theorem exponent_bounds (hnumber : BinaryFormat.double.IsNumber m e) : -1074 ≤ e ∧ e ≤ 971 := by
  have hleast : -1074 ≤ e := hnumber.least
  have hfinite : (e - -1074).toNat * 2 ^ 52 + m < 2047 * 2 ^ 52 := hnumber.finite
  have hsmallest : m < 2 ^ 52 → e = -1074 := hnumber.smallest
  omega

/-- A grid that is finer than a quarter of a unit of the last place is fine enough. -/
theorem unit_le_of_ten_zpow_le {k : ℤ} (hm : 0 < m) (hk : (10 : ℚ) ^ k ≤ 2 ^ (e - 2)) :
    (neighbourhood f m e).unit k ≤
      ((neighbourhood f m e).middle - (neighbourhood f m e).low) * scale k := by
  have hquarter := quarter_eq e
  have hpower : (2 : ℚ) ^ e / 4 = 2 ^ (e - 2) := by
    rw [zpow_sub₀ two_ne_zero]
    norm_num
  have hgap : (if 2 ≤ e then 2 ^ (e - 2).toNat else 1 : Nat) ≤
      (neighbourhood f m e).middle - (neighbourhood f m e).low := by
    rw [neighbourhood, ← Nat.sub_mul]
    refine Nat.le_mul_of_pos_left _ ?_
    split_ifs <;> omega
  have hunit : ((neighbourhood f m e).unit k : ℚ) ≤
      (if 2 ≤ e then 2 ^ (e - 2).toNat else 1 : Nat) * scale k := by
    rw [unit_eq, hquarter, hpower, neighbourhood]
    gcongr
  have hle : (neighbourhood f m e).unit k ≤
      (if 2 ≤ e then 2 ^ (e - 2).toNat else 1) * scale k := by exact_mod_cast hunit
  exact hle.trans (Nat.mul_le_mul_right _ hgap)

/-- The shortest decimal for a double is positive and in its neighbourhood. -/
theorem contains_shortest (hm : 0 < m) (hnumber : BinaryFormat.double.IsNumber m e) :
    0 < (shortest .double tie m e).digits ∧
      (neighbourhood .double m e).Contains (shortest .double tie m e).value := by
  obtain ⟨hleast, hgreatest⟩ := exponent_bounds hnumber
  have hlog : m.log2 < 53 := (Nat.log2_lt hm.ne').mpr hnumber.lt
  -- The last of the grids is looked at last.
  have hlast : (10 : ℚ) ^ (((m.log2 : ℤ) + e + 1) * 30103 / 100000 + 1 - (61 : ℕ)) ≤ 2 ^ (e - 2) :=
    ten_zpow_le (by omega) (by omega)
  have hn := isProper_neighbourhood (f := .double) (e := e) hm
  obtain ⟨grid, hgrid⟩ : ∃ grid, gridPoint? tie (neighbourhood .double m e) grid =
      some (shortest .double tie m e) :=
    gridPoint?_firstGridPoint hn (unit_le_of_ten_zpow_le hm hlast)
  exact gridPoint?_spec hn hgrid

/-- What is rounded to a double other than zero lies in the range of doubles. -/
theorem bounds_of_rounds (hm : 0 < m) (hnumber : BinaryFormat.double.IsNumber m e)
    (h : Rounds (v / 2 ^ e) m) : (2 : ℚ) ^ (-1075 : ℤ) ≤ v ∧ v ≤ 2 ^ (1024 : ℤ) := by
  obtain ⟨hleast, hgreatest⟩ := exponent_bounds hnumber
  have hpos : (0 : ℚ) < 2 ^ e := by positivity
  have hone : (1 : ℚ) ≤ m := by exact_mod_cast hm
  have hlt : (m : ℚ) + 1 ≤ 2 ^ 53 := by exact_mod_cast hnumber.lt
  have hlow := h.low
  have hhigh := h.high
  constructor
  · calc (2 : ℚ) ^ (-1075 : ℤ) ≤ 2 ^ (e - 1) := zpow_le_zpow_right₀ one_le_two (by omega)
      _ = 1 / 2 * 2 ^ e := by
          rw [zpow_sub_one₀ two_ne_zero]
          ring
      _ ≤ v := (le_div_iff₀ hpos).mp (by linarith)
  · calc v ≤ 2 ^ 53 * 2 ^ e := (div_le_iff₀ hpos).mp (by linarith)
      _ = 2 ^ (53 + e) := by rw [zpow_add₀ two_ne_zero]; rfl
      _ ≤ 2 ^ (1024 : ℤ) := zpow_le_zpow_right₀ one_le_two (by omega)

/-- The exponent of a decimal in the range of doubles is not so small that it is settled without a
power. -/
theorem not_leading_lt {digits : Nat} {exponent : ℤ} (hdigits : 0 < digits)
    (h : (2 : ℚ) ^ (-1075 : ℤ) ≤ value ⟨digits, exponent⟩) :
    ¬ (digits.log2 : ℤ) / 3 + 1 + exponent < -400 := by
  intro hless
  have hpos : (0 : ℚ) < 10 ^ exponent := by positivity
  have hsmall : value ⟨digits, exponent⟩ < 2 ^ (-1075 : ℤ) := by
    calc (digits : ℚ) * 10 ^ exponent < 2 ^ ((digits.log2 : ℤ) + 1) * 10 ^ exponent := by
          gcongr
          exact (log2_spec hdigits).2
      _ ≤ 10 ^ ((digits.log2 : ℤ) / 3 + 1) * 10 ^ exponent := by
          gcongr
          exact two_zpow_le (by omega) (by omega)
      _ = 10 ^ ((digits.log2 : ℤ) / 3 + 1 + exponent) := (zpow_add₀ (by norm_num) _ _).symm
      _ ≤ 2 ^ (-1075 : ℤ) := ten_zpow_le (by omega) (by omega)
  exact absurd h (not_le.mpr hsmall)

/-- Nor is it so large. -/
theorem not_lt_trailing {digits : Nat} {exponent : ℤ} (hdigits : 0 < digits)
    (h : value ⟨digits, exponent⟩ ≤ 2 ^ (1024 : ℤ)) :
    ¬ 400 < (digits.log2 : ℤ) / 4 + exponent := by
  intro hless
  have hlarge : 2 ^ (1024 : ℤ) < value ⟨digits, exponent⟩ := by
    calc (2 : ℚ) ^ (1024 : ℤ) < 2 ^ (1025 : ℤ) := zpow_lt_zpow_right₀ one_lt_two (by norm_num)
      _ ≤ 10 ^ ((digits.log2 : ℤ) / 4 + exponent) := two_zpow_le (by omega) (by omega)
      _ = 10 ^ ((digits.log2 : ℤ) / 4) * 10 ^ exponent := zpow_add₀ (by norm_num) _ _
      _ ≤ 2 ^ (digits.log2 : ℤ) * 10 ^ exponent := by
          gcongr
          exact ten_zpow_le (by omega) (by omega)
      _ ≤ digits * 10 ^ exponent := by
          gcongr
          exact (log2_spec hdigits).1
  exact absurd h (not_le.mpr hlarge)

/-- A decimal in the neighbourhood of a double is rounded to the double. -/
theorem ofDecimal_eq {negative : Bool} {digits : Nat} {exponent : ℤ} (hm : 0 < m)
    (hnumber : BinaryFormat.double.IsNumber m e) (hdigits : 0 < digits)
    (hcontains : (neighbourhood .double m e).Contains (value ⟨digits, exponent⟩)) :
    BinaryFormat.double.ofDecimal negative digits exponent =
      (if negative then BinaryFormat.double.signBit else 0) + BinaryFormat.double.pattern m e := by
  obtain ⟨hrounds, hnarrow⟩ := rounds_of_contains hm hcontains
  obtain ⟨hvlow, hvhigh⟩ := bounds_of_rounds hm hnumber hrounds
  have hratio {numerator denominator : Nat} (hn : 0 < numerator) (hd : 0 < denominator)
      (heq : (numerator : ℚ) / denominator = value ⟨digits, exponent⟩) :
      BinaryFormat.double.ofRatio negative numerator denominator =
        (if negative then BinaryFormat.double.signBit else 0) +
          BinaryFormat.double.pattern m e := by
    rw [BinaryFormat.ofRatio, BinaryFormat.magnitudeOfRatio_eq (by decide) hnumber hn hd]
    · rwa [heq]
    · rwa [heq]
  unfold BinaryFormat.ofDecimal
  dsimp only
  rw [if_neg (by simp [hdigits.ne', not_leading_lt hdigits hvlow]),
    if_neg (not_lt_trailing hdigits hvhigh)]
  by_cases hexponent : 0 ≤ exponent
  · rw [if_pos hexponent]
    refine hratio (Nat.mul_pos hdigits (by positivity)) one_pos ?_
    have hpow := zpow_of_nonneg 10 hexponent
    push_cast at hpow ⊢
    rw [value, hpow, div_one]
  · rw [if_neg hexponent]
    refine hratio hdigits (by positivity) ?_
    have hpow := zpow_of_neg 10 (not_le.mp hexponent)
    push_cast at hpow ⊢
    rw [value, hpow, mul_one_div]

/-- A decimal in the neighbourhood of a double is rounded to its pattern. -/
theorem binary64_ofDecimal_eq {x : Binary64} {negative : Bool} {digits : Nat} {exponent : ℤ}
    (hm : 0 < m) (hx : x.value = .finite negative m e) (hdigits : 0 < digits)
    (hcontains : (neighbourhood .double m e).Contains (value ⟨digits, exponent⟩)) :
    Binary64.ofDecimal negative digits exponent = x := by
  obtain ⟨hnumber, hbits⟩ := BinaryFormat.decode_eq_finite (UInt64.toNat_lt x.bits) hx
  rw [Binary64.ofDecimal, ofDecimal_eq hm hnumber hdigits hcontains, ← hbits, UInt64.ofNat_toNat]

end VoltageStats.Decimal
