import VoltageStats.Binary.Extended
import VoltageStats.Proofs.Binary.Rounding

/-!
# Nearest integers and nearest levels

A rational number is rounded to the nearest integer, a tie going to the even one (`Nearest`). There
is always one such integer, and larger numbers are not rounded to smaller ones
(`nearestInteger_mono`). Brought into a range, it is the level of the range that is nearest to the
number (`Nearest.isLevel`).
-/

namespace VoltageStats

variable {x y : ℚ} {m n low high : ℤ}

/-! ## Nearest integers -/

/-- Whether an integer is the one that a rational number is rounded to: it is no more than a half
away, and it is even if it is as much as that. -/
structure Nearest (x : ℚ) (n : ℤ) : Prop where
  within : |x - n| ≤ 1 / 2
  tie : |x - n| = 1 / 2 → Even n

theorem Rounds.nearest {n : ℕ} (h : Rounds x n) : Nearest x n where
  within := by
    have hlow := h.low
    have hhigh := h.high
    rw [abs_le]
    push_cast
    constructor <;> linarith
  tie hhalf := by
    have hends : x = n - 1 / 2 ∨ x = n + 1 / 2 := by
      rcases eq_or_eq_neg_of_abs_eq hhalf with heq | heq
      · exact .inr (by push_cast at heq; linarith)
      · exact .inl (by push_cast at heq; linarith)
    exact_mod_cast Nat.even_iff.mpr (h.tie hends)

theorem Nearest.neg (h : Nearest x n) : Nearest (-x) (-n) := by
  have hdistance : |-x - (-n : ℤ)| = |x - n| := by
    rw [Int.cast_neg, ← neg_sub', abs_neg]
  exact ⟨hdistance ▸ h.within, fun hhalf => (h.tie (hdistance ▸ hhalf)).neg⟩

theorem nearest_nearestInteger (x : ℚ) : Nearest x (nearestInteger x) := by
  have habs : ((x.num.natAbs : ℕ) : ℚ) / x.den = |x| := by
    rw [Nat.cast_natAbs, Int.cast_abs, ← Nat.abs_cast x.den, ← abs_div, Rat.num_div_den]
  have hmagnitude : Nearest ((x.num.natAbs : ℕ) / x.den) (roundHalfEven x.num.natAbs x.den) :=
    (rounds_roundHalfEven x.den_pos).nearest
  rw [habs] at hmagnitude
  unfold nearestInteger
  dsimp only
  split_ifs with hnegative
  · rw [abs_of_neg (Rat.num_neg.mp hnegative)] at hmagnitude
    simpa using hmagnitude.neg
  · rwa [abs_of_nonneg (Rat.num_nonneg.mp (not_lt.mp hnegative))] at hmagnitude

/-- Larger numbers are not rounded to smaller integers: else both would lie in the middle between
them, and both integers would be even. -/
theorem Nearest.mono (hm : Nearest x m) (hn : Nearest y n) (hle : x ≤ y) : m ≤ n := by
  by_contra hlt
  have hstep : (n : ℚ) + 1 ≤ m := by exact_mod_cast not_le.mp hlt
  obtain ⟨hlow, -⟩ := abs_le.mp hm.within
  obtain ⟨-, hhigh⟩ := abs_le.mp hn.within
  have hnext : (m : ℚ) = n + 1 := by linarith
  have hmeven : Even m := hm.tie (by rw [abs_of_nonpos] <;> linarith)
  have hneven : Even n := hn.tie (by rw [abs_of_nonneg] <;> linarith)
  have hsucc : m = n + 1 := by exact_mod_cast hnext
  rw [hsucc, Int.even_add_one] at hmeven
  exact hmeven hneven

theorem Nearest.unique (hm : Nearest x m) (hn : Nearest x n) : m = n :=
  le_antisymm (hm.mono hn le_rfl) (hn.mono hm le_rfl)

theorem existsUnique_nearest (x : ℚ) : ∃! n, Nearest x n :=
  ⟨nearestInteger x, nearest_nearestInteger x, fun _ h => h.unique (nearest_nearestInteger x)⟩

theorem nearestInteger_mono : Monotone nearestInteger := fun x y =>
  (nearest_nearestInteger x).mono (nearest_nearestInteger y)

/-- No integer is nearer than the one that a number is rounded to. -/
theorem Nearest.closest (hn : Nearest x n) (m : ℤ) : |x - n| ≤ |x - m| := by
  rcases eq_or_ne m n with rfl | hne
  · exact le_rfl
  · have hapart : (1 : ℚ) ≤ |x - n| + |x - m| :=
      calc (1 : ℚ) ≤ |(n : ℚ) - m| := by
            exact_mod_cast Int.one_le_abs (sub_ne_zero.mpr hne.symm)
        _ ≤ |(n : ℚ) - x| + |x - m| := abs_sub_le _ _ _
        _ = |x - n| + |x - m| := by rw [abs_sub_comm (n : ℚ) x]
    have hhalf := hn.within
    linarith

/-- A number that is rounded to an integer below another is below that one too. -/
theorem Nearest.lt_of_lt (hn : Nearest x n) (hlt : n < m) : x < m := by
  have hstep : (n : ℚ) + 1 ≤ m := by exact_mod_cast hlt
  have hhigh := (abs_le.mp hn.within).2
  linarith

theorem Nearest.lt_of_gt (hn : Nearest x n) (hlt : m < n) : (m : ℚ) < x := by
  have hstep : (m : ℚ) + 1 ≤ n := by exact_mod_cast hlt
  have hlow := (abs_le.mp hn.within).1
  linarith

/-! ## Levels of a range -/

/-- Whether an integer is the level of a range that a number is brought to. -/
structure IsLevel (low high : ℤ) (x : ℚ) (q : ℤ) : Prop where
  /-- No level of the range is nearer. -/
  closest : ∀ m, low ≤ m → m ≤ high → |x - q| ≤ |x - m|
  /-- A number that is rounded to a level of the range goes there, -/
  inside : ∀ n, Nearest x n → low ≤ n → n ≤ high → q = n
  /-- and any other to the end of the range that is nearer. -/
  below : ∀ n, Nearest x n → n < low → q = low ∧ |x - low| < |x - high|
  above : ∀ n, Nearest x n → high < n → q = high ∧ |x - high| < |x - low|

/-- A number is brought to a level by rounding it first and bringing it into the range then. -/
theorem Nearest.isLevel (hn : Nearest x n) (hrange : low < high) :
    IsLevel low high x (min (max n low) high) where
  closest m hlow hhigh := by
    rcases lt_or_ge n low with hbelow | hn_low
    · have hclamp : min (max n low) high = low := by omega
      have hx := hn.lt_of_lt hbelow
      have hm : (low : ℚ) ≤ m := by exact_mod_cast hlow
      rw [hclamp, abs_of_neg (sub_neg.mpr hx), abs_of_neg (sub_neg.mpr (hx.trans_le hm))]
      linarith
    · rcases lt_or_ge high n with habove | hn_high
      · have hclamp : min (max n low) high = high := by omega
        have hx := hn.lt_of_gt habove
        have hm : (m : ℚ) ≤ high := by exact_mod_cast hhigh
        rw [hclamp, abs_of_pos (sub_pos.mpr hx), abs_of_pos (sub_pos.mpr (hm.trans_lt hx))]
        linarith
      · have hclamp : min (max n low) high = n := by omega
        rw [hclamp]
        exact hn.closest m
  inside m hm hlow hhigh := by
    obtain rfl := hn.unique hm
    omega
  below m hm hbelow := by
    obtain rfl := hn.unique hm
    have hx := hn.lt_of_lt hbelow
    have hends : (low : ℚ) < high := by exact_mod_cast hrange
    refine ⟨by omega, ?_⟩
    rw [abs_of_neg (sub_neg.mpr hx), abs_of_neg (sub_neg.mpr (hx.trans hends))]
    linarith
  above m hm habove := by
    obtain rfl := hn.unique hm
    have hx := hn.lt_of_gt habove
    have hends : (low : ℚ) < high := by exact_mod_cast hrange
    refine ⟨by omega, ?_⟩
    rw [abs_of_pos (sub_pos.mpr hx), abs_of_pos (sub_pos.mpr (hends.trans hx))]
    linarith

end VoltageStats
