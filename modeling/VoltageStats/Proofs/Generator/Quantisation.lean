import VoltageStats.Generator.Generated
import VoltageStats.Proofs.Binary.Nearest
import VoltageStats.Proofs.Generator.Arrays
import VoltageStats.Proofs.Generator.Labels
import VoltageStats.Proofs.Generator.Rebinning

/-!
# Quantisation

A deviate is divided by the width of a level, rounded, and brought into the range. Whatever the
arithmetic, the sample it becomes lies in the range, so that every step it is counted in has a place
for it (`Config.hasPlace_quantise`), and it is the level of the range that is nearest to the
computed quotient (`Config.isLevel_quantise`). Over the rationals with infinities that quotient is
exact, and larger deviates do not become smaller samples (`Config.quantises_to_nearest`).
-/

namespace VoltageStats

open Arithmetic

/-! ## Rationals with infinities -/

namespace Extended

/-- Whether one number is at most another; never if either is none. -/
def atMost : Extended ℚ → Extended ℚ → Bool
  | nan, _ | _, nan => false
  | infinite true, _ | _, infinite false => true
  | infinite false, _ | _, infinite true => false
  | finite x, finite y => x ≤ y

instance : LE (Extended ℚ) := ⟨fun v w => v.atMost w⟩

instance : Add (Extended ℚ) where
  add
    | nan, _ | _, nan => nan
    | infinite m, infinite n => if m = n then infinite m else nan
    | infinite m, finite _ | finite _, infinite m => infinite m
    | finite x, finite y => finite (x + y)

instance : Sub (Extended ℚ) where
  sub
    | nan, _ | _, nan => nan
    | infinite m, infinite n => if m = n then nan else infinite m
    | infinite m, finite _ => infinite m
    | finite _, infinite n => infinite !n
    | finite x, finite y => finite (x - y)

instance : Mul (Extended ℚ) where
  mul
    | nan, _ | _, nan => nan
    | infinite m, infinite n => infinite (m != n)
    | infinite m, finite x | finite x, infinite m =>
      if x = 0 then nan else infinite (m != decide (x < 0))
    | finite x, finite y => finite (x * y)

/-- A zero has no sign here, so a number that is divided by it keeps its own. -/
instance : Div (Extended ℚ) where
  div
    | nan, _ | _, nan => nan
    | infinite _, infinite _ => nan
    | infinite m, finite y => infinite (m != decide (y < 0))
    | finite _, infinite _ => finite 0
    | finite x, finite y =>
      if y ≠ 0 then finite (x / y) else if x = 0 then nan else infinite (x < 0)

/-- The larger of two; one that is no number is ignored. -/
instance : Max (Extended ℚ) where
  max
    | nan, w => w
    | v, nan => v
    | v, w => if v.atMost w then w else v

/-- The smaller of two; one that is no number is ignored. -/
instance : Min (Extended ℚ) where
  min
    | nan, w => w
    | v, nan => v
    | v, w => if v.atMost w then v else w

instance : Numeric (Extended ℚ) where
  ofCount n := finite n
  ofSample n := finite n
  ofDouble x := x.value.toExtended
  undefined := nan
  number := id

theorem finite_div_finite {x y : ℚ} (hy : y ≠ 0) :
    (finite x / finite y : Extended ℚ) = finite (x / y) := if_pos hy

theorem nan_div_finite (y : ℚ) : (nan / finite y : Extended ℚ) = nan := rfl

theorem infinite_div_finite {negative : Bool} {y : ℚ} (hy : 0 < y) :
    (infinite negative / finite y : Extended ℚ) = infinite negative := by
  have hsign : (negative != decide (y < 0)) = negative := by
    rw [decide_eq_false (not_lt.mpr hy.le), Bool.bne_false]
  exact congrArg infinite hsign

/-- If one number is at most another, one of them is an infinity or both are rational. -/
theorem le_cases {v w : Extended ℚ} (h : v ≤ w) :
    v = infinite true ∨ w = infinite false ∨ ∃ x y, v = finite x ∧ w = finite y ∧ x ≤ y := by
  have h : v.atMost w = true := h
  unfold atMost at h
  -- One case for each line of the definition; those where it is false come to nothing.
  split at h
  · cases h
  · cases h
  · exact .inl rfl
  · exact .inr (.inl rfl)
  · cases h
  · cases h
  · exact .inr (.inr ⟨_, _, rfl, rfl, of_decide_eq_true h⟩)

end Extended

/-- A pattern that is finite and above zero stands for a rational number. -/
theorem toExtended_eq {x : Binary64} (hpos : x.isPositive) :
    x.value.toExtended = .finite x.value.toRat := by
  have hrat := toRat_pos hpos
  cases hvalue : x.value with
  | nan negative =>
      rw [hvalue] at hrat
      exact absurd hrat (lt_irrefl 0)
  | infinite negative =>
      rw [hvalue] at hrat
      exact absurd hrat (lt_irrefl 0)
  | finite negative magnitude exponent =>
      have hsigned : ((if negative then -(magnitude : ℤ) else magnitude : ℤ) : ℚ) =
          if negative then -(magnitude : ℚ) else magnitude := by
        split_ifs <;> push_cast <;> rfl
      rw [BinaryValue.toExtended, BinaryValue.toRat, ← hsigned]
      generalize (if negative then -(magnitude : ℤ) else magnitude : ℤ) = signed
      congr 1
      split_ifs with hexponent
      · have hpow := zpow_of_nonneg 2 hexponent
        push_cast at hpow ⊢
        rw [hpow]
      · have hpow := zpow_of_neg 2 (not_le.mp hexponent)
        rw [Rat.mkRat_eq_div, div_eq_mul_one_div]
        push_cast at hpow ⊢
        rw [hpow]

namespace Config

variable {c : Config}

/-! ## Places of samples -/

/-- Zero is a level between the ends of the range. -/
theorem clip_bounds (c : Config) : c.clipLow < 0 ∧ 0 ≤ c.clipHigh := by
  have hpos := c.nbitLimit_pos
  unfold clipLow clipHigh
  omega

/-- The range lies within that of a signed word of 16 bits. -/
theorem clip_fits (c : Config) : -2 ^ 15 ≤ c.clipLow ∧ c.clipHigh < 2 ^ 15 := by
  have hle := c.nbitLimit_le
  unfold clipLow clipHigh
  omega

/-- Nothing of a level that has been brought into the range is lost in its word. -/
theorem toWord16_clamp (c : Config) (level : Extended ℤ) :
    (level.clamp c.clipLow c.clipHigh).toWord16 =
      match level with
      | .nan => 0
      | .infinite negative => if negative then c.clipLow else c.clipHigh
      | .finite n => min (max n c.clipLow) c.clipHigh := by
  obtain ⟨hlow, hhigh⟩ := c.clip_fits
  obtain ⟨hnegative, hpositive⟩ := c.clip_bounds
  cases level with
  | nan => rfl
  | infinite negative =>
      show min (max (if negative then c.clipLow else c.clipHigh) (-2 ^ 15)) (2 ^ 15 - 1) = _
      dsimp only
      split_ifs <;> omega
  | finite n =>
      show min (max (min (max n c.clipLow) c.clipHigh) (-2 ^ 15)) (2 ^ 15 - 1) = _
      dsimp only
      omega

/-- Every step that a sample is counted in has a place for it. -/
structure HasPlace (c : Config) (sample : ℤ) : Prop where
  inRange : c.InRange sample
  fits : -2 ^ 15 ≤ sample ∧ sample < 2 ^ 15
  bin_eq : c.binChecked sample = .ok (c.bin sample)
  bin_lt : c.bin sample < c.nbin
  /-- A bin of the rebinned histograms is found if the last one fits a signed word, -/
  rebin_eq : c.nrebin < 2 ^ 31 → c.rebinChecked sample = .ok (c.rebin sample)
  /-- and none is found that is not there. -/
  rebin_lt : ∀ bin, c.rebinChecked sample = .ok bin → bin < c.nrebin

theorem InRange.hasPlace {sample : ℤ} (h : c.InRange sample) : c.HasPlace sample where
  inRange := h
  fits := by
    obtain ⟨hlow, hhigh⟩ := c.clip_fits
    exact ⟨hlow.trans h.1, h.2.trans_lt hhigh⟩
  bin_eq := binChecked_eq h.1 h.2
  bin_lt := bin_lt h.1 h.2
  rebin_eq hrebin := rebinChecked_eq hrebin h.1 h.2
  rebin_lt bin hbin := by
    rcases Nat.lt_or_ge c.nrebin (2 ^ 31) with hrebin | hmany
    · rw [rebinChecked_eq hrebin h.1 h.2, Except.ok.injEq] at hbin
      exact hbin ▸ rebin_lt hrebin sample
    · exact absurd hbin (rebinChecked_ne_ok hmany sample bin)

section

variable {R : Type} [Numeric R]

/-- A quotient that is a number is rounded and brought into the range. -/
theorem quantise_of_finite {deviate : R} {x : ℚ}
    (h : Numeric.number (deviate / c.scale R) = .finite x) :
    c.quantise deviate = min (max (nearestInteger x) c.clipLow) c.clipHigh := by
  rw [quantise, h]
  exact c.toWord16_clamp (.finite (nearestInteger x))

theorem quantise_of_infinite {deviate : R} {negative : Bool}
    (h : Numeric.number (deviate / c.scale R) = .infinite negative) :
    c.quantise deviate = if negative then c.clipLow else c.clipHigh := by
  rw [quantise, h]
  exact c.toWord16_clamp (.infinite negative)

theorem quantise_of_nan {deviate : R} (h : Numeric.number (deviate / c.scale R) = .nan) :
    c.quantise deviate = 0 := by
  rw [quantise, h]
  exact c.toWord16_clamp .nan

/-- Whatever the arithmetic, the sample is the level that is nearest to the quotient computed in
it. -/
theorem isLevel_quantise {deviate : R} {x : ℚ}
    (h : Numeric.number (deviate / c.scale R) = .finite x) :
    IsLevel c.clipLow c.clipHigh x (c.quantise deviate) := by
  obtain ⟨hlow, hhigh⟩ := c.clip_bounds
  rw [quantise_of_finite h]
  exact (nearest_nearestInteger x).isLevel (hlow.trans_le hhigh)

theorem inRange_quantise (c : Config) (deviate : R) : c.InRange (c.quantise deviate) := by
  obtain ⟨hlow, hhigh⟩ := c.clip_bounds
  unfold InRange
  cases hquotient : Numeric.number (deviate / c.scale R) with
  | nan =>
      rw [quantise_of_nan hquotient]
      exact ⟨hlow.le, hhigh⟩
  | infinite negative =>
      rw [quantise_of_infinite hquotient]
      split_ifs <;> omega
  | finite x =>
      rw [quantise_of_finite hquotient]
      omega

/-- Whatever the arithmetic and the deviate, there is a place for the sample. -/
theorem hasPlace_quantise (c : Config) (deviate : R) : c.HasPlace (c.quantise deviate) :=
  (c.inRange_quantise deviate).hasPlace

/-- Samples that are quantised are samples that the configuration is meant for, if there are few
enough of them and of bins. -/
theorem takes_samplesOf
    (hsamples : c.nchan * c.settings.nheap.toNat * c.settings.nsamp.toNat < 2 ^ 32)
    (hrebin : c.nrebin < 2 ^ 31) (deviate : Nat → R) : c.Takes (c.samplesOf deviate) where
  samples_lt := hsamples
  nrebin_lt := hrebin
  shape_eq := rfl
  inRange sample hmem := by
    obtain ⟨position, rfl⟩ := Array.mem_ofFn.mp hmem
    exact c.inRange_quantise (deviate position)

end

/-! ## Exact quotients -/

open Extended (finite_div_finite infinite_div_finite nan_div_finite)

theorem sigma_isPositive (c : Config) : c.settings.sigma.isPositive :=
  c.accepted.isPositive ("sigma", c.settings.sigma) (by simp [Settings.quantities])

theorem scale_pos (c : Config) : 0 < c.scale ℚ :=
  div_pos (toRat_pos c.sigma_isPositive) (Nat.cast_pos.mpr c.nbitLimit_pos)

/-- The width of a level is a number above zero, with infinities or without. -/
theorem scale_extended (c : Config) : c.scale (Extended ℚ) = .finite (c.scale ℚ) := by
  have hsigma : (ofDouble c.settings.sigma : Extended ℚ) = .finite (ofDouble c.settings.sigma) :=
    toExtended_eq c.sigma_isPositive
  have hlimit : (c.nbitLimit : ℚ) ≠ 0 := Nat.cast_ne_zero.mpr c.nbitLimit_pos.ne'
  rw [scale, hsigma]
  exact finite_div_finite hlimit

/-- With 128 levels in three standard deviations. -/
theorem scale_threeChannels : threeChannels.scale ℚ = 3 / 128 := by
  have hsigma : threeChannels.settings.sigma.value = .finite false (3 * 2 ^ 51) (-51) := by
    decide +kernel
  have hlimit : threeChannels.nbitLimit = 128 := rfl
  rw [scale, hlimit]
  show threeChannels.settings.sigma.value.toRat / ((128 : ℕ) : ℚ) = 3 / 128
  rw [hsigma, BinaryValue.toRat, if_neg Bool.false_ne_true]
  norm_num

theorem number_finite_div (c : Config) (v : ℚ) :
    Numeric.number (R := Extended ℚ) (.finite v / c.scale _) = .finite (v / c.scale ℚ) := by
  rw [scale_extended, finite_div_finite c.scale_pos.ne']
  rfl

theorem number_infinite_div (c : Config) (negative : Bool) :
    Numeric.number (R := Extended ℚ) (.infinite negative / c.scale _) = .infinite negative := by
  rw [scale_extended, infinite_div_finite c.scale_pos]
  rfl

theorem number_nan_div (c : Config) :
    Numeric.number (R := Extended ℚ) (.nan / c.scale _) = .nan := by
  rw [scale_extended, nan_div_finite]
  rfl

/-- Larger deviates do not become smaller samples. -/
theorem quantise_mono (c : Config) {v w : Extended ℚ} (h : v ≤ w) :
    c.quantise v ≤ c.quantise w := by
  obtain rfl | rfl | ⟨x, y, rfl, rfl, hle⟩ := Extended.le_cases h
  · rw [quantise_of_infinite (c.number_infinite_div true), if_pos rfl]
    exact (c.inRange_quantise w).1
  · rw [quantise_of_infinite (c.number_infinite_div false), if_neg Bool.false_ne_true]
    exact (c.inRange_quantise v).2
  · have hround : nearestInteger (x / c.scale ℚ) ≤ nearestInteger (y / c.scale ℚ) :=
      nearestInteger_mono (div_le_div_of_nonneg_right hle c.scale_pos.le)
    rw [quantise_of_finite (c.number_finite_div x), quantise_of_finite (c.number_finite_div y)]
    omega

/-! ## Quantisation as a whole -/

/-- Every deviate becomes a sample that there is a place for, in the order of the deviates. A number
goes to the level of the range that is nearest to its quotient by the width of a level, an infinity
to the end on its side, and what is no number to zero. -/
structure QuantisesToNearest (c : Config) : Prop where
  /-- The sample that is kept at a place is the one for the deviate there. -/
  stored : ∀ {R : Type} [Numeric R] (deviate : Nat → R) index,
    (c.samplesOf deviate).get? index =
      (rowMajor? c.sampleShape index).map fun position => c.quantise (deviate position)
  place : ∀ {R : Type} [Numeric R] (v : R), c.HasPlace (c.quantise v)
  ordered : ∀ {v w : Extended ℚ}, v ≤ w → c.quantise v ≤ c.quantise w
  scale_pos : 0 < c.scale ℚ
  rounded : ∀ v : ℚ, ∃! n, Nearest (v / c.scale ℚ) n
  number : ∀ v : ℚ, IsLevel c.clipLow c.clipHigh (v / c.scale ℚ)
    (c.quantise (R := Extended ℚ) (.finite v))
  infinite : ∀ negative, c.quantise (R := Extended ℚ) (.infinite negative) =
    if negative then c.clipLow else c.clipHigh
  nan : c.quantise (R := Extended ℚ) .nan = 0
  /-- In any arithmetic the level is the one nearest to the quotient that is computed in it. -/
  computed : ∀ {R : Type} [Numeric R] (v : R) (x : ℚ),
    Numeric.number (v / c.scale R) = .finite x →
      IsLevel c.clipLow c.clipHigh x (c.quantise v)
  /-- No step of the reduction goes wrong for quantised samples, if there are few enough of them and
  of bins. -/
  reduced : c.nchan * c.settings.nheap.toNat * c.settings.nsamp.toNat < 2 ^ 32 →
    c.nrebin < 2 ^ 31 → ∀ {R : Type} [Numeric R] (deviate : Nat → R),
      ∃ arrays, c.reduceChecked Binary64 (c.samplesOf deviate) = .ok arrays

/-- Whatever the configuration, deviates are brought to the nearest levels of its range. -/
theorem quantises_to_nearest (c : Config) : c.QuantisesToNearest where
  stored _ _ := Tensor.get?_ofFn _ _ _
  place := c.hasPlace_quantise
  ordered := c.quantise_mono
  scale_pos := c.scale_pos
  rounded _ := existsUnique_nearest _
  number v := isLevel_quantise (c.number_finite_div v)
  infinite negative := quantise_of_infinite (c.number_infinite_div negative)
  nan := quantise_of_nan c.number_nan_div
  computed _ _ := isLevel_quantise
  reduced hsamples hrebin _ _ deviate :=
    ⟨_, (takes_samplesOf hsamples hrebin deviate).reduceChecked_eq⟩

/-- Levels are 3/128 wide. Ties go to the even level, the one below the range into it, and the one
above the range to its end. -/
theorem quantise_threeChannels :
    threeChannels.scale ℚ = 3 / 128 ∧
      threeChannels.quantise (R := Extended ℚ) (.finite (3 / 256)) = 0 ∧
      threeChannels.quantise (R := Extended ℚ) (.finite (9 / 256)) = 2 ∧
      threeChannels.quantise (R := Extended ℚ) (.finite (-771 / 256)) = -128 ∧
      threeChannels.quantise (R := Extended ℚ) (.finite (765 / 256)) = 127 ∧
      (.finite 4 : Extended ℚ) ≤ .infinite false ∧
      threeChannels.quantise (R := Extended ℚ) (.finite 4) ≤
        threeChannels.quantise (R := Extended ℚ) (.infinite false) ∧
      threeChannels.quantise (R := Extended ℚ) .nan = 0 ∧
      ∃ arrays, threeChannels.reduceChecked Binary64
        (threeChannels.samplesOf (R := Extended ℚ) fun _ => .finite 4) = .ok arrays := by
  have h := quantises_to_nearest threeChannels
  have hnumber := h.number
  rw [scale_threeChannels] at hnumber
  have hlow : threeChannels.clipLow = -128 := rfl
  have hhigh : threeChannels.clipHigh = 127 := rfl
  have hupward : (.finite 4 : Extended ℚ) ≤ .infinite false := rfl
  refine ⟨scale_threeChannels, ?_, ?_, ?_, ?_, hupward, h.ordered hupward, h.nan,
    h.reduced (by decide) (by decide) _⟩
  · have hrounded : Nearest (3 / 256 / (3 / 128)) 0 := ⟨by norm_num [abs_le], by norm_num⟩
    exact (hnumber (3 / 256)).inside 0 hrounded (by omega) (by omega)
  · have hrounded : Nearest (9 / 256 / (3 / 128)) 2 := ⟨by norm_num [abs_le], by norm_num⟩
    exact (hnumber (9 / 256)).inside 2 hrounded (by omega) (by omega)
  · have hrounded : Nearest (-771 / 256 / (3 / 128)) (-128) :=
      ⟨by norm_num [abs_le], by norm_num⟩
    exact (hnumber (-771 / 256)).inside (-128) hrounded (by omega) (by omega)
  · have hrounded : Nearest (765 / 256 / (3 / 128)) 128 := ⟨by norm_num [abs_le], by norm_num⟩
    obtain ⟨hend, -⟩ := (hnumber (765 / 256)).above 128 hrounded (by omega)
    rw [hend, hhigh]

end Config

end VoltageStats
