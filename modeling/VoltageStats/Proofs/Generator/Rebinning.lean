import VoltageStats.Proofs.Generator.Steps

/-!
# Rebinning

A raw value is rebinned by shifting it by half the number of bins and bringing it between the first
bin and the last. Larger values never go to smaller bins, and the next value goes to the same bin or
to the next one. The last bin is found in signed words; it is there, and every raw value is
rebinned, exactly if there are fewer than `2 ^ 31` bins (`Config.rebins_in_range_iff`).
-/

namespace VoltageStats.Config

variable {c : Config}

/-! ## Where values go -/

theorem rebin_mono (c : Config) : Monotone c.rebin := by
  intro v w hle
  unfold rebin
  omega

/-- The next value goes to the same bin or to the next one. -/
theorem rebin_succ_le (c : Config) (v : Int) : c.rebin (v + 1) ≤ c.rebin v + 1 := by
  unfold rebin
  omega

/-- Zero goes to the bin in the middle, or to the last one if there is no other. -/
theorem rebin_zero (hrebin : c.nrebin < 2 ^ 31) :
    c.rebin 0 = min (c.nrebin / 2) (c.nrebin - 1) := by
  have hpos := c.nrebin_pos
  rw [rebin, rebinOffset, rebinMax_eq hrebin]
  omega

/-! ## The last bin -/

/-- With `2 ^ 31` bins, one is taken from the least signed word. -/
theorem lastBinChecked_eq_overflow (hrebin : c.nrebin = 2 ^ 31) :
    c.lastBinChecked = .error .overflow := by
  rw [lastBinChecked, hrebin]
  rfl

/-- With more bins, their number is negative as a signed word. -/
theorem lastBinChecked_eq_of_lt (hrebin : 2 ^ 31 < c.nrebin) :
    c.lastBinChecked = .ok (c.nrebin - 1 - 2 ^ 32) := by
  have hlt : c.nrebin < 2 ^ 32 := c.settings.nrebin.toNat_lt
  have hcast : (c.nrebin : Int).bmod (2 ^ 32) = c.nrebin - 2 ^ 32 := by
    rw [← Int.sub_bmod_right, Int.bmod_eq_of_le] <;> omega
  have hlast : (c.nrebin : Int) - 2 ^ 32 - 1 = c.nrebin - 1 - 2 ^ 32 := by omega
  rw [lastBinChecked, hcast, hlast]
  exact Checked.signed_eq (by omega) (by omega)

/-- If the last bin does not fit a signed word, no value is rebinned. -/
theorem rebinChecked_ne_ok (hrebin : 2 ^ 31 ≤ c.nrebin) (v : Int) (bin : Nat) :
    c.rebinChecked v ≠ .ok bin := by
  intro h
  rw [rebinChecked_eq_bind] at h
  simp only [except_bind_eq_ok_iff] at h
  obtain ⟨shifted, -, last, hlast, place, hplace, -⟩ := h
  rcases Nat.eq_or_lt_of_le hrebin with heq | hlt
  · rw [lastBinChecked_eq_overflow heq.symm] at hlast
    cases hlast
  · -- The last bin lies below the first, so there is nothing between them.
    rw [lastBinChecked_eq_of_lt hlt, Except.ok.injEq] at hlast
    have hword : c.nrebin < 2 ^ 32 := c.settings.nrebin.toNat_lt
    have hnegative : last < 0 := by omega
    rw [Checked.clamp, if_pos hnegative] at hplace
    cases hplace

/-! ## Rebinning as a whole -/

/-- Every raw value has a bin. The last bin is found, and it is not below the first; values go to
bins that there are, larger ones never to smaller bins and the next one never past the next bin, and
zero goes to the middle. -/
structure RebinsInRange (c : Config) : Prop where
  last_eq : c.lastBinChecked = .ok (c.nrebin - 1)
  limits_le : ∀ last, c.lastBinChecked = .ok last → 0 ≤ last
  total : ∀ v, c.clipLow ≤ v → v ≤ c.clipHigh → c.rebinChecked v = .ok (c.rebin v)
  lt_nrebin : ∀ v, c.rebin v < c.nrebin
  monotone : Monotone c.rebin
  succ_le : ∀ v, c.rebin (v + 1) ≤ c.rebin v + 1
  zero : c.rebin 0 = min (c.nrebin / 2) (c.nrebin - 1)

theorem rebinsInRange (hrebin : c.nrebin < 2 ^ 31) : c.RebinsInRange where
  last_eq := lastBinChecked_eq hrebin
  limits_le last hlast := by
    have hpos := c.nrebin_pos
    rw [lastBinChecked_eq hrebin, Except.ok.injEq] at hlast
    omega
  total _ := rebinChecked_eq hrebin
  lt_nrebin := rebin_lt hrebin
  monotone := c.rebin_mono
  succ_le := c.rebin_succ_le
  zero := rebin_zero hrebin

/-- Every raw value is rebinned, in order and within the range of bins, exactly if there are fewer
than `2 ^ 31` bins. With that many the last bin overflows, with more it is negative, and no value
has a bin in either case. -/
theorem rebins_in_range_iff (c : Config) :
    (c.RebinsInRange ↔ c.nrebin < 2 ^ 31) ∧
    (c.nrebin = 2 ^ 31 → c.lastBinChecked = .error .overflow) ∧
    (2 ^ 31 < c.nrebin → c.lastBinChecked = .ok (c.nrebin - 1 - 2 ^ 32)) ∧
    (2 ^ 31 ≤ c.nrebin → ∀ v bin, c.rebinChecked v ≠ .ok bin) := by
  refine ⟨⟨fun h => ?_, rebinsInRange⟩, lastBinChecked_eq_overflow, lastBinChecked_eq_of_lt,
    rebinChecked_ne_ok⟩
  by_contra hmany
  -- The least raw value is a raw value, and so it has a bin.
  have hrange : c.clipLow ≤ c.clipHigh := by
    have hpos := c.nbitLimit_pos
    unfold clipLow clipHigh
    omega
  exact rebinChecked_ne_ok (Nat.le_of_not_lt hmany) _ _ (h.total _ (Int.le_refl _) hrange)

/-- A configuration of more bins than a signed word can tell. -/
def manyBins : Config where
  settings := { Settings.default with nrebin := 2147483649 }
  fault?_eq_none := by decide +kernel
  pairwise_rfiChannels := pairwise_default

/-- Its settings are accepted, its last bin is below zero, and zero has no bin. -/
theorem rebinChecked_manyBins :
    Config.ofSettings manyBins.settings = .ok manyBins ∧ manyBins.nrebin = 2147483649 ∧
      manyBins.lastBinChecked = .ok (-2147483648) ∧ manyBins.rebinMax = -2147483648 ∧
      manyBins.rebinChecked 0 = .error .limits ∧ ¬ manyBins.RebinsInRange := by
  have hlast : manyBins.lastBinChecked = .ok (-2147483648) := by decide +kernel
  have hfault : manyBins.rebinChecked 0 = .error .limits := by decide +kernel
  refine ⟨ofSettings_eq_ok_iff.mpr rfl, rfl, hlast, by decide +kernel, hfault, fun h => ?_⟩
  exact absurd (h.limits_le _ hlast) (by decide)

end VoltageStats.Config
