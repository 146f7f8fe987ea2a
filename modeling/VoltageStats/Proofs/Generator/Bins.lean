import VoltageStats.Proofs.Generator.Config

/-!
# Bins of channels and of samples

Channels are divided evenly among the frequency bins. Samples are divided evenly among the temporal
bins if the number of these fits the word it is kept in (`Config.bins_divide`). The items of a bin
lie one after the other (`block`), and the blocks of all bins tile the items: each item is in
exactly one block (`existsUnique_block`), so that a sum over all items can be taken block by block
(`sum_block`).
-/

namespace VoltageStats

open Finset (range)

/-! ## Blocks -/

/-- The items of a bin, where each bin has the same number of them. -/
def block (factor bin : Nat) : Finset Nat := Finset.Ico (bin * factor) ((bin + 1) * factor)

variable {factor bins bin i : Nat}

/-- The items of a bin are among all items, also where some of these are left over. -/
theorem bin_mul_le {items : Nat} (hbin : bin < bins) : (bin + 1) * (items / bins) ≤ items :=
  Nat.le_trans (Nat.mul_le_mul_right _ hbin) (Nat.mul_div_le items bins)

theorem mem_block_iff (hfactor : 0 < factor) : i ∈ block factor bin ↔ i / factor = bin := by
  rw [block, Finset.mem_Ico, Nat.div_eq_iff hfactor, Nat.succ_mul]
  omega

theorem block_subset (hbin : bin < bins) : block factor bin ⊆ range (bins * factor) := by
  intro i hmem
  have hlt : i < (bin + 1) * factor := (Finset.mem_Ico.mp hmem).2
  exact Finset.mem_range.mpr (Nat.lt_of_lt_of_le hlt (Nat.mul_le_mul_right factor hbin))

/-- Each item is in exactly one block. -/
theorem existsUnique_block (hi : i < bins * factor) :
    ∃! bin, bin < bins ∧ i ∈ block factor bin := by
  have hfactor : 0 < factor := Nat.pos_of_mul_pos_left (Nat.zero_lt_of_lt hi)
  refine ⟨i / factor, ⟨(Nat.div_lt_iff_lt_mul hfactor).mpr hi, (mem_block_iff hfactor).mpr rfl⟩, ?_⟩
  intro bin hbin
  exact ((mem_block_iff hfactor).mp hbin.2).symm

theorem lt_iff_exists_block : i < bins * factor ↔ ∃ bin < bins, i ∈ block factor bin := by
  constructor
  · intro hi
    exact (existsUnique_block hi).exists
  · intro h
    obtain ⟨bin, hbin, hmem⟩ := h
    exact Finset.mem_range.mp (block_subset hbin hmem)

/-- A sum over all items, block by block. -/
theorem sum_block {M : Type} [AddCommMonoid M] (g : Nat → M) (factor bins : Nat) :
    ∑ bin ∈ range bins, ∑ i ∈ block factor bin, g i = ∑ i ∈ range (bins * factor), g i := by
  induction bins with
  | zero => simp
  | succ bins ih =>
      rw [Finset.sum_range_succ, ih, block, Finset.range_eq_Ico, Finset.range_eq_Ico]
      exact Finset.sum_Ico_consecutive g (Nat.zero_le _)
        (Nat.mul_le_mul_right factor (Nat.le_succ bins))

namespace Config

variable {c : Config}

/-! ## Frequency bins -/

theorem nfreqBins_dvd (c : Config) : c.nfreqBins.toNat ∣ c.nchan := by
  rw [nfreqBins, toNat_binCount c.nchan_pos c.settings.nchan.toNat_lt]
  exact binCount_dvd _ _

/-- No channel is left over. -/
theorem nfreqBins_mul_factor (c : Config) : c.nfreqBins.toNat * c.freqBinFactor = c.nchan :=
  Nat.mul_div_cancel' c.nfreqBins_dvd

/-! ## Temporal bins -/

/-- The number of temporal bins before it is cut to a word. -/
def wholeTimeBins (c : Config) : Nat := binCount c.samplesPerChannel c.settings.ntimeBins.toNat

theorem toNat_ntimeBins (c : Config) : c.ntimeBins.toNat = c.wholeTimeBins % 2 ^ 32 :=
  UInt32.toNat_ofNat'

/-- Of the divisors of the number of samples it is the least one that is not below the number of
bins asked for, or below the number of samples where more are asked for. -/
theorem wholeTimeBins_isLeast (c : Config) :
    IsLeast {d | d ∣ c.samplesPerChannel ∧
      min c.settings.ntimeBins.toNat c.samplesPerChannel ≤ d} c.wholeTimeBins :=
  binCount_isLeast c.samplesPerChannel_pos
    (c.count_pos "ntime_bins" _ (by simp [Settings.counts]))

theorem wholeTimeBins_lt (hsamples : c.samplesPerChannel < 2 ^ 32) : c.wholeTimeBins < 2 ^ 32 :=
  Nat.lt_of_le_of_lt (binCount_le c.samplesPerChannel_pos) hsamples

section

variable (hfits : c.wholeTimeBins < 2 ^ 32)

include hfits

theorem toNat_ntimeBins_of_lt : c.ntimeBins.toNat = c.wholeTimeBins := by
  rw [toNat_ntimeBins, Nat.mod_eq_of_lt hfits]

theorem ntimeBins_dvd : c.ntimeBins.toNat ∣ c.samplesPerChannel := by
  rw [toNat_ntimeBins_of_lt hfits]
  exact binCount_dvd _ _

theorem one_le_ntimeBins : 1 ≤ c.ntimeBins.toNat := by
  rw [toNat_ntimeBins_of_lt hfits]
  exact binCount_pos c.samplesPerChannel_pos

/-- No sample is left over. -/
theorem ntimeBins_mul_factor : c.ntimeBins.toNat * c.temporalBinFactor = c.samplesPerChannel :=
  Nat.mul_div_cancel' (ntimeBins_dvd hfits)

theorem temporalBinFactor_pos : 0 < c.temporalBinFactor :=
  Nat.div_pos (Nat.le_of_dvd c.samplesPerChannel_pos (ntimeBins_dvd hfits)) (one_le_ntimeBins hfits)

/-- There is a number of samples in each temporal bin. -/
theorem temporalBinFactor?_eq : c.temporalBinFactor? = some c.temporalBinFactor := by
  have hne : c.ntimeBins ≠ 0 := by
    intro hzero
    have hpos := one_le_ntimeBins hfits
    rw [hzero] at hpos
    exact absurd hpos (by decide)
  rw [temporalBinFactor?, if_neg hne, temporalBinFactor]

end

/-- Channels are divided evenly among the frequency bins. The number of temporal bins is a divisor
of the number of samples, cut to a word; if it fits the word, samples are divided evenly among the
temporal bins. -/
theorem bins_divide (c : Config) :
    (1 ≤ c.nfreqBins.toNat ∧ c.nfreqBins.toNat ∣ c.nchan ∧
      c.freqBinFactor * c.nfreqBins.toNat = c.nchan) ∧
    ∃ whole : Nat,
      IsLeast {d | d ∣ c.settings.nheap.toNat * c.settings.nsamp.toNat ∧
        min c.settings.ntimeBins.toNat (c.settings.nheap.toNat * c.settings.nsamp.toNat) ≤ d}
        whole ∧
      c.ntimeBins.toNat = whole % 2 ^ 32 ∧
      (whole < 2 ^ 32 →
        1 ≤ c.ntimeBins.toNat ∧
        c.ntimeBins.toNat ∣ c.settings.nheap.toNat * c.settings.nsamp.toNat ∧
        ∃ factor, c.temporalBinFactor? = some factor ∧
          factor * c.ntimeBins.toNat = c.settings.nheap.toNat * c.settings.nsamp.toNat) := by
  refine ⟨⟨c.nfreqBins_pos, c.nfreqBins_dvd, ?_⟩, c.wholeTimeBins, c.wholeTimeBins_isLeast,
    c.toNat_ntimeBins, fun hfits => ⟨one_le_ntimeBins hfits, ntimeBins_dvd hfits,
      c.temporalBinFactor, temporalBinFactor?_eq hfits, ?_⟩⟩
  · rw [Nat.mul_comm, nfreqBins_mul_factor]
  · rw [Nat.mul_comm]
    exact ntimeBins_mul_factor hfits

/-- A configuration of `2 ^ 32` samples, of which each would be in a temporal bin of its own. -/
def manyHeaps : Config where
  settings :=
    { Settings.default with
      nchan := 1, nheap := 65536, nsamp := 65536, nfreqBins := 1, ntimeBins := 4294967295 }
  fault?_eq_none := by decide +kernel
  pairwise_rfiChannels := pairwise_default

/-- The number of its temporal bins is cut to zero, which divides nothing and by which nothing can
be divided. -/
theorem ntimeBins_manyHeaps :
    Config.ofSettings manyHeaps.settings = .ok manyHeaps ∧ manyHeaps.ntimeBins.toNat = 0 ∧
      ¬ manyHeaps.ntimeBins.toNat ∣
        manyHeaps.settings.nheap.toNat * manyHeaps.settings.nsamp.toNat ∧
      manyHeaps.temporalBinFactor? = none := by
  refine ⟨Config.ofSettings_eq_ok_iff.mpr rfl, ?_, ?_, ?_⟩ <;> decide +kernel

end Config

end VoltageStats
