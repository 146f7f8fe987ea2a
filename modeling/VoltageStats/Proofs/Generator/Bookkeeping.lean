import VoltageStats.Generator.Generated
import VoltageStats.Proofs.Generator.Bins
import VoltageStats.Proofs.Generator.Band

/-!
# The counts of samples in a header

The header of generated statistics counts the samples of all channels, of the channels that are not
flagged, and of each channel. Each count is cut to a word, and the checks of settings put no bound
on it: the counts are exact exactly if the number of all samples fits a word
(`sample_counts_exact_iff`).
-/

namespace VoltageStats

/-- The channels that settings do not flag. -/
def Settings.unflagged (s : Settings) : List Nat :=
  (List.range s.nchan.toNat).filter (· ∉ s.rfiChannels)

/-- The counts of samples in a header are those that settings ask for, so that the counts of the
channels add up to that of all of them. -/
structure Metadata.CountsSamples (m : Metadata) (s : Settings) : Prop where
  numSamples_eq : m.numSamples.toNat = s.nchan.toNat * (s.nheap.toNat * s.nsamp.toNat)
  numSamplesRfiExcised_eq : m.numSamplesRfiExcised.toNat =
    s.unflagged.length * (s.nheap.toNat * s.nsamp.toNat)
  numSamplesSpectrum_eq : m.numSamplesSpectrum.toList.map UInt32.toNat =
    List.replicate s.nchan.toNat (s.nheap.toNat * s.nsamp.toNat)
  sum_numSamplesSpectrum : (m.numSamplesSpectrum.toList.map UInt32.toNat).sum = m.numSamples.toNat

namespace Config

variable {s : Settings} {c : Config}

/-- The product of two counts in words is that of the counts, cut to a word. -/
theorem toNat_ofNat_mul (a n : Nat) :
    (UInt32.ofNat a * UInt32.ofNat n).toNat = a * n % 2 ^ 32 := by
  rw [UInt32.toNat_mul, UInt32.toNat_ofNat', UInt32.toNat_ofNat', ← Nat.mul_mod]

/-- Every count of samples is cut to a word. -/
theorem toNat_headerFor (c : Config) (ids : ScanIdentifiers) (g : Generated) :
    (c.headerFor ids g).numSamples.toNat = c.nchan * c.samplesPerChannel % 2 ^ 32 ∧
      (c.headerFor ids g).numSamplesRfiExcised.toNat =
        c.nonRfiChannels.length * c.samplesPerChannel % 2 ^ 32 ∧
      (c.headerFor ids g).numSamplesSpectrum.toList.map UInt32.toNat =
        List.replicate c.nchan (c.samplesPerChannel % 2 ^ 32) := by
  refine ⟨?_, toNat_ofNat_mul _ _, ?_⟩
  · rw [← toNat_ofNat_mul, nchan, UInt32.ofNat_toNat]
    rfl
  · show (Array.replicate c.nchan (UInt32.ofNat c.samplesPerChannel)).toList.map UInt32.toNat = _
    rw [Array.toList_replicate, List.map_replicate, UInt32.toNat_ofNat']

/-- The channels that are left are those that the settings do not flag, in whatever order and how
often these name the others. -/
theorem nonRfiChannels_of_ofSettings (h : ofSettings s = .ok c) :
    c.nonRfiChannels = s.unflagged := by
  rw [nonRfiChannels, nchan, ofSettings_eq_ok_iff.mp h, Settings.unflagged]
  refine List.filter_congr fun channel _ => ?_
  simp [mem_ascending]

/-- The counts of samples in the header of generated statistics are exact exactly if the number of
all samples fits a word. In any case they are those that the settings ask for, cut to words. -/
theorem sample_counts_exact_iff (h : ofSettings s = .ok c) (ids : ScanIdentifiers)
    (g : Generated) :
    ((c.headerFor ids g).CountsSamples s ↔
      s.nchan.toNat * (s.nheap.toNat * s.nsamp.toNat) < 2 ^ 32) ∧
    (c.headerFor ids g).numSamples.toNat =
      s.nchan.toNat * (s.nheap.toNat * s.nsamp.toNat) % 2 ^ 32 ∧
    (c.headerFor ids g).numSamplesRfiExcised.toNat =
      s.unflagged.length * (s.nheap.toNat * s.nsamp.toNat) % 2 ^ 32 ∧
    (c.headerFor ids g).numSamplesSpectrum.toList.map UInt32.toNat =
      List.replicate s.nchan.toNat (s.nheap.toNat * s.nsamp.toNat % 2 ^ 32) := by
  obtain ⟨hall, hkept, hspectrum⟩ := c.toNat_headerFor ids g
  have hle : s.unflagged.length ≤ s.nchan.toNat := by
    rw [Settings.unflagged]
    exact (List.length_filter_le _ _).trans (Nat.le_of_eq List.length_range)
  have hpos := c.nchan_pos
  rw [nonRfiChannels_of_ofSettings h] at hkept
  simp only [nchan, samplesPerChannel, ofSettings_eq_ok_iff.mp h] at hall hkept hspectrum hpos
  refine ⟨⟨fun hexact => ?_, fun hfits => ?_⟩, hall, hkept, hspectrum⟩
  · rw [← hexact.numSamples_eq]
    exact UInt32.toNat_lt _
  · -- What is counted of some channels, or of one, is no more than what is counted of all.
    have hlane : s.nheap.toNat * s.nsamp.toNat < 2 ^ 32 :=
      Nat.lt_of_le_of_lt (Nat.le_mul_of_pos_left _ hpos) hfits
    have hsome : s.unflagged.length * (s.nheap.toNat * s.nsamp.toNat) < 2 ^ 32 :=
      Nat.lt_of_le_of_lt (Nat.mul_le_mul_right _ hle) hfits
    rw [Nat.mod_eq_of_lt hfits] at hall
    rw [Nat.mod_eq_of_lt hsome] at hkept
    rw [Nat.mod_eq_of_lt hlane] at hspectrum
    refine ⟨hall, hkept, hspectrum, ?_⟩
    rw [hspectrum, hall, List.sum_replicate_nat]

/-- The samples of three channels are counted, of which one is flagged. -/
theorem sample_counts_threeChannels :
    ofSettings threeChannels.settings = .ok threeChannels ∧
      ∀ ids g, (threeChannels.headerFor ids g).CountsSamples threeChannels.settings ∧
        (threeChannels.headerFor ids g).numSamplesRfiExcised.toNat = 4 := by
  have hsettings : ofSettings threeChannels.settings = .ok threeChannels :=
    ofSettings_eq_ok_iff.mpr rfl
  refine ⟨hsettings, fun ids g => ?_⟩
  obtain ⟨hexact, -, hkept, -⟩ := sample_counts_exact_iff hsettings ids g
  refine ⟨hexact.mpr (by decide), ?_⟩
  rw [hkept]
  decide

/-- A configuration of two channels of `2 ^ 31` samples. -/
def longChannels : Config where
  settings :=
    { Settings.default with nchan := 2, nheap := 65536, nsamp := 32768, nfreqBins := 1 }
  fault?_eq_none := by decide +kernel
  pairwise_rfiChannels := pairwise_default

/-- Its header counts no samples at all, although it counts `2 ^ 31` of them in each channel. -/
theorem sample_counts_longChannels :
    ofSettings longChannels.settings = .ok longChannels ∧
      ∀ ids g, (longChannels.headerFor ids g).numSamples.toNat = 0 ∧
        ((longChannels.headerFor ids g).numSamplesSpectrum.toList.map UInt32.toNat).sum = 2 ^ 32 ∧
        ¬ (longChannels.headerFor ids g).CountsSamples longChannels.settings := by
  refine ⟨ofSettings_eq_ok_iff.mpr rfl, fun ids g => ?_⟩
  obtain ⟨hall, -, hspectrum⟩ := longChannels.toNat_headerFor ids g
  have hnone : (longChannels.headerFor ids g).numSamples.toNat = 0 := by
    rw [hall]
    decide
  have hsum :
      ((longChannels.headerFor ids g).numSamplesSpectrum.toList.map UInt32.toNat).sum = 2 ^ 32 := by
    rw [hspectrum]
    decide
  refine ⟨hnone, hsum, fun hexact => ?_⟩
  have hequal := hexact.sum_numSamplesSpectrum
  rw [hnone, hsum] at hequal
  exact absurd hequal (by decide)

end Config

end VoltageStats
