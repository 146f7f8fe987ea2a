import VoltageStats.Proofs.Generator.Consistent
import VoltageStats.Proofs.Generator.Power

/-!
# Labels of the axes

Labels are computed from a span and a number of bins, the blocks of the bins from a number of items
in each. The bins divide the items evenly, so in exact arithmetic the label of a bin is the average
of the labels of the items in its block (`expect_binCentres`). The arrays are made from the same
blocks, whatever samples they are reduced from (`Config.binned_of_reduce`), and so labels are the
centres of what was binned (`Config.labels_centred`).
-/

namespace VoltageStats

open Arithmetic
open Finset (range)
open scoped BigOperators

/-- The label at a position, zero if there is none. -/
def labelAt (labels : Array ℚ) (i : Nat) : ℚ := labels.getD i 0

/-! ## Centres of bins -/

section

variable {factor bins bin i : Nat}

theorem sum_range_add_half (n : Nat) : ∑ i ∈ range n, ((i : ℚ) + 1 / 2) = n ^ 2 / 2 := by
  induction n with
  | zero => simp
  | succ n ih =>
      rw [Finset.sum_range_succ, ih]
      push_cast
      ring

theorem card_block (factor bin : Nat) : (block factor bin).card = factor := by
  rw [block, Nat.card_Ico, Nat.succ_mul, Nat.add_sub_cancel_left]

theorem nonempty_block (hfactor : 0 < factor) : (block factor bin).Nonempty := by
  rw [← Finset.card_pos, card_block]
  exact hfactor

/-- The centre of a block of items of width one. -/
theorem expect_block_add_half (hfactor : 0 < factor) :
    𝔼 i ∈ block factor bin, ((i : ℚ) + 1 / 2) = factor * (bin + 1 / 2) := by
  have hne : (factor : ℚ) ≠ 0 := Nat.cast_ne_zero.mpr hfactor.ne'
  have hle : bin * factor ≤ (bin + 1) * factor := Nat.mul_le_mul_right factor (Nat.le_succ bin)
  rw [Finset.expect_eq_sum_div_card, card_block, block, Finset.sum_Ico_eq_sub _ hle,
    sum_range_add_half, sum_range_add_half]
  push_cast
  field_simp
  ring

variable {start width : ℚ} {count : Nat}

theorem labelAt_binCentres (hi : i < count) :
    labelAt (binCentres start width count) i = start + width / count * (i + 1 / 2) := by
  have hsize : i < (binCentres start width count).size := by rwa [size_binCentres]
  rw [labelAt, Array.getD_eq_getD_getElem?, Array.getElem?_eq_getElem hsize, Option.getD_some]
  simp [binCentres]

/-- The centre of a bin is the average of the centres of the items in its block. -/
theorem expect_binCentres (hfactor : 0 < factor) (hbin : bin < bins) :
    𝔼 i ∈ block factor bin, labelAt (binCentres start width (bins * factor)) i =
      labelAt (binCentres start width bins) bin := by
  have hne : (factor : ℚ) ≠ 0 := Nat.cast_ne_zero.mpr hfactor.ne'
  have hbins : (bins : ℚ) ≠ 0 := Nat.cast_ne_zero.mpr (Nat.ne_zero_of_lt hbin)
  calc 𝔼 i ∈ block factor bin, labelAt (binCentres start width (bins * factor)) i
      = 𝔼 i ∈ block factor bin, (start + width / (bins * factor : Nat) * ((i : ℚ) + 1 / 2)) :=
        Finset.expect_congr rfl fun i hmem =>
          labelAt_binCentres (Finset.mem_range.mp (block_subset hbin hmem))
    _ = start + width / (bins * factor : Nat) * (factor * (bin + 1 / 2)) := by
        rw [Finset.expect_add_distrib, Finset.expect_const (nonempty_block hfactor),
          ← Finset.mul_expect, expect_block_add_half hfactor]
    _ = start + width / bins * (bin + 1 / 2) := by
        push_cast
        field_simp
    _ = labelAt (binCentres start width bins) bin := (labelAt_binCentres hbin).symm

theorem mem_binCentres_iff {x : ℚ} : x ∈ binCentres start width count ↔
    ∃ i < count, x = start + width / count * (i + 1 / 2) := by
  rw [binCentres, Array.mem_ofFn]
  constructor
  · intro hmem
    obtain ⟨i, rfl⟩ := hmem
    exact ⟨i, i.isLt, by simp⟩
  · intro hmem
    obtain ⟨i, hi, rfl⟩ := hmem
    exact ⟨⟨i, hi⟩, by simp⟩

theorem binCentres_between (hwidth : 0 < width) {x : ℚ} (hmem : x ∈ binCentres start width count) :
    start < x ∧ x < start + width := by
  obtain ⟨i, hi, rfl⟩ := mem_binCentres_iff.mp hmem
  have hcount : (0 : ℚ) < count := Nat.cast_pos.mpr (Nat.zero_lt_of_lt hi)
  have hlast : (i : ℚ) + 1 ≤ count := by exact_mod_cast hi
  have hfirst : (0 : ℚ) ≤ i := Nat.cast_nonneg i
  constructor
  · have hpos : 0 < width / count * (i + 1 / 2) := by positivity
    linarith
  · have hlt : width / count * (i + 1 / 2) < width / count * count :=
      mul_lt_mul_of_pos_left (by linarith) (by positivity)
    rw [div_mul_cancel₀ _ hcount.ne'] at hlt
    linarith

theorem pairwise_binCentres (hwidth : 0 < width) :
    (binCentres start width count).toList.Pairwise (· < ·) := by
  rw [binCentres, Array.toList_ofFn, List.pairwise_ofFn]
  intro i j hij
  have hcount : (0 : ℚ) < count := Nat.cast_pos.mpr (Nat.zero_lt_of_lt j.isLt)
  have hindex : (i : ℚ) < j := by exact_mod_cast hij
  have hstep : 0 < width / count := div_pos hwidth hcount
  simp only [ofCount_rat]
  gcongr

end

/-! ## Numbers above zero -/

/-- A pattern that is finite and above zero stands for a number above zero. -/
theorem toRat_pos {x : Binary64} (hpos : x.isPositive) : 0 < x.value.toRat := by
  obtain ⟨hzero, htop⟩ : 0 < x.bits.toNat ∧ x.bits.toNat < 2047 * 2 ^ 52 := by
    simpa [Binary64.isPositive, UInt64.lt_iff_toNat_lt] using hpos
  have hsign : ¬ BinaryFormat.double.signBit ≤ x.bits.toNat := by
    show ¬ 2 ^ 63 ≤ x.bits.toNat
    omega
  have hfield : x.bits.toNat / 2 ^ BinaryFormat.double.fractionBits %
      2 ^ BinaryFormat.double.exponentBits ≠ BinaryFormat.double.topExponentField := by
    show x.bits.toNat / 2 ^ 52 % 2 ^ 11 ≠ 2047
    omega
  unfold Binary64.value BinaryFormat.decode
  dsimp only
  rw [if_neg hfield, decide_eq_false hsign]
  split
  next hsub =>
    -- Without an exponent field the fraction is the whole pattern.
    have hfraction : 0 < x.bits.toNat % 2 ^ BinaryFormat.double.fractionBits := by
      change x.bits.toNat / 2 ^ 52 % 2 ^ 11 = 0 at hsub
      show 0 < x.bits.toNat % 2 ^ 52
      omega
    exact mul_pos (Nat.cast_pos.mpr hfraction) (zpow_pos two_pos _)
  next =>
    exact mul_pos (Nat.cast_pos.mpr (Nat.add_pos_right _ (Nat.two_pow_pos _))) (zpow_pos two_pos _)

namespace Config

variable {c : Config} {raw : Tensor Int} {pol : Polarisation}

theorem bandwidth_pos (c : Config) : 0 < (ofDouble c.settings.bandwidthMhz : ℚ) :=
  toRat_pos (c.accepted.isPositive ("bandwidth_mhz", c.settings.bandwidthMhz)
    (by simp [Settings.quantities]))

theorem sampleTime_pos (c : Config) : 0 < c.sampleTime ℚ := by
  have htsamp : 0 < c.settings.tsamp.value.toRat :=
    toRat_pos (c.accepted.isPositive ("tsamp", c.settings.tsamp) (by simp [Settings.quantities]))
  have hmicro : 0 < (Binary64.ofDecimal false 1 (-6)).value.toRat := toRat_pos (by decide +kernel)
  exact mul_pos htsamp hmicro

theorem totalTime_pos (c : Config) : 0 < c.totalTime ℚ :=
  mul_pos c.sampleTime_pos (Nat.cast_pos.mpr c.samplesPerChannel_pos)

/-! ## What is binned -/

section

variable {R : Type} [Arithmetic R] {channels samples : Nat}
  (hshape : raw.shape = [polarisationCount, componentCount, channels, samples])
  (hchannels : c.nchan ≤ channels) (hsamples : c.samplesPerChannel ≤ samples)

include hshape hchannels hsamples

/-- The time series is made from the configured samples of the configured channels. -/
theorem timeseries_arraysOf :
    (c.arraysOf (R := R) raw channels samples).timeseries =
      (c.bandArrays fun pol => (List.range c.nchan).map (c.channelOf raw pol)).series :=
  congrArg BandArrays.series (whole_arraysOf_eq hshape hchannels hsamples)

/-- The time series without interference is made from those of the channels that are not
flagged. -/
theorem timeseriesRfiExcised_arraysOf :
    (c.arraysOf (R := R) raw channels samples).timeseriesRfiExcised =
      (c.bandArrays fun pol => c.nonRfiChannels.map (c.channelOf raw pol)).series :=
  congrArg BandArrays.series (excised_arraysOf_eq hshape hchannels hsamples)

end

/-- What the arrays of one polarisation are made of: each cell of the spectrogram of the samples in
its block of channels and its block of samples, each temporal bin of a time series of the samples in
its block. -/
structure Binned (c : Config) (raw : Tensor Int) (pol : Polarisation)
    (d : StatArrays ℚ Nat) : Prop where
  cell : ∀ f < c.nfreqBins.toNat, ∀ t < c.ntimeBins.toNat,
    d.spectrogram.valueAt [pol.index, f, t] =
      ∑ i ∈ block c.freqBinFactor f, ∑ s ∈ block c.temporalBinFactor t, c.powerAt ℚ raw pol i s
  series : ∀ t < c.ntimeBins.toNat, c.SeriesBin raw pol (List.range c.nchan) t d.timeseries
  excisedSeries : c.nonRfiChannels ≠ [] → ∀ t < c.ntimeBins.toNat,
    c.SeriesBin raw pol c.nonRfiChannels t d.timeseriesRfiExcised

theorem block_subset_range {f : Nat} (hf : f < c.nfreqBins.toNat) :
    block c.freqBinFactor f ⊆ range c.nchan := by
  rw [← c.nfreqBins_mul_factor]
  exact block_subset hf

/-- Whatever samples are reduced, the arrays are made from the blocks. -/
theorem binned_of_reduce (hfits : c.wholeTimeBins < 2 ^ 32) {d : StatArrays ℚ Nat}
    (hd : c.reduce ℚ raw = some d) (pol : Polarisation) : c.Binned raw pol d := by
  obtain ⟨channels, samples, ⟨hshape, hchannels, hsamples, -, -⟩, rfl⟩ := exists_of_reduce hd
  have hall : List.range c.nchan ≠ [] := by simpa using c.nchan_pos.ne'
  refine ⟨fun f hf t ht => ?_, fun t ht => ?_, fun hkept t ht => ?_⟩
  · exact valueAt_spectrogram hshape hchannels hsamples pol hf ht
  · rw [timeseries_arraysOf hshape hchannels hsamples]
    exact seriesBin hfits ht hall raw pol
  · rw [timeseriesRfiExcised_arraysOf hshape hchannels hsamples]
    exact seriesBin hfits ht hkept raw pol

/-! ## The labels -/

theorem freqBinFactor_pos (c : Config) : 0 < c.freqBinFactor := by
  refine Nat.pos_of_ne_zero fun hzero => c.nchan_pos.ne ?_
  rw [← c.nfreqBins_mul_factor, hzero, Nat.mul_zero]

theorem labelAt_frequencyLabels {f : Nat} (hf : f < c.nfreqBins.toNat) :
    labelAt (c.frequencyLabels ℚ) f =
      𝔼 i ∈ block c.freqBinFactor f, labelAt (c.channelLabels ℚ) i := by
  rw [channelLabels, ← c.nfreqBins_mul_factor, expect_binCentres c.freqBinFactor_pos hf,
    frequencyLabels]

/-- The time of a sample is in its middle. -/
theorem labelAt_timeLabels (hfits : c.wholeTimeBins < 2 ^ 32) {t : Nat}
    (ht : t < c.ntimeBins.toNat) :
    labelAt (c.timeLabels ℚ) t =
      c.sampleTime ℚ * 𝔼 s ∈ block c.temporalBinFactor t, ((s : ℚ) + 1 / 2) := by
  have hbins : (c.ntimeBins.toNat : ℚ) ≠ 0 := Nat.cast_ne_zero.mpr (Nat.ne_zero_of_lt ht)
  rw [timeLabels, labelAt_binCentres ht, expect_block_add_half (temporalBinFactor_pos hfits),
    totalTime, ofCount_rat, ofCount_rat, ← ntimeBins_mul_factor hfits]
  push_cast
  field_simp
  ring

/-- In exact arithmetic the labels of the axes are the centres of what was binned, they are in
strictly ascending order, and they lie strictly within the band and the time of the samples. A
frequency that is no number counts as zero. -/
theorem labels_centred (c : Config)
    (hsamples : c.settings.nheap.toNat * c.settings.nsamp.toNat < 2 ^ 32) :
    ((c.channelLabels ℚ).size = c.nchan ∧ (c.frequencyLabels ℚ).size = c.nfreqBins.toNat ∧
      (c.timeLabels ℚ).size = c.ntimeBins.toNat) ∧
    (∀ raw d, c.reduce ℚ raw = some d → ∀ pol, c.Binned raw pol d) ∧
    (∀ f < c.nfreqBins.toNat,
      (block c.freqBinFactor f).Nonempty ∧ block c.freqBinFactor f ⊆ range c.nchan ∧
      labelAt (c.frequencyLabels ℚ) f =
        𝔼 i ∈ block c.freqBinFactor f, labelAt (c.channelLabels ℚ) i) ∧
    (∀ t < c.ntimeBins.toNat,
      (block c.temporalBinFactor t).Nonempty ∧
      block c.temporalBinFactor t ⊆
        range (c.settings.nheap.toNat * c.settings.nsamp.toNat) ∧
      labelAt (c.timeLabels ℚ) t =
        c.sampleTime ℚ * 𝔼 s ∈ block c.temporalBinFactor t, ((s : ℚ) + 1 / 2)) ∧
    ((c.channelLabels ℚ).toList.Pairwise (· < ·) ∧
      (c.frequencyLabels ℚ).toList.Pairwise (· < ·) ∧
      (c.timeLabels ℚ).toList.Pairwise (· < ·)) ∧
    (∀ x, x ∈ c.channelLabels ℚ ∨ x ∈ c.frequencyLabels ℚ →
      (ofDouble c.settings.frequencyMhz : ℚ) - ofDouble c.settings.bandwidthMhz / 2 < x ∧
      x < ofDouble c.settings.frequencyMhz + ofDouble c.settings.bandwidthMhz / 2) ∧
    ∀ x ∈ c.timeLabels ℚ, 0 < x ∧ x < c.totalTime ℚ := by
  have hfits : c.wholeTimeBins < 2 ^ 32 := wholeTimeBins_lt hsamples
  have hbins : c.ntimeBins.toNat * c.temporalBinFactor =
      c.settings.nheap.toNat * c.settings.nsamp.toNat :=
    ntimeBins_mul_factor hfits
  refine ⟨⟨size_binCentres _ _ _, size_binCentres _ _ _, size_binCentres _ _ _⟩,
    fun raw d hd pol => binned_of_reduce hfits hd pol,
    fun f hf => ⟨nonempty_block c.freqBinFactor_pos, block_subset_range hf,
      labelAt_frequencyLabels hf⟩,
    fun t ht => ⟨nonempty_block (temporalBinFactor_pos hfits), hbins ▸ block_subset ht,
      labelAt_timeLabels hfits ht⟩,
    ⟨pairwise_binCentres c.bandwidth_pos, pairwise_binCentres c.bandwidth_pos,
      pairwise_binCentres c.totalTime_pos⟩, ?_, ?_⟩
  · intro x hmem
    have hband : c.lowFrequency ℚ < x ∧
        x < c.lowFrequency ℚ + ofDouble c.settings.bandwidthMhz := by
      cases hmem with
      | inl hchannel => exact binCentres_between c.bandwidth_pos hchannel
      | inr hfrequency => exact binCentres_between c.bandwidth_pos hfrequency
    have htwo : (ofCount 2 : ℚ) = 2 := rfl
    rw [lowFrequency, htwo] at hband
    exact ⟨hband.1, by linarith [hband.2]⟩
  · intro x hmem
    have htime := binCentres_between c.totalTime_pos hmem
    rwa [ofCount_rat, Nat.cast_zero, zero_add] at htime

/-- The channels of the small configuration are in one frequency bin, whose label is the average of
theirs, and each of its two samples has the label of its middle. -/
theorem labels_threeChannels :
    threeChannels.settings.nheap.toNat * threeChannels.settings.nsamp.toNat < 2 ^ 32 ∧
      (threeChannels.frequencyLabels ℚ).size = 1 ∧
      labelAt (threeChannels.frequencyLabels ℚ) 0 =
        𝔼 i ∈ block 3 0, labelAt (threeChannels.channelLabels ℚ) i ∧
      labelAt (threeChannels.timeLabels ℚ) 1 =
        threeChannels.sampleTime ℚ * 𝔼 s ∈ block 1 1, ((s : ℚ) + 1 / 2) ∧
      ∃ d, threeChannels.reduce ℚ threeChannelSamples = some d ∧
        threeChannels.Binned threeChannelSamples .a d := by
  have hsamples :
      threeChannels.settings.nheap.toNat * threeChannels.settings.nsamp.toNat < 2 ^ 32 := by
    decide
  have hf : threeChannels.nfreqBins.toNat = 1 := by decide
  have ht : threeChannels.ntimeBins.toNat = 2 := by decide
  have hfrequency : threeChannels.freqBinFactor = 3 := by decide
  have htemporal : threeChannels.temporalBinFactor = 1 := by decide
  obtain ⟨⟨-, hsize, -⟩, hbinned, hchannels, htimes, -⟩ := labels_centred threeChannels hsamples
  rw [hf] at hsize hchannels
  rw [ht] at htimes
  rw [hfrequency] at hchannels
  rw [htemporal] at htimes
  exact ⟨hsamples, hsize, (hchannels 0 (by decide)).2.2, (htimes 1 (by decide)).2.2, _,
    takes_threeChannels.reduce_eq, hbinned _ _ takes_threeChannels.reduce_eq .a⟩

end Config

end VoltageStats
