import VoltageStats.Proofs.Generator.Band
import VoltageStats.Proofs.Generator.Bins
import VoltageStats.Proofs.Generator.Exact

/-!
# Power is conserved

The samples of all channels make up a grid. The spectrogram takes the power of a block of the grid
for each of its cells, a time series takes all channels in each temporal bin together, and the
spectral power takes the channels one by one. The blocks tile the grid, so in exact arithmetic the
three agree about the power that there is (`Config.power_conserved`).
-/

namespace VoltageStats

open Arithmetic
open Finset (range)

/-- The number at an index tuple, zero if there is none. -/
def Tensor.valueAt (t : Tensor ℚ) (index : List Nat) : ℚ := (t.get? index).getD 0

theorem valueAt_of_some {t : Tensor ℚ} {index : List Nat} {value : ℚ}
    (hget : t.get? index = some value) : t.valueAt index = value := by
  rw [Tensor.valueAt, hget, Option.getD_some]

/-! ## Blocks that are lists -/

section

variable {factor bin i : Nat}

theorem mem_range'_iff : i ∈ List.range' (bin * factor) factor ↔ i ∈ block factor bin := by
  rw [List.mem_range'_1, block, Finset.mem_Ico, Nat.succ_mul]

theorem sum_map_range' (g : Nat → ℚ) (factor bin : Nat) :
    ((List.range' (bin * factor) factor).map g).sum = ∑ i ∈ block factor bin, g i := by
  rw [block, Finset.sum_Ico_eq_sum_range, Nat.succ_mul, Nat.add_sub_cancel_left,
    List.range'_eq_map_range, List.map_map]
  rfl

end

/-- A temporal bin of a channel is within the samples that are taken of it. -/
theorem Channel.timeBlock_take {R : Type} {factor bin count : Nat}
    (hlast : (bin + 1) * factor ≤ count) (channel : Channel R) :
    (channel.take count).timeBlock factor bin = channel.timeBlock factor bin := by
  rw [Nat.succ_mul] at hlast
  have hroom : factor ≤ count - bin * factor := by omega
  rw [timeBlock, take, List.drop_take, List.take_take, Nat.min_eq_left hroom, timeBlock]

namespace Config

variable {c : Config} {raw : Tensor Int} {pol : Polarisation}

/-! ## Powers of samples -/

section

variable {R : Type} [Arithmetic R]

/-- The power of a sample. -/
def powerAt (R : Type) [Arithmetic R] (c : Config) (raw : Tensor Int) (pol : Polarisation)
    (channel sample : Nat) : R :=
  let voltage (component : Component) : R :=
    ofSample (raw.sampleAt pol component channel sample) * c.scale R
  voltage .real * voltage .real + voltage .imag * voltage .imag

theorem powers_channelOf (c : Config) (raw : Tensor Int) (pol : Polarisation) (channel : Nat) :
    (c.channelOf (R := R) raw pol channel).powers =
      (List.range c.samplesPerChannel).map (c.powerAt R raw pol channel) := by
  simp only [channelOf, Channel.ofSamples, Lanes.map, List.map_map, List.zipWith_map,
    List.zipWith_self]
  rfl

/-- The powers of a temporal bin are those of the samples in its block. -/
theorem timeBlock_channelOf {bin : Nat} (hbin : bin < c.ntimeBins.toNat) (pol : Polarisation)
    (channel : Nat) :
    (c.channelOf (R := R) raw pol channel).timeBlock c.temporalBinFactor bin =
      (List.range' (bin * c.temporalBinFactor) c.temporalBinFactor).map
        (c.powerAt R raw pol channel) := by
  have hlast : (bin + 1) * c.temporalBinFactor ≤ c.samplesPerChannel := bin_mul_le hbin
  rw [Nat.succ_mul] at hlast
  have hroom : c.temporalBinFactor ≤ c.samplesPerChannel - bin * c.temporalBinFactor := by omega
  rw [Channel.timeBlock, powers_channelOf, ← List.map_drop, ← List.map_take,
    List.range_eq_range', List.drop_range', List.take_range'_of_length_ge hroom, Nat.zero_add,
    Nat.mul_one]

/-- The spectrogram is a grid of the bins. -/
theorem spectrogram_arraysIn (c : Config) (order : PowerOrder) (raw : Tensor Int)
    (channels samples : Nat) :
    (c.arraysIn (R := R) order raw channels samples).spectrogram =
      .ofPolarisations [c.nfreqBins.toNat, c.ntimeBins.toNat] fun pol =>
        gridCells c.nfreqBins.toNat c.ntimeBins.toNat fun f t =>
          blockPower order c.temporalBinFactor t ((List.range c.freqBinFactor).map fun i =>
            channelAt (c.bandOf raw channels samples pol) (f * c.freqBinFactor + i)) := by
  rw [arraysIn_eq]
  rfl

/-- A statistic of the powers of a channel. -/
theorem get?_channelPower (hshape : raw.shape = c.sampleShape) (statistic : List R → R)
    (pol : Polarisation) {i : Nat} (hi : i < c.nchan) :
    (Tensor.ofPolarisations [c.nchan] fun pol =>
      ((c.bandOf raw c.nchan c.samplesPerChannel pol).map fun channel =>
        statistic channel.powers).cast (volume_singleton c.nchan).symm).get? [pol.index, i] =
      some (statistic ((List.range c.samplesPerChannel).map (c.powerAt R raw pol i))) := by
  rw [get?_row _ pol hi, Vector.get_eq_getElem, Vector.getElem_map, bandOf_eq hshape,
    Vector.getElem_ofFn, powers_channelOf]

theorem get?_meanSpectralPower (hshape : raw.shape = c.sampleShape) (pol : Polarisation) {i : Nat}
    (hi : i < c.nchan) :
    (c.arraysOf (R := R) raw c.nchan c.samplesPerChannel).meanSpectralPower.get? [pol.index, i] =
      some (mean ((List.range c.samplesPerChannel).map (c.powerAt R raw pol i))) := by
  rw [arraysOf_eq]
  exact get?_channelPower hshape mean pol hi

theorem get?_maxSpectralPower (hshape : raw.shape = c.sampleShape) (pol : Polarisation) {i : Nat}
    (hi : i < c.nchan) :
    (c.arraysOf (R := R) raw c.nchan c.samplesPerChannel).maxSpectralPower.get? [pol.index, i] =
      some (largest ((List.range c.samplesPerChannel).map (c.powerAt R raw pol i))) := by
  rw [arraysOf_eq]
  exact get?_channelPower hshape largest pol hi

/-- The powers of the samples of some channels in a temporal bin. -/
def powersIn (R : Type) [Arithmetic R] (c : Config) (raw : Tensor Int) (pol : Polarisation)
    (numbers : List Nat) (bin : Nat) : List R :=
  numbers.flatMap fun i =>
    (List.range' (bin * c.temporalBinFactor) c.temporalBinFactor).map (c.powerAt R raw pol i)

variable {numbers : List Nat} {bin : Nat}

/-- The powers that the time series of some channels is made of in a temporal bin. -/
theorem flatMap_timeBlock (hbin : bin < c.ntimeBins.toNat) (pol : Polarisation)
    (numbers : List Nat) :
    ((numbers.map (c.channelOf (R := R) raw pol)).flatMap fun channel =>
      channel.timeBlock c.temporalBinFactor bin) = c.powersIn R raw pol numbers bin := by
  rw [powersIn, List.flatMap_map]
  exact congrArg (fun f => List.flatMap f numbers)
    (funext fun i => timeBlock_channelOf hbin pol i)

/-- What a time series says of some powers. -/
def statisticOf (powers : List R) : SeriesStatistic → R
  | .max => largest powers
  | .min => smallest powers
  | .mean => mean powers

theorem get?_series (hbin : bin < c.ntimeBins.toNat) (raw : Tensor Int) (pol : Polarisation)
    (numbers : List Nat) (k : SeriesStatistic) :
    (c.bandArrays (R := R) fun pol => numbers.map (c.channelOf raw pol)).series.get?
      [pol.index, bin, k.index] = some (statisticOf (c.powersIn R raw pol numbers bin) k) := by
  have hk : k.index < seriesStatisticCount := by cases k <;> decide
  refine (get?_gridCells _ pol hbin hk).trans ?_
  rw [seriesOf, flatMap_timeBlock hbin]
  cases k <;> rfl

end

/-! ## Exact powers -/

/-- In exact arithmetic the power of a block is the sum of the powers in it, in whatever order they
lie. -/
theorem blockPower_rat (order : PowerOrder) (factor bin : Nat) (channels : List (Channel ℚ)) :
    blockPower order factor bin channels =
      (channels.map fun channel => (channel.timeBlock factor bin).sum).sum := by
  rw [blockPower]
  split
  · split
    · rw [laneSum_rat, List.sum_flatten, List.map_map]
      rfl
    · rw [sum_rat, List.map_map]
      exact congrArg List.sum (List.map_congr_left fun channel _ => laneSum_rat _)
  · rw [sum_rat, List.map_map]
    exact congrArg List.sum (List.map_congr_left fun channel _ => sum_rat _)

section

variable {numbers : List Nat} {bin : Nat}

theorem mem_powersIn {x : ℚ} : x ∈ c.powersIn ℚ raw pol numbers bin ↔
    x ∈ Set.image2 (c.powerAt ℚ raw pol) {i | i ∈ numbers} (block c.temporalBinFactor bin) := by
  simp only [powersIn, List.mem_flatMap, List.mem_map, mem_range'_iff, Set.mem_image2,
    Set.mem_ofPred_eq, Finset.mem_coe]

theorem length_powersIn :
    (c.powersIn ℚ raw pol numbers bin).length = numbers.length * c.temporalBinFactor := by
  simp [powersIn, List.length_flatMap]

theorem sum_powersIn : (c.powersIn ℚ raw pol numbers bin).sum =
    (numbers.map fun i => ∑ s ∈ block c.temporalBinFactor bin, c.powerAt ℚ raw pol i s).sum := by
  rw [powersIn, List.flatMap, List.sum_flatten, List.map_map]
  exact congrArg List.sum (List.map_congr_left fun i _ => sum_map_range' _ _ _)

/-- What a time series of some channels says in a temporal bin: the largest, the least and the mean
power of their samples in the block of the bin. -/
structure SeriesBin (c : Config) (raw : Tensor Int) (pol : Polarisation) (numbers : List Nat)
    (bin : Nat) (series : Tensor ℚ) : Prop where
  max : IsGreatest
    (Set.image2 (c.powerAt ℚ raw pol) {i | i ∈ numbers} (block c.temporalBinFactor bin))
    (series.valueAt [pol.index, bin, SeriesStatistic.max.index])
  min : IsLeast
    (Set.image2 (c.powerAt ℚ raw pol) {i | i ∈ numbers} (block c.temporalBinFactor bin))
    (series.valueAt [pol.index, bin, SeriesStatistic.min.index])
  mean : numbers.length * c.temporalBinFactor *
      series.valueAt [pol.index, bin, SeriesStatistic.mean.index] =
    (numbers.map fun i => ∑ s ∈ block c.temporalBinFactor bin, c.powerAt ℚ raw pol i s).sum
  min_le_mean : series.valueAt [pol.index, bin, SeriesStatistic.min.index] ≤
    series.valueAt [pol.index, bin, SeriesStatistic.mean.index]
  mean_le_max : series.valueAt [pol.index, bin, SeriesStatistic.mean.index] ≤
    series.valueAt [pol.index, bin, SeriesStatistic.max.index]

/-- The powers of fewer channels lie between the least and the largest of all. -/
theorem SeriesBin.between {fewer : List Nat} {series seriesOfFewer : Tensor ℚ}
    (hall : c.SeriesBin raw pol numbers bin series)
    (hfewer : c.SeriesBin raw pol fewer bin seriesOfFewer) (hsub : fewer ⊆ numbers) :
    series.valueAt [pol.index, bin, SeriesStatistic.min.index] ≤
        seriesOfFewer.valueAt [pol.index, bin, SeriesStatistic.min.index] ∧
      seriesOfFewer.valueAt [pol.index, bin, SeriesStatistic.min.index] ≤
        seriesOfFewer.valueAt [pol.index, bin, SeriesStatistic.max.index] ∧
      seriesOfFewer.valueAt [pol.index, bin, SeriesStatistic.max.index] ≤
        series.valueAt [pol.index, bin, SeriesStatistic.max.index] :=
  have hpowers := Set.image2_subset_right (f := c.powerAt ℚ raw pol)
    (t := (block c.temporalBinFactor bin : Set Nat)) hsub
  ⟨hall.min.2 (hpowers hfewer.min.1), hfewer.min_le_mean.trans hfewer.mean_le_max,
    hall.max.2 (hpowers hfewer.max.1)⟩

theorem seriesBin (hfits : c.wholeTimeBins < 2 ^ 32) (hbin : bin < c.ntimeBins.toNat)
    (hnumbers : numbers ≠ []) (raw : Tensor Int) (pol : Polarisation) :
    c.SeriesBin raw pol numbers bin
      (c.bandArrays (R := ℚ) fun pol => numbers.map (c.channelOf raw pol)).series := by
  have hfactor : 0 < c.temporalBinFactor := temporalBinFactor_pos hfits
  have hne : c.powersIn ℚ raw pol numbers bin ≠ [] := by
    rw [← List.length_pos_iff_ne_nil, length_powersIn]
    exact Nat.mul_pos (List.length_pos_of_ne_nil hnumbers) hfactor
  have hset : {x | x ∈ c.powersIn ℚ raw pol numbers bin} =
      Set.image2 (c.powerAt ℚ raw pol) {i | i ∈ numbers} (block c.temporalBinFactor bin) :=
    Set.ext fun _ => mem_powersIn
  have hvalue := fun k => valueAt_of_some (get?_series hbin raw pol numbers k)
  constructor
  · rw [hvalue, ← hset]
    exact largest_isGreatest hne
  · rw [hvalue, ← hset]
    exact smallest_isLeast hne
  · rw [hvalue, ← sum_powersIn, statisticOf, mean_rat hne, ← Nat.cast_mul, ← length_powersIn,
      mul_div_cancel₀ _ (length_pos hne).ne']
  · rw [hvalue, hvalue]
    exact smallest_le_mean hne
  · rw [hvalue, hvalue]
    exact mean_le_largest hne

end

/-! ## The spectrogram and the spectral power -/

section

variable {channels samples : Nat}
  (hshape : raw.shape = [polarisationCount, componentCount, channels, samples])
  (hchannels : c.nchan ≤ channels) (hsamples : c.samplesPerChannel ≤ samples)

include hshape hchannels hsamples

/-- The powers of a temporal bin are those of the samples in its block, also where there are more
samples than the configured ones. -/
theorem timeBlock_channelAt {R : Type} [Arithmetic R] {bin : Nat} (hbin : bin < c.ntimeBins.toNat)
    (pol : Polarisation) {i : Nat} (hi : i < c.nchan) :
    (channelAt (c.bandOf (R := R) raw channels samples pol) i).timeBlock c.temporalBinFactor bin =
      (List.range' (bin * c.temporalBinFactor) c.temporalBinFactor).map
        (c.powerAt R raw pol i) := by
  have hlast : (bin + 1) * c.temporalBinFactor ≤ c.samplesPerChannel := bin_mul_le hbin
  rw [← Channel.timeBlock_take hlast, take_channelAt_bandOf hshape hchannels hsamples pol hi,
    timeBlock_channelOf hbin]

/-- Each cell of the spectrogram is the power of its block. -/
theorem valueAt_spectrogram (pol : Polarisation) {f t : Nat} (hf : f < c.nfreqBins.toNat)
    (ht : t < c.ntimeBins.toNat) :
    (c.arraysOf (R := ℚ) raw channels samples).spectrogram.valueAt [pol.index, f, t] =
      ∑ i ∈ block c.freqBinFactor f, ∑ s ∈ block c.temporalBinFactor t,
        c.powerAt ℚ raw pol i s := by
  have hlast : (f + 1) * c.freqBinFactor ≤ c.nchan := bin_mul_le hf
  rw [Nat.succ_mul] at hlast
  rw [arraysOf, spectrogram_arraysIn, valueAt_of_some (get?_gridCells _ pol hf ht), blockPower_rat,
    List.map_map, ← sum_map_range', List.range'_eq_map_range, List.map_map]
  refine congrArg List.sum (List.map_congr_left fun i hmem => ?_)
  have hi : i < c.freqBinFactor := List.mem_range.mp hmem
  show ((channelAt _ (f * c.freqBinFactor + i)).timeBlock c.temporalBinFactor t).sum = _
  rw [timeBlock_channelAt hshape hchannels hsamples ht pol (by omega), sum_map_range']
  rfl

end

theorem powers_ne_nil (c : Config) (raw : Tensor Int) (pol : Polarisation) (i : Nat) :
    (List.range c.samplesPerChannel).map (c.powerAt ℚ raw pol i) ≠ [] := by
  simpa using c.samplesPerChannel_pos.ne'

section

variable (hshape : raw.shape = c.sampleShape)

include hshape

/-- The mean of a channel times the number of its samples is the power of the channel. -/
theorem mul_meanSpectralPower (pol : Polarisation) {i : Nat} (hi : i < c.nchan) :
    c.samplesPerChannel * (c.arraysOf (R := ℚ) raw c.nchan
        c.samplesPerChannel).meanSpectralPower.valueAt [pol.index, i] =
      ∑ s ∈ range c.samplesPerChannel, c.powerAt ℚ raw pol i s := by
  have hpos : (c.samplesPerChannel : ℚ) ≠ 0 := Nat.cast_ne_zero.mpr c.samplesPerChannel_pos.ne'
  rw [valueAt_of_some (get?_meanSpectralPower hshape pol hi), mean_rat (c.powers_ne_nil raw pol i),
    List.length_map, List.length_range, mul_div_cancel₀ _ hpos]
  rfl

theorem maxSpectralPower_isGreatest (pol : Polarisation) {i : Nat} (hi : i < c.nchan) :
    IsGreatest (c.powerAt ℚ raw pol i '' {s | s < c.samplesPerChannel})
      ((c.arraysOf (R := ℚ) raw c.nchan c.samplesPerChannel).maxSpectralPower.valueAt
        [pol.index, i]) := by
  have hset : {x | x ∈ (List.range c.samplesPerChannel).map (c.powerAt ℚ raw pol i)} =
      c.powerAt ℚ raw pol i '' {s | s < c.samplesPerChannel} := by
    ext x
    simp
  rw [valueAt_of_some (get?_maxSpectralPower hshape pol hi), ← hset]
  exact largest_isGreatest (c.powers_ne_nil raw pol i)

/-- A column of the spectrogram holds the power of all channels in a temporal bin. -/
theorem sum_spectrogram_column (pol : Polarisation) {t : Nat} (ht : t < c.ntimeBins.toNat) :
    ∑ f ∈ range c.nfreqBins.toNat,
        (c.arraysOf (R := ℚ) raw c.nchan c.samplesPerChannel).spectrogram.valueAt
          [pol.index, f, t] =
      ∑ i ∈ range c.nchan, ∑ s ∈ block c.temporalBinFactor t, c.powerAt ℚ raw pol i s := by
  rw [Finset.sum_congr rfl fun f hf =>
    valueAt_spectrogram hshape le_rfl le_rfl pol (Finset.mem_range.mp hf) ht, sum_block,
    c.nfreqBins_mul_factor]

/-- The spectrogram holds the power of all samples. -/
theorem sum_spectrogram (hfits : c.wholeTimeBins < 2 ^ 32) (pol : Polarisation) :
    ∑ f ∈ range c.nfreqBins.toNat, ∑ t ∈ range c.ntimeBins.toNat,
        (c.arraysOf (R := ℚ) raw c.nchan c.samplesPerChannel).spectrogram.valueAt
          [pol.index, f, t] =
      ∑ i ∈ range c.nchan, ∑ s ∈ range c.samplesPerChannel, c.powerAt ℚ raw pol i s := by
  rw [Finset.sum_comm]
  calc _ = ∑ t ∈ range c.ntimeBins.toNat, ∑ i ∈ range c.nchan,
          ∑ s ∈ block c.temporalBinFactor t, c.powerAt ℚ raw pol i s :=
        Finset.sum_congr rfl fun t ht =>
          sum_spectrogram_column hshape pol (Finset.mem_range.mp ht)
    _ = ∑ i ∈ range c.nchan, ∑ t ∈ range c.ntimeBins.toNat,
          ∑ s ∈ block c.temporalBinFactor t, c.powerAt ℚ raw pol i s := Finset.sum_comm
    _ = ∑ i ∈ range c.nchan, ∑ s ∈ range c.samplesPerChannel, c.powerAt ℚ raw pol i s := by
        simp only [sum_block, ntimeBins_mul_factor hfits]

end

/-! ## Conservation -/

/-- What the arrays say about the power in one polarisation. -/
structure ConservesPower (c : Config) (raw : Tensor Int) (pol : Polarisation)
    (d : StatArrays ℚ Nat) : Prop where
  /-- Each cell of the spectrogram is the power of its block. -/
  cell : ∀ f < c.nfreqBins.toNat, ∀ t < c.ntimeBins.toNat,
    d.spectrogram.valueAt [pol.index, f, t] =
      ∑ i ∈ block c.freqBinFactor f, ∑ s ∈ block c.temporalBinFactor t, c.powerAt ℚ raw pol i s
  /-- The spectrogram holds the power of all channels. -/
  total : ∑ f ∈ range c.nfreqBins.toNat, ∑ t ∈ range c.ntimeBins.toNat,
      d.spectrogram.valueAt [pol.index, f, t] =
    ∑ i ∈ range c.nchan, (c.settings.nheap.toNat * c.settings.nsamp.toNat : Nat) *
      d.meanSpectralPower.valueAt [pol.index, i]
  /-- A column of the spectrogram holds the power of a temporal bin. -/
  column : ∀ t < c.ntimeBins.toNat,
    ∑ f ∈ range c.nfreqBins.toNat, d.spectrogram.valueAt [pol.index, f, t] =
      c.nchan * c.temporalBinFactor *
        d.timeseries.valueAt [pol.index, t, SeriesStatistic.mean.index]
  series : ∀ t < c.ntimeBins.toNat, c.SeriesBin raw pol (List.range c.nchan) t d.timeseries
  /-- The largest power is the same in the time series and among the channels. -/
  peak : ∃ x,
    IsGreatest {y | ∃ t < c.ntimeBins.toNat,
      d.timeseries.valueAt [pol.index, t, SeriesStatistic.max.index] = y} x ∧
    IsGreatest {y | ∃ i < c.nchan, d.maxSpectralPower.valueAt [pol.index, i] = y} x
  excisedSeries : c.nonRfiChannels ≠ [] → ∀ t < c.ntimeBins.toNat,
    c.SeriesBin raw pol c.nonRfiChannels t d.timeseriesRfiExcised
  /-- Without interference the powers of a temporal bin lie between the least and the largest. -/
  excised_between : c.nonRfiChannels ≠ [] → ∀ t < c.ntimeBins.toNat,
    d.timeseries.valueAt [pol.index, t, SeriesStatistic.min.index] ≤
        d.timeseriesRfiExcised.valueAt [pol.index, t, SeriesStatistic.min.index] ∧
      d.timeseriesRfiExcised.valueAt [pol.index, t, SeriesStatistic.min.index] ≤
        d.timeseriesRfiExcised.valueAt [pol.index, t, SeriesStatistic.max.index] ∧
      d.timeseriesRfiExcised.valueAt [pol.index, t, SeriesStatistic.max.index] ≤
        d.timeseries.valueAt [pol.index, t, SeriesStatistic.max.index]

theorem Takes.wholeTimeBins_lt (h : c.Takes raw) : c.wholeTimeBins < 2 ^ 32 :=
  Config.wholeTimeBins_lt h.samplesPerChannel_lt

/-- Every sample is in exactly one block of the spectrogram. -/
theorem existsUnique_blocks (hfits : c.wholeTimeBins < 2 ^ 32) {i s : Nat} (hi : i < c.nchan)
    (hs : s < c.samplesPerChannel) :
    ∃! bins : Nat × Nat, bins.1 < c.nfreqBins.toNat ∧ bins.2 < c.ntimeBins.toNat ∧
      i ∈ block c.freqBinFactor bins.1 ∧ s ∈ block c.temporalBinFactor bins.2 := by
  rw [← c.nfreqBins_mul_factor] at hi
  rw [← ntimeBins_mul_factor hfits] at hs
  obtain ⟨f, ⟨hf, hif⟩, hfunique⟩ := existsUnique_block hi
  obtain ⟨t, ⟨ht, hst⟩, htunique⟩ := existsUnique_block hs
  refine ⟨(f, t), ⟨hf, ht, hif, hst⟩, ?_⟩
  intro bins hbins
  obtain ⟨hf', ht', hif', hst'⟩ := hbins
  exact Prod.ext (hfunique _ ⟨hf', hif'⟩) (htunique _ ⟨ht', hst'⟩)

section

variable (h : c.Takes raw) {t : Nat} (ht : t < c.ntimeBins.toNat) (pol : Polarisation)

include h ht

/-- The time series is made from all channels. -/
theorem Takes.seriesBin_whole :
    c.SeriesBin raw pol (List.range c.nchan) t
      (c.arraysOf raw c.nchan c.samplesPerChannel).timeseries := by
  have hchannels : List.range c.nchan ≠ [] := by simpa using c.nchan_pos.ne'
  have hbin := seriesBin h.wholeTimeBins_lt ht hchannels raw pol
  rwa [← whole_arraysOf h.shape_eq] at hbin

/-- The time series without interference is made from the channels that are not flagged. -/
theorem Takes.seriesBin_excised (hkept : c.nonRfiChannels ≠ []) :
    c.SeriesBin raw pol c.nonRfiChannels t
      (c.arraysOf raw c.nchan c.samplesPerChannel).timeseriesRfiExcised := by
  have hbin := seriesBin h.wholeTimeBins_lt ht hkept raw pol
  rwa [← excised_arraysOf h.shape_eq] at hbin

end

/-- The powers of all samples are those of all temporal bins. -/
theorem mem_powers_iff_bin (hfits : c.wholeTimeBins < 2 ^ 32) (y : ℚ) :
    y ∈ Set.image2 (c.powerAt ℚ raw pol) (range c.nchan) (range c.samplesPerChannel) ↔
      ∃ t < c.ntimeBins.toNat, y ∈ Set.image2 (c.powerAt ℚ raw pol) {i | i ∈ List.range c.nchan}
        (block c.temporalBinFactor t) := by
  simp only [Set.mem_image2, Finset.mem_coe, Finset.mem_range, Set.mem_ofPred_eq, List.mem_range,
    ← ntimeBins_mul_factor hfits, lt_iff_exists_block]
  constructor
  · intro hpower
    obtain ⟨i, hi, s, ⟨t, ht, hs⟩, rfl⟩ := hpower
    exact ⟨t, ht, i, hi, s, hs, rfl⟩
  · intro hpower
    obtain ⟨t, ht, i, hi, s, hs, rfl⟩ := hpower
    exact ⟨i, hi, s, ⟨t, ht, hs⟩, rfl⟩

/-- The powers of all samples are those of all channels. -/
theorem mem_powers_iff_channel (y : ℚ) :
    y ∈ Set.image2 (c.powerAt ℚ raw pol) (range c.nchan) (range c.samplesPerChannel) ↔
      ∃ i < c.nchan, y ∈ c.powerAt ℚ raw pol i '' {s | s < c.samplesPerChannel} := by
  simp only [Set.mem_image2, Set.mem_image, Finset.mem_coe, Finset.mem_range, Set.mem_ofPred_eq]

/-- The largest power of all samples is the largest one of the time series and of the channels. -/
theorem exists_peak (h : c.Takes raw) (pol : Polarisation) : ∃ x,
    IsGreatest {y | ∃ t < c.ntimeBins.toNat,
      (c.arraysOf (R := ℚ) raw c.nchan c.samplesPerChannel).timeseries.valueAt
        [pol.index, t, SeriesStatistic.max.index] = y} x ∧
    IsGreatest {y | ∃ i < c.nchan,
      (c.arraysOf (R := ℚ) raw c.nchan c.samplesPerChannel).maxSpectralPower.valueAt
        [pol.index, i] = y} x := by
  let whole : Finset ℚ :=
    Finset.image₂ (c.powerAt ℚ raw pol) (range c.nchan) (range c.samplesPerChannel)
  have hne : whole.Nonempty :=
    .image₂ (Finset.nonempty_range_iff.mpr c.nchan_pos.ne')
      (Finset.nonempty_range_iff.mpr c.samplesPerChannel_pos.ne')
  have hpeak : IsGreatest (Set.image2 (c.powerAt ℚ raw pol) (range c.nchan)
      (range c.samplesPerChannel)) (whole.max' hne) := by
    rw [← Finset.coe_image₂]
    exact whole.isGreatest_max' hne
  refine ⟨whole.max' hne,
    isGreatest_image_of_cover (mem_powers_iff_bin h.wholeTimeBins_lt) ?_ hpeak,
    isGreatest_image_of_cover mem_powers_iff_channel ?_ hpeak⟩
  · exact fun t ht => (h.seriesBin_whole ht pol).max
  · exact fun i hi => maxSpectralPower_isGreatest h.shape_eq pol hi

theorem Takes.conservesPower (h : c.Takes raw) (pol : Polarisation) :
    c.ConservesPower raw pol (c.arraysOf raw c.nchan c.samplesPerChannel) := by
  refine
    { cell := fun f hf t ht => valueAt_spectrogram h.shape_eq le_rfl le_rfl pol hf ht
      total := ?_
      column := ?_
      series := fun t ht => h.seriesBin_whole ht pol
      peak := exists_peak h pol
      excisedSeries := fun hkept t ht => h.seriesBin_excised ht pol hkept
      excised_between := fun hkept t ht =>
        (h.seriesBin_whole ht pol).between (h.seriesBin_excised ht pol hkept)
          (List.filter_subset_self _) }
  · rw [sum_spectrogram h.shape_eq h.wholeTimeBins_lt]
    exact Finset.sum_congr rfl fun i hi =>
      (mul_meanSpectralPower h.shape_eq pol (Finset.mem_range.mp hi)).symm
  · intro t ht
    have hmean := (h.seriesBin_whole ht pol).mean
    rw [List.length_range] at hmean
    rw [sum_spectrogram_column h.shape_eq pol ht, hmean]
    rfl

/-- Power is conserved and every sample is binned once. The blocks of the spectrogram tile the
channels and samples, those of the time series tile the samples, and what the arrays say in exact
arithmetic is about the powers in these blocks. -/
theorem power_conserved (h : c.Takes raw) :
    (∀ i < c.nchan, ∀ s < c.settings.nheap.toNat * c.settings.nsamp.toNat,
      ∃! bins : Nat × Nat, bins.1 < c.nfreqBins.toNat ∧ bins.2 < c.ntimeBins.toNat ∧
        i ∈ block c.freqBinFactor bins.1 ∧ s ∈ block c.temporalBinFactor bins.2) ∧
    (∀ f < c.nfreqBins.toNat, ∀ t < c.ntimeBins.toNat,
      block c.freqBinFactor f ⊆ range c.nchan ∧
      block c.temporalBinFactor t ⊆
        range (c.settings.nheap.toNat * c.settings.nsamp.toNat)) ∧
    (∀ s < c.settings.nheap.toNat * c.settings.nsamp.toNat,
      ∃! t, t < c.ntimeBins.toNat ∧ s ∈ block c.temporalBinFactor t) ∧
    ∃ d, c.reduce ℚ raw = some d ∧
      (∀ key, d.shapeOf key = polarisationCount :: c.rowShape c.nchan key) ∧
      ∀ pol, c.ConservesPower raw pol d := by
  have hfits := h.wholeTimeBins_lt
  have hbins : c.ntimeBins.toNat * c.temporalBinFactor =
      c.settings.nheap.toNat * c.settings.nsamp.toNat :=
    ntimeBins_mul_factor hfits
  refine ⟨fun i hi s hs => existsUnique_blocks hfits hi hs, fun f hf t ht => ⟨?_, ?_⟩,
    fun s hs => existsUnique_block (hbins ▸ hs), _, h.reduce_eq,
    c.shapeOf_arraysOf raw c.nchan c.samplesPerChannel, h.conservesPower⟩
  · rw [← c.nfreqBins_mul_factor]
    exact block_subset hf
  · rw [← hbins]
    exact block_subset ht

/-- The power of three channels of two samples is in two cells, and that of two of the channels is
not above it. -/
theorem power_threeChannels :
    threeChannels.Takes threeChannelSamples ∧ threeChannels.nonRfiChannels = [0, 2] ∧
      ∃ d, threeChannels.reduce ℚ threeChannelSamples = some d ∧
        ∑ t ∈ range 2, d.spectrogram.valueAt [1, 0, t] =
          ∑ i ∈ range 3, 2 * d.meanSpectralPower.valueAt [1, i] ∧
        d.timeseriesRfiExcised.valueAt [1, 0, 0] ≤ d.timeseries.valueAt [1, 0, 0] := by
  have hkept : threeChannels.nonRfiChannels = [0, 2] := by decide
  have hf : threeChannels.nfreqBins.toNat = 1 := by decide
  have ht : threeChannels.ntimeBins.toNat = 2 := by decide
  obtain ⟨-, -, -, d, hd, -, hpower⟩ := power_conserved takes_threeChannels
  have htotal := (hpower .b).total
  have hbetween := (hpower .b).excised_between (by rw [hkept]; decide) 0 (by rw [ht]; decide)
  rw [hf, ht, Finset.sum_range_one] at htotal
  exact ⟨takes_threeChannels, hkept, d, hd, htotal, hbetween.2.2⟩

end Config

end VoltageStats
