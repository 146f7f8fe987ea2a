import VoltageStats.Proofs.Bytes
import VoltageStats.Proofs.Generator.Bins
import VoltageStats.Proofs.Generator.Steps
import VoltageStats.Proofs.Statistics

/-!
# Arrays that are reduced without fault

The moments, the sums of powers and the sums of counts that the arrays are made of come to what is
computed without checks. The ranges of channels and of samples that make up a bin lie within their
axes, since there are bins and each has as many items as the division gives it. So no step of the
reduction of samples that a configuration is meant for goes wrong (`Takes.reduceChecked_eq`).
-/

namespace VoltageStats

namespace Checked

variable {α R : Type} {n m : Nat}

theorem componentCells_eq {cell : Component → Checked α} {value : Component → α}
    (h : ∀ component, cell component = .ok (value component)) :
    componentCells cell = .ok (VoltageStats.componentCells value) := by
  rw [componentCells, h .real, ok_bind, h .imag]
  rfl

theorem componentRows_eq {row : Component → Checked (Vector α n)} {value : Component → Vector α n}
    (h : ∀ component, row component = .ok (value component)) :
    componentRows row = .ok (VoltageStats.componentRows value) := by
  rw [componentRows, h .real, ok_bind, h .imag]
  rfl

theorem gridCells_eq {cell : Nat → Nat → Checked α} {value : Nat → Nat → α}
    (h : ∀ i < n, ∀ j < m, cell i j = .ok (value i j)) :
    gridCells n m cell = .ok (VoltageStats.gridCells n m value) := by
  refine ofFnM_eq_ok fun position => ?_
  have hlt : (position : Nat) < n * m := by
    have hposition := position.isLt
    simpa only [volume, Nat.mul_one] using hposition
  have hm : 0 < m := Nat.pos_of_mul_pos_left (Nat.zero_lt_of_lt hlt)
  exact h _ ((Nat.div_lt_iff_lt_mul hm).mpr hlt) _ (Nat.mod_lt _ hm)

/-- The sum of all counts. -/
theorem total_foldl {counts : Vector Nat n} (h : counts.foldl (· + ·) 0 < 2 ^ 32) :
    total counts.toList = .ok (counts.foldl (· + ·) 0) := by
  rw [← Vector.foldl_toList, ← List.sum_eq_foldl] at h ⊢
  exact total_eq h

/-- The sum of the counts with some numbers. -/
theorem total_get {counts : Vector Nat n} {numbers : List Nat} (hlt : ∀ i ∈ numbers, i < n)
    (h : (numbers.map fun i => (counts[i]?).getD 0).foldl (· + ·) 0 < 2 ^ 32) :
    (do total (← numbers.mapM (get counts))) =
      .ok ((numbers.map fun i => (counts[i]?).getD 0).foldl (· + ·) 0) := by
  have hget : ∀ i ∈ numbers, get counts i = .ok ((counts[i]?).getD 0) := by
    intro i hmem
    rw [get_eq (hlt i hmem), Vector.getElem?_eq_getElem (hlt i hmem), Option.getD_some]
  rw [← List.sum_eq_foldl] at h ⊢
  rw [mapM_eq_ok hget, ok_bind, total_eq h]

variable [Arithmetic R] {xs : List R}

theorem mean_eq (h : xs.length < 2 ^ 64) : mean xs = .ok (VoltageStats.mean xs) := by
  rw [mean, size_eq h]
  rfl

theorem sampleVariance_eq (h : xs.length < 2 ^ 64) :
    sampleVariance xs = .ok (VoltageStats.sampleVariance xs) := by
  unfold sampleVariance VoltageStats.sampleVariance
  split
  · rfl
  next hlength =>
    have hdegrees : difference xs.length 1 = .ok (xs.length - 1) := if_neg (by omega)
    rw [mean_eq h, ok_bind, hdegrees]
    rfl

end Checked

namespace Config

variable {R : Type} [Arithmetic R] {c : Config} {raw : Tensor Int} {pol : Polarisation}
  {numbers : List Nat}

/-! ## Lengths -/

theorem length_voltages (raw : Tensor Int) (pol : Polarisation) (channel : Nat)
    (component : Component) :
    ((c.channelOf (R := R) raw pol channel).voltages.get component).length =
      c.samplesPerChannel := by
  cases component <;> simp [channelOf, Channel.ofSamples, Lanes.map, Lanes.get]

theorem length_powers (raw : Tensor Int) (pol : Polarisation) (channel : Nat) :
    (c.channelOf (R := R) raw pol channel).powers.length = c.samplesPerChannel := by
  simp [channelOf, Channel.ofSamples, Lanes.map]

/-! ## Moments -/

theorem Takes.meanChecked_eq (h : c.Takes raw) (hlength : numbers.length ≤ c.nchan)
    (component : Component) :
    meanChecked (numbers.map (c.channelOf (R := R) raw pol)) component =
      .ok (meanOf (numbers.map (c.channelOf raw pol)) component) := by
  have hsamples := h.samplesPerChannel_lt
  have hnchan : c.nchan < 2 ^ 32 := c.settings.nchan.toNat_lt
  have hmeans : ∀ channel ∈ numbers.map (c.channelOf (R := R) raw pol),
      Checked.mean (channel.voltages.get component) =
        .ok (mean (channel.voltages.get component)) := by
    intro channel hmem
    obtain ⟨i, -, rfl⟩ := List.mem_map.mp hmem
    refine Checked.mean_eq ?_
    rw [length_voltages]
    omega
  rw [meanChecked, Checked.mapM_eq_ok hmeans, Checked.ok_bind, Checked.mean_eq, meanOf]
  rw [List.length_map, List.length_map]
  omega

theorem Takes.varianceChecked_eq (h : c.Takes raw) (hlength : numbers.length ≤ c.nchan)
    (component : Component) :
    varianceChecked (numbers.map (c.channelOf (R := R) raw pol)) component =
      .ok (varianceOf (numbers.map (c.channelOf raw pol)) component) := by
  have hlt := h.length_mul_lt hlength
  refine Checked.sampleVariance_eq ?_
  rw [List.flatMap_map,
    length_flatMap_const fun channel => length_voltages raw pol channel component]
  omega

/-! ## Bins -/

theorem Takes.timeBlock_eq (h : c.Takes raw) {bin : Nat} (hbin : bin < c.ntimeBins.toNat)
    (channel : Nat) :
    Checked.block (c.channelOf (R := R) raw pol channel).powers c.temporalBinFactor bin =
      .ok ((c.channelOf raw pol channel).timeBlock c.temporalBinFactor bin) := by
  have hsamples := h.samplesPerChannel_lt
  have hbins : c.ntimeBins.toNat < 2 ^ 32 := c.ntimeBins.toNat_lt
  refine Checked.block_eq ?_ (by omega) ?_
  · rw [length_powers]
    exact bin_mul_le hbin
  · rw [length_powers]
    omega

theorem length_timeBlock {bin : Nat} (hbin : bin < c.ntimeBins.toNat) (channel : Nat) :
    ((c.channelOf (R := R) raw pol channel).timeBlock c.temporalBinFactor bin).length =
      c.temporalBinFactor := by
  have hle : (bin + 1) * c.temporalBinFactor ≤ c.samplesPerChannel := bin_mul_le hbin
  rw [Nat.succ_mul] at hle
  rw [Channel.timeBlock, List.length_take, List.length_drop, length_powers]
  omega

/-- The powers of some channels in a temporal bin. -/
theorem Takes.mapM_timeBlock (h : c.Takes raw) {bin : Nat} (hbin : bin < c.ntimeBins.toNat) :
    (numbers.map (c.channelOf (R := R) raw pol)).mapM
        (fun channel => Checked.block channel.powers c.temporalBinFactor bin) =
      .ok ((numbers.map (c.channelOf raw pol)).map
        fun channel => channel.timeBlock c.temporalBinFactor bin) := by
  refine Checked.mapM_eq_ok fun channel hmem => ?_
  obtain ⟨i, -, rfl⟩ := List.mem_map.mp hmem
  exact h.timeBlock_eq hbin i

theorem Takes.seriesChecked_eq (h : c.Takes raw) (hlength : numbers.length ≤ c.nchan) {bin : Nat}
    (hbin : bin < c.ntimeBins.toNat) :
    seriesChecked (numbers.map (c.channelOf (R := R) raw pol)) c.temporalBinFactor bin =
      .ok (seriesOf c.temporalBinFactor (numbers.map (c.channelOf raw pol)) bin) := by
  have hfactor : c.temporalBinFactor ≤ c.samplesPerChannel := Nat.div_le_self _ _
  have hlt := Nat.lt_of_le_of_lt (Nat.mul_le_mul_left numbers.length hfactor)
    (h.length_mul_lt hlength)
  have hmean : Checked.mean ((numbers.map (c.channelOf (R := R) raw pol)).map
      fun channel => channel.timeBlock c.temporalBinFactor bin).flatten =
        .ok (mean ((numbers.map (c.channelOf (R := R) raw pol)).map
          fun channel => channel.timeBlock c.temporalBinFactor bin).flatten) := by
    refine Checked.mean_eq ?_
    rw [← List.flatMap_def, List.flatMap_map, length_flatMap_const (length_timeBlock hbin)]
    omega
  rw [seriesChecked, h.mapM_timeBlock hbin, Checked.ok_bind, hmean, Checked.ok_bind, seriesOf,
    List.flatMap_def]
  rfl

omit [Arithmetic R] in
/-- The channels of a frequency bin. -/
theorem take_drop_toList {n start count : Nat} (band : Vector (Channel R) n)
    (hstop : start + count ≤ n) :
    (band.toList.drop start).take count =
      (List.range count).map fun i => channelAt band (start + i) := by
  refine List.ext_getElem ?_ fun i hi _ => ?_
  · rw [List.length_take, List.length_drop, Vector.length_toList, List.length_map,
      List.length_range]
    omega
  · have hi : i < count := by
      rw [List.length_take] at hi
      omega
    have hlt : start + i < n := by omega
    rw [List.getElem_take, List.getElem_drop, Vector.getElem_toList, List.getElem_map,
      List.getElem_range, channelAt, Vector.getElem?_eq_getElem hlt, Option.getD_some]

theorem Takes.blockPowerChecked_eq (h : c.Takes raw) (pol : Polarisation) {f t : Nat}
    (hf : f < c.nfreqBins.toNat) (ht : t < c.ntimeBins.toNat) :
    blockPowerChecked (c.bandOf (R := R) raw c.nchan c.samplesPerChannel pol) c.freqBinFactor
        c.temporalBinFactor f t =
      .ok (blockPower .rowMajor c.temporalBinFactor t ((List.range c.freqBinFactor).map fun i =>
        channelAt (c.bandOf (R := R) raw c.nchan c.samplesPerChannel pol)
          (f * c.freqBinFactor + i))) := by
  have hstop : (f + 1) * c.freqBinFactor ≤ c.nchan := bin_mul_le hf
  have hnchan : c.nchan < 2 ^ 32 := c.settings.nchan.toNat_lt
  have hbins := c.nfreqBins_le
  have hnumbers : ∀ i ∈ List.range c.freqBinFactor, f * c.freqBinFactor + i < c.nchan := by
    intro i hmem
    have hi := List.mem_range.mp hmem
    rw [Nat.succ_mul] at hstop
    omega
  -- The channels of the bin, as a list of channels with numbers.
  have hchannels : ((List.range c.freqBinFactor).map fun i =>
      channelAt (c.bandOf (R := R) raw c.nchan c.samplesPerChannel pol)
        (f * c.freqBinFactor + i)) =
      ((List.range c.freqBinFactor).map fun i => f * c.freqBinFactor + i).map
        (c.channelOf raw pol) := by
    rw [List.map_map]
    exact List.map_congr_left fun i hmem => channelAt_bandOf h.shape_eq pol (hnumbers i hmem)
  have hblock : Checked.block (c.bandOf (R := R) raw c.nchan c.samplesPerChannel pol).toList
      c.freqBinFactor f = .ok ((List.range c.freqBinFactor).map fun i =>
        channelAt (c.bandOf (R := R) raw c.nchan c.samplesPerChannel pol)
          (f * c.freqBinFactor + i)) := by
    rw [Nat.succ_mul] at hstop
    rw [Checked.block_eq, take_drop_toList _ hstop]
    · rwa [Vector.length_toList, Nat.succ_mul]
    · omega
    · rw [Vector.length_toList]
      omega
  rw [blockPowerChecked, hblock, Checked.ok_bind, hchannels, h.mapM_timeBlock ht, Checked.ok_bind,
    blockPower]
  exact (apply_ite _ _ _ _).symm

/-! ## Arrays of one polarisation -/

theorem Takes.bandChecked_eq (h : c.Takes raw) (pol : Polarisation) :
    c.bandChecked (R := R) raw pol = .ok (c.bandOf raw c.nchan c.samplesPerChannel pol) := by
  rw [bandOf_eq h.shape_eq]
  refine Checked.ofFnM_eq_ok fun channel => ?_
  rw [h.samplesChecked_eq pol .real channel.isLt, Checked.ok_bind,
    h.samplesChecked_eq pol .imag channel.isLt]
  rfl

/-- Something of each channel. -/
theorem ofFnM_bandOf {α : Type} (hshape : raw.shape = c.sampleShape) {f : Channel R → Checked α}
    {g : Channel R → α}
    (h : ∀ i, f (c.channelOf raw pol i) = .ok (g (c.channelOf raw pol i))) :
    (Vector.ofFnM fun channel : Fin c.nchan =>
        f ((c.bandOf raw c.nchan c.samplesPerChannel pol).get channel)) =
      .ok ((c.bandOf raw c.nchan c.samplesPerChannel pol).map g) := by
  rw [bandOf_eq hshape, Vector.map_ofFn]
  refine Checked.ofFnM_eq_ok fun channel => ?_
  rw [Vector.get_eq_getElem, Vector.getElem_ofFn]
  exact h channel

/-- The channels with some numbers. -/
theorem mapM_get_bandOf (hshape : raw.shape = c.sampleShape) (pol : Polarisation)
    (hlt : ∀ i ∈ numbers, i < c.nchan) :
    numbers.mapM (Checked.get (c.bandOf (R := R) raw c.nchan c.samplesPerChannel pol)) =
      .ok (numbers.map (c.channelOf raw pol)) := by
  refine Checked.mapM_eq_ok fun i hmem => ?_
  rw [Checked.get_eq (hlt i hmem), ← channelAt_bandOf hshape pol (hlt i hmem), channelAt,
    Vector.getElem?_eq_getElem (hlt i hmem), Option.getD_some]

/-- The clipped samples of some of the channels can be counted in a word. -/
theorem Takes.clippedIn_lt (h : c.Takes raw) (pol : Polarisation) (component : Component)
    (hsub : numbers.Sublist (List.range c.nchan)) :
    ((c.countsOf (c.bandOf (R := R) raw c.nchan c.samplesPerChannel pol)).samples
      component).clippedIn numbers < 2 ^ 32 := by
  have hlt : ∀ i ∈ numbers, i < c.nchan := fun i hmem => List.mem_range.mp (hsub.subset hmem)
  rw [clippedIn_countsOf _ _ hlt, map_channelAt_bandOf h.shape_eq hlt, samplesIn_channelOf]
  exact Nat.lt_of_le_of_lt List.countP_le_length (h.length_valuesOf_lt hsub)

theorem Takes.seriesCells_eq (h : c.Takes raw) (hlength : numbers.length ≤ c.nchan) :
    (Checked.gridCells c.ntimeBins.toNat seriesStatisticCount fun bin statistic => do
        Checked.get (← seriesChecked (numbers.map (c.channelOf (R := R) raw pol))
          c.temporalBinFactor bin) statistic) =
      .ok (c.seriesCells (numbers.map (c.channelOf raw pol))) := by
  refine Checked.gridCells_eq fun bin hbin statistic hstatistic => ?_
  have hlt : statistic < 3 := hstatistic
  rw [h.seriesChecked_eq hlength hbin, Checked.ok_bind, Checked.get_eq hlt,
    Vector.getElem?_eq_getElem hlt, Option.getD_some]

/-- The series of all channels, or of those that are not flagged. -/
theorem Takes.seriesOf_eq (h : c.Takes raw) (hsub : numbers.Sublist (List.range c.nchan)) :
    (do
      let channels ← numbers.mapM
        (Checked.get (c.bandOf (R := R) raw c.nchan c.samplesPerChannel pol))
      Checked.gridCells c.ntimeBins.toNat seriesStatisticCount fun bin statistic => do
        Checked.get (← seriesChecked channels c.temporalBinFactor bin) statistic) =
      .ok (c.seriesCells ((numbers.map
        (channelAt (c.bandOf (R := R) raw c.nchan c.samplesPerChannel pol))).map
          (Channel.take c.samplesPerChannel))) := by
  have hlt : ∀ i ∈ numbers, i < c.nchan := fun i hmem => List.mem_range.mp (hsub.subset hmem)
  have hlength : numbers.length ≤ c.nchan := by simpa using hsub.length_le
  rw [mapM_get_bandOf h.shape_eq pol hlt, Checked.ok_bind, h.seriesCells_eq hlength,
    map_take_channelAt h.shape_eq (Nat.le_refl _) (Nat.le_refl _) pol hlt]

/-- A moment of all channels, and of those that are not flagged. -/
theorem momentsChecked_eq (hshape : raw.shape = c.sampleShape) (pol : Polarisation)
    {f : List (Channel R) → Component → Checked R} {g : List (Channel R) → Component → R}
    (hmoment : ∀ numbers : List Nat, numbers.length ≤ c.nchan → ∀ component,
      f (numbers.map (c.channelOf raw pol)) component =
        .ok (g (numbers.map (c.channelOf raw pol)) component)) :
    Checked.componentCells (f (c.bandOf raw c.nchan c.samplesPerChannel pol).toList) =
        .ok (componentCells (g (c.bandOf raw c.nchan c.samplesPerChannel pol).toList)) ∧
      (do
        let kept ← c.nonRfiChannels.mapM
          (Checked.get (c.bandOf (R := R) raw c.nchan c.samplesPerChannel pol))
        Checked.componentCells (f kept)) =
        .ok (componentCells (g (c.nonRfiChannels.map
          (channelAt (c.bandOf (R := R) raw c.nchan c.samplesPerChannel pol))))) := by
  have hlt : ∀ i ∈ c.nonRfiChannels, i < c.nchan := fun _ => lt_of_mem_nonRfiChannels
  constructor
  · rw [toList_bandOf hshape]
    exact Checked.componentCells_eq (hmoment _ (by rw [List.length_range]))
  · rw [mapM_get_bandOf hshape pol hlt, Checked.ok_bind, map_channelAt_bandOf hshape hlt]
    exact Checked.componentCells_eq (hmoment _ c.length_nonRfiChannels_le)

/-- A spectrum of moments. -/
theorem spectrumChecked_eq (hshape : raw.shape = c.sampleShape) (pol : Polarisation)
    {f : List R → Checked R} {g : List R → R}
    (hmoment : ∀ xs, xs.length = c.samplesPerChannel → f xs = .ok (g xs)) :
    (Checked.componentRows fun component => Vector.ofFnM fun channel : Fin c.nchan =>
        f (((c.bandOf raw c.nchan c.samplesPerChannel pol).get channel).voltages.get component)) =
      .ok (componentRows fun component => (c.bandOf raw c.nchan c.samplesPerChannel pol).map
        fun channel => g (channel.voltages.get component)) := by
  refine Checked.componentRows_eq fun component => ?_
  exact ofFnM_bandOf (f := fun channel => f (channel.voltages.get component)) hshape fun i =>
    hmoment _ (length_voltages raw pol i component)

/-- The arrays of a polarisation come to what they are without checks. -/
theorem Takes.rowChecked_eq (h : c.Takes raw) (pol : Polarisation) (key : DataKey) :
    c.rowChecked (c.bandOf (R := R) raw c.nchan c.samplesPerChannel pol)
        (c.countsOf (c.bandOf (R := R) raw c.nchan c.samplesPerChannel pol)) c.freqBinFactor
        c.temporalBinFactor key =
      .ok (c.row .rowMajor (c.bandOf raw c.nchan c.samplesPerChannel pol)
        (c.countsOf (c.bandOf (R := R) raw c.nchan c.samplesPerChannel pol)) key) := by
  have hsamples := h.samplesPerChannel_lt
  have hkept : c.nonRfiChannels.Sublist (List.range c.nchan) := List.filter_sublist
  have hmeans := momentsChecked_eq h.shape_eq pol fun _ => h.meanChecked_eq (R := R)
  have hvariances := momentsChecked_eq h.shape_eq pol fun _ => h.varianceChecked_eq (R := R)
  have hmean : ∀ xs : List R, xs.length = c.samplesPerChannel → Checked.mean xs = .ok (mean xs) :=
    fun xs hlength => Checked.mean_eq (by omega)
  have hvariance : ∀ xs : List R, xs.length = c.samplesPerChannel →
      Checked.sampleVariance xs = .ok (sampleVariance xs) :=
    fun xs hlength => Checked.sampleVariance_eq (by omega)
  cases key with
  | histogram | histogramRfiExcised | rebinnedHistogram2d | rebinnedHistogram2dRfiExcised
  | rebinnedHistogram | rebinnedHistogramRfiExcised | numClippedSpectrum | maxSpectralPower => rfl
  | meanFrequencyAvg => exact hmeans.1
  | meanFrequencyAvgRfiExcised => exact hmeans.2
  | varianceFrequencyAvg => exact hvariances.1
  | varianceFrequencyAvgRfiExcised => exact hvariances.2
  | meanSpectrum => exact spectrumChecked_eq (R := R) h.shape_eq pol hmean
  | varianceSpectrum => exact spectrumChecked_eq (R := R) h.shape_eq pol hvariance
  | meanSpectralPower =>
      have hpowers := ofFnM_bandOf (f := fun channel => Checked.mean channel.powers)
        (g := fun channel => mean (R := R) channel.powers) h.shape_eq fun i =>
          hmean _ (length_powers raw pol i)
      simp only [rowChecked, hpowers, Checked.ok_bind]
      rfl
  | numClipped =>
      have htotal : ∀ component, Checked.total ((c.countsOf (c.bandOf (R := R) raw c.nchan
          c.samplesPerChannel pol)).samples component).clipped.toList =
            .ok ((c.countsOf (c.bandOf (R := R) raw c.nchan c.samplesPerChannel pol)).samples
              component).clippedTotal := by
        intro component
        have hlt := h.clippedIn_lt (R := R) pol component (.refl (List.range c.nchan))
        rw [← clippedTotal_eq] at hlt
        exact Checked.total_foldl hlt
      exact Checked.componentCells_eq htotal
  | numClippedRfiExcised =>
      exact Checked.componentCells_eq fun component =>
        Checked.total_get (fun _ => lt_of_mem_nonRfiChannels)
          (h.clippedIn_lt (R := R) pol component hkept)
  | spectrogram =>
      exact Checked.gridCells_eq fun f hf t ht => h.blockPowerChecked_eq (R := R) pol hf ht
  | timeseries => exact h.seriesOf_eq (R := R) (.refl _)
  | timeseriesRfiExcised => exact h.seriesOf_eq (R := R) hkept

/-! ## Shapes -/

/-- No array has an axis without length. -/
theorem Takes.rowShape_pos (h : c.Takes raw) (key : DataKey) :
    ∀ length ∈ c.rowShape c.nchan key, 0 < length := by
  have hnchan := c.nchan_pos
  have hnrebin := c.nrebin_pos
  have hnbin : 0 < c.nbin := Nat.two_pow_pos _
  have hfrequency := c.nfreqBins_pos
  have htime := ntimeBins_pos h.samplesPerChannel_lt
  cases key <;> simp_all [rowShape, componentCount, seriesStatisticCount]

/-- The cells of an array of one polarisation can be addressed. -/
theorem Takes.volume_rowShape_lt (h : c.Takes raw) (key : DataKey) :
    volume (c.rowShape c.nchan key) < 2 ^ 62 := by
  have hnchan : c.nchan < 2 ^ 32 := c.settings.nchan.toNat_lt
  have hnrebin := h.nrebin_lt
  have hnbin := c.nbin_le
  have htime : c.ntimeBins.toNat < 2 ^ 32 := c.ntimeBins.toNat_lt
  -- The joint histograms and the spectrogram are the two with axes that can both be long.
  have hjoint : c.nrebin * c.nrebin < 2 ^ 31 * 2 ^ 31 := Nat.mul_lt_mul'' hnrebin hnrebin
  have hspectrogram : c.nfreqBins.toNat * c.ntimeBins.toNat < 2 ^ 32 := by
    have hle := Nat.mul_le_mul c.nfreqBins_le (ntimeBins_le h.samplesPerChannel_lt)
    exact Nat.lt_of_le_of_lt hle h.nchan_mul_lt
  cases key <;>
    simp only [rowShape, volume, componentCount, seriesStatisticCount, Nat.mul_one] <;> omega

theorem Takes.addressable_eq (h : c.Takes raw) (key : DataKey) :
    Checked.addressable (polarisationCount :: c.rowShape c.nchan key) = .ok () := by
  have hvolume := h.volume_rowShape_lt key
  have hfilter : (polarisationCount :: c.rowShape c.nchan key).filter (· ≠ 0) =
      polarisationCount :: c.rowShape c.nchan key := by
    refine List.filter_eq_self.mpr fun length hmem => ?_
    rcases List.mem_cons.mp hmem with rfl | hmem
    · rfl
    · simpa using Nat.ne_of_gt (h.rowShape_pos key length hmem)
  refine if_pos ?_
  rw [hfilter, volume, polarisationCount]
  omega

/-- No step of the reduction goes wrong, and it comes to the same arrays as without checks. -/
theorem Takes.reduceChecked_eq (h : c.Takes raw) :
    c.reduceChecked R raw = .ok (c.arraysOf raw c.nchan c.samplesPerChannel) := by
  have hfrequency : c.nfreqBins.toNat ≠ 0 := Nat.ne_of_gt c.nfreqBins_pos
  have htime : c.ntimeBins.toNat ≠ 0 := Nat.ne_of_gt (ntimeBins_pos h.samplesPerChannel_lt)
  rw [reduceChecked, h.bandChecked_eq, Checked.ok_bind, h.bandChecked_eq, Checked.ok_bind,
    h.countsChecked_eq (R := R), Checked.ok_bind, h.countsChecked_eq (R := R), Checked.ok_bind,
    Checked.quotient_eq hfrequency, Checked.ok_bind, Checked.quotient_eq htime, Checked.ok_bind]
  refine StatArrays.ofFnM_eq_ok_iff.mpr fun key => ?_
  rw [arraysOf_eq, StatArrays.get_ofFn, h.addressable_eq key, Checked.ok_bind]
  have hrow := fun pol => h.rowChecked_eq (R := R) pol key
  rw [freqBinFactor, temporalBinFactor] at hrow
  rw [hrow, Checked.ok_bind, hrow, Checked.ok_bind]
  rfl

end Config

end VoltageStats
