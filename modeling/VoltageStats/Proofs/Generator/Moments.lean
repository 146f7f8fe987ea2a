import VoltageStats.Proofs.Generator.Arrays
import VoltageStats.Proofs.Generator.Counts
import VoltageStats.Proofs.Generator.Power

/-!
# Moments agree with the histograms

A histogram says how often each level occurs among the samples, so the mean and the variance of all
samples can be told from it (`Config.meanOfCounts`, `Config.varianceOfCounts`). In exact arithmetic
they are the moments that there are beside it, although the mean is taken channel by channel
(`Takes.momentsAgree`). In the same way the mean power of a channel can be told from its means and
variances (`Config.moments_agree`).
-/

namespace VoltageStats

open Arithmetic
open Finset (range)

namespace Config

variable {c : Config} {raw : Tensor Int} {pol : Polarisation} {component : Component}
  {numbers : List Nat}

/-! ## Levels -/

/-- The voltage that a raw value stands for. -/
def voltageOf (c : Config) (v : Int) : ℚ := v * c.scale ℚ

/-- The voltage that a bin of the histograms stands for. -/
def levelAt (c : Config) (bin : Nat) : ℚ := c.scale ℚ * (c.clipLow + (bin : Int) : Int)

theorem levelAt_bin {v : Int} (hlow : c.clipLow ≤ v) : c.levelAt (c.bin v) = c.voltageOf v := by
  rw [levelAt, clipLow_add_bin hlow, voltageOf, mul_comm]

/-- The mean of the voltages that a histogram counts. -/
def meanOfCounts (c : Config) (count : Nat → Nat) : ℚ :=
  (∑ i ∈ range c.nbin, count i * c.levelAt i) / (∑ i ∈ range c.nbin, count i : Nat)

/-- The unbiased variance of the voltages that a histogram counts. -/
def varianceOfCounts (c : Config) (count : Nat → Nat) : ℚ :=
  (∑ i ∈ range c.nbin, count i * (c.levelAt i - c.meanOfCounts count) ^ 2) /
    ((∑ i ∈ range c.nbin, count i : Nat) - 1)

end Config

/-- The moments for some channels are those that their histogram tells. There are at least two
samples in it. -/
structure BandArrays.MomentsAgree (b : BandArrays ℚ Nat) (c : Config)
    (histogram : Tensor UInt32) : Prop where
  two_le : ∀ (pol : Polarisation) (component : Component),
    2 ≤ ∑ i ∈ range c.nbin, histogram.countAt [pol.index, component.index, i]
  mean : ∀ (pol : Polarisation) (component : Component),
    b.means.valueAt [pol.index, component.index] =
      c.meanOfCounts fun i => histogram.countAt [pol.index, component.index, i]
  variance : ∀ (pol : Polarisation) (component : Component),
    b.variances.valueAt [pol.index, component.index] =
      c.varianceOfCounts fun i => histogram.countAt [pol.index, component.index, i]

namespace Config

variable {c : Config} {raw : Tensor Int} {pol : Polarisation} {component : Component}
  {numbers : List Nat}

/-! ## Voltages of some channels -/

theorem voltages_channelOf (c : Config) (raw : Tensor Int) (pol : Polarisation) (channel : Nat)
    (component : Component) :
    (c.channelOf (R := ℚ) raw pol channel).voltages.get component =
      ((List.range c.samplesPerChannel).map (raw.sampleAt pol component channel)).map
        c.voltageOf := by
  cases component <;> rfl

/-- The voltages of all samples of some channels. -/
def voltagesOf (c : Config) (raw : Tensor Int) (pol : Polarisation) (numbers : List Nat)
    (component : Component) : List ℚ :=
  (c.valuesOf raw pol numbers component).map c.voltageOf

theorem flatMap_voltages : (numbers.flatMap fun i =>
    (c.channelOf (R := ℚ) raw pol i).voltages.get component) =
      c.voltagesOf raw pol numbers component := by
  simp only [voltages_channelOf, voltagesOf, valuesOf, List.map_flatMap]

theorem length_voltagesOf :
    (c.voltagesOf raw pol numbers component).length = numbers.length * c.samplesPerChannel := by
  rw [voltagesOf, List.length_map, length_valuesOf]

theorem meanOf_channelOf (hne : numbers ≠ []) :
    meanOf (numbers.map (c.channelOf (R := ℚ) raw pol)) component =
      mean (c.voltagesOf raw pol numbers component) := by
  rw [← flatMap_voltages, meanOf, List.map_map]
  exact (mean_flatMap hne c.samplesPerChannel_pos fun i =>
    length_voltages raw pol i component).symm

theorem varianceOf_channelOf :
    varianceOf (numbers.map (c.channelOf (R := ℚ) raw pol)) component =
      sampleVariance (c.voltagesOf raw pol numbers component) := by
  rw [← flatMap_voltages, varianceOf, List.flatMap_map]

/-! ## Counted voltages -/

section

variable (h : c.Takes raw) (hsub : numbers.Sublist (List.range c.nchan))

include h hsub

/-- The counts of the voltages of some channels. -/
theorem Takes.sum_countAt (pol : Polarisation) (component : Component) :
    ∑ i ∈ range c.nbin,
        (c.keptArrays raw numbers).histogram.countAt [pol.index, component.index, i] =
      (c.voltagesOf raw pol numbers component).length := by
  simp only [h.countAt_histogram hsub]
  rw [sum_countP_range (h.bin_valuesOf_lt hsub), voltagesOf, List.length_map]

/-- What the voltages of some channels come to is told by their counts. -/
theorem Takes.sum_countAt_mul (pol : Polarisation) (component : Component) (g : ℚ → ℚ) :
    ∑ i ∈ range c.nbin,
        (c.keptArrays raw numbers).histogram.countAt [pol.index, component.index, i] *
          g (c.levelAt i) =
      ((c.voltagesOf raw pol numbers component).map g).sum := by
  simp only [h.countAt_histogram hsub]
  rw [sum_countP_mul (h.bin_valuesOf_lt hsub) fun i => g (c.levelAt i), voltagesOf, List.map_map]
  refine congrArg List.sum (List.map_congr_left fun v hmem => ?_)
  rw [levelAt_bin (h.valuesOf_inRange hsub v hmem).1, Function.comp_apply]

theorem Takes.meanOfCounts_eq (hne : numbers ≠ []) (pol : Polarisation) (component : Component) :
    (c.meanOfCounts fun i =>
        (c.keptArrays raw numbers).histogram.countAt [pol.index, component.index, i]) =
      mean (c.voltagesOf raw pol numbers component) := by
  have hvoltages : c.voltagesOf raw pol numbers component ≠ [] := by
    rw [← List.length_pos_iff_ne_nil, length_voltagesOf]
    exact Nat.mul_pos (List.length_pos_of_ne_nil hne) c.samplesPerChannel_pos
  have hsum : ∑ i ∈ range c.nbin,
      (c.keptArrays raw numbers).histogram.countAt [pol.index, component.index, i] * c.levelAt i =
        (c.voltagesOf raw pol numbers component).sum := by
    simpa using h.sum_countAt_mul hsub pol component id
  rw [meanOfCounts, mean_rat hvoltages, h.sum_countAt hsub, hsum]

theorem Takes.varianceOfCounts_eq (hlength : 2 ≤ (c.voltagesOf raw pol numbers component).length)
    (hne : numbers ≠ []) :
    (c.varianceOfCounts fun i =>
        (c.keptArrays raw numbers).histogram.countAt [pol.index, component.index, i]) =
      sampleVariance (c.voltagesOf raw pol numbers component) := by
  rw [varianceOfCounts, h.meanOfCounts_eq hsub hne, h.sum_countAt hsub,
    h.sum_countAt_mul hsub pol component fun x =>
      (x - mean (c.voltagesOf raw pol numbers component)) ^ 2,
    sampleVariance_rat hlength]

/-- The moments of some channels are those that their histogram tells. -/
theorem Takes.momentsAgree (hsamples : 2 ≤ c.samplesPerChannel) (hne : numbers ≠ []) :
    (c.bandArrays (R := ℚ) fun pol => numbers.map (c.channelOf raw pol)).MomentsAgree c
      (c.keptArrays raw numbers).histogram := by
  have hlength : ∀ pol component, 2 ≤ (c.voltagesOf raw pol numbers component).length := by
    intro pol component
    rw [length_voltagesOf]
    exact hsamples.trans (Nat.le_mul_of_pos_left _ (List.length_pos_of_ne_nil hne))
  constructor
  · intro pol component
    rw [h.sum_countAt hsub]
    exact hlength pol component
  · intro pol component
    rw [h.meanOfCounts_eq hsub hne, ← meanOf_channelOf hne]
    exact valueAt_of_some (get?_componentCells _ pol component)
  · intro pol component
    rw [h.varianceOfCounts_eq hsub (hlength pol component) hne, ← varianceOf_channelOf]
    exact valueAt_of_some (get?_componentCells _ pol component)

end

/-! ## The power of a channel -/

/-- The mean power of one component of a channel, as told by its mean and its variance. -/
def componentPower (c : Config) (d : StatArrays ℚ Nat) (pol : Polarisation)
    (component : Component) (channel : Nat) : ℚ :=
  let n : ℚ := c.samplesPerChannel
  d.meanSpectrum.valueAt [pol.index, component.index, channel] ^ 2 +
    d.varianceSpectrum.valueAt [pol.index, component.index, channel] * (n - 1) / n

/-- The squares of the voltages of a channel have the mean power of the component. -/
theorem componentPower_arraysOf (hshape : raw.shape = c.sampleShape)
    (hsamples : 2 ≤ c.samplesPerChannel) (pol : Polarisation) (component : Component)
    {channel : Nat} (hchannel : channel < c.nchan) :
    c.componentPower (c.arraysOf raw c.nchan c.samplesPerChannel) pol component channel =
      mean (((c.channelOf (R := ℚ) raw pol channel).voltages.get component).map (· ^ 2)) := by
  have hlength := length_voltages (R := ℚ) (c := c) raw pol channel component
  rw [componentPower, valueAt_of_some (get?_meanSpectrum hshape pol component hchannel),
    valueAt_of_some (get?_varianceSpectrum hshape pol component hchannel),
    mean_sq (hlength.symm ▸ hsamples), hlength]

theorem meanSpectralPower_eq (hshape : raw.shape = c.sampleShape)
    (hsamples : 2 ≤ c.samplesPerChannel) (pol : Polarisation) {channel : Nat}
    (hchannel : channel < c.nchan) :
    (c.arraysOf (R := ℚ) raw c.nchan c.samplesPerChannel).meanSpectralPower.valueAt
        [pol.index, channel] =
      c.componentPower (c.arraysOf raw c.nchan c.samplesPerChannel) pol .real channel +
        c.componentPower (c.arraysOf raw c.nchan c.samplesPerChannel) pol .imag channel := by
  have hpower : c.powerAt ℚ raw pol channel = fun sample =>
      c.voltageOf (raw.sampleAt pol .real channel sample) ^ 2 +
        c.voltageOf (raw.sampleAt pol .imag channel sample) ^ 2 := by
    funext sample
    rw [sq, sq]
    rfl
  have hne : List.range c.samplesPerChannel ≠ [] := by simpa using c.samplesPerChannel_pos.ne'
  rw [componentPower_arraysOf hshape hsamples pol .real hchannel,
    componentPower_arraysOf hshape hsamples pol .imag hchannel,
    valueAt_of_some (get?_meanSpectralPower hshape pol hchannel), hpower, mean_map_add hne,
    voltages_channelOf, voltages_channelOf, List.map_map, List.map_map, List.map_map, List.map_map]
  rfl

/-- In exact arithmetic the moments and the histograms tell the same, and the mean power of a
channel is told by its means and variances. -/
theorem moments_agree (h : c.Takes raw)
    (hsamples : 2 ≤ c.settings.nheap.toNat * c.settings.nsamp.toNat) :
    ∃ d g, c.reduce ℚ raw = some d ∧ c.generate raw = some g ∧
      (∀ key, d.shapeOf key = polarisationCount :: c.rowShape c.nchan key) ∧
      d.whole.MomentsAgree c g.data.histogram ∧
      (c.nonRfiChannels ≠ [] → d.excised.MomentsAgree c g.data.histogramRfiExcised) ∧
      ∀ pol, ∀ channel < c.nchan, d.meanSpectralPower.valueAt [pol.index, channel] =
        c.componentPower d pol .real channel + c.componentPower d pol .imag channel := by
  obtain ⟨g, hg, hwhole, hexcised, -⟩ := h.generate_counts
  have hchannels : List.range c.nchan ≠ [] := by simpa using c.nchan_pos.ne'
  have hkept : c.nonRfiChannels.Sublist (List.range c.nchan) := List.filter_sublist
  refine ⟨_, g, h.reduce_eq, hg, c.shapeOf_arraysOf raw c.nchan c.samplesPerChannel, ?_,
    fun hne => ?_, fun pol channel hchannel =>
      meanSpectralPower_eq h.shape_eq hsamples pol hchannel⟩
  · have hagree := h.momentsAgree (List.Sublist.refl _) hsamples hchannels
    rwa [← whole_arraysOf h.shape_eq, ← hwhole] at hagree
  · have hagree := h.momentsAgree hkept hsamples hne
    rwa [← excised_arraysOf h.shape_eq, ← hexcised] at hagree

/-- Three channels of two samples, with one of them flagged: the variance of the other two is that
of the four samples in the histogram, and the mean power of the first is told by its moments. -/
theorem moments_threeChannels :
    threeChannels.Takes threeChannelSamples ∧
      2 ≤ threeChannels.settings.nheap.toNat * threeChannels.settings.nsamp.toNat ∧
      threeChannels.nonRfiChannels ≠ [] ∧ ∃ d g,
        threeChannels.reduce ℚ threeChannelSamples = some d ∧
        threeChannels.generate threeChannelSamples = some g ∧
        d.varianceFrequencyAvgRfiExcised.valueAt [1, 0] = threeChannels.varianceOfCounts
          (fun i => g.data.histogramRfiExcised.countAt [1, 0, i]) ∧
        d.meanSpectralPower.valueAt [1, 0] = threeChannels.componentPower d .b .real 0 +
          threeChannels.componentPower d .b .imag 0 := by
  have hsamples : 2 ≤ threeChannels.settings.nheap.toNat * threeChannels.settings.nsamp.toNat := by
    decide
  have hkept : threeChannels.nonRfiChannels ≠ [] := by decide
  obtain ⟨d, g, hd, hg, -, -, hexcised, hpower⟩ := moments_agree takes_threeChannels hsamples
  exact ⟨takes_threeChannels, hsamples, hkept, d, g, hd, hg, (hexcised hkept).variance .b .real,
    hpower .b 0 (by decide)⟩

end Config

end VoltageStats
