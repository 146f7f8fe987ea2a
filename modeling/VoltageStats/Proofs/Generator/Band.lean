import VoltageStats.Generator.Generated
import VoltageStats.Proofs.Generator.Cells
import VoltageStats.Proofs.Generator.Counting

/-!
# Reduction of the samples that a configuration is meant for

Raw samples of the configured shape and range are always reduced (`Config.reduce_eq`). Seven of
the arrays come twice, once for all channels and once for those that are not flagged
(`BandArrays`). For such samples both are the same function of a list of channels
(`Config.bandArrays`): the list of all channels, and the list of those that are not flagged.
-/

namespace VoltageStats

variable {α R C : Type}

/-! ## Samples and channels -/

/-- The sample at a place, zero if there is none. -/
def Tensor.sampleAt (raw : Tensor Int) (pol : Polarisation) (component : Component)
    (channel sample : Nat) : Int :=
  (raw.get? [pol.index, component.index, channel, sample]).getD 0

/-- Raw samples that a configuration is meant for. They have the configured shape and range, there
are few enough of them for their number to fit a word, and the last bin of the rebinned histograms
fits a signed word. -/
structure Config.Takes (c : Config) (raw : Tensor Int) : Prop where
  samples_lt : c.nchan * c.settings.nheap.toNat * c.settings.nsamp.toNat < 2 ^ 32
  nrebin_lt : c.nrebin < 2 ^ 31
  shape_eq : raw.shape = c.sampleShape
  inRange : ∀ sample ∈ raw.cells, c.clipLow ≤ sample ∧ sample ≤ c.clipHigh

/-- The position of a sample. -/
theorem rowMajor?_sample (pol : Polarisation) (component : Component)
    {channels samples channel sample : Nat} (hchannel : channel < channels)
    (hsample : sample < samples) :
    rowMajor? [polarisationCount, componentCount, channels, samples]
        [pol.index, component.index, channel, sample] =
      some (((pol.index * componentCount + component.index) * channels + channel) * samples +
        sample) := by
  simp only [rowMajor?, if_pos pol.index_lt, if_pos component.index_lt, if_pos hchannel,
    if_pos hsample, Option.map_some, volume, Nat.mul_one, Nat.add_zero, Nat.add_mul,
    Nat.mul_assoc, Nat.add_assoc]

/-- The samples of a channel lie one after the other. -/
theorem lane_eq {raw : Tensor Int} {pol : Polarisation} {component : Component}
    {channels samples channel : Nat}
    (hshape : raw.shape = [polarisationCount, componentCount, channels, samples])
    (hchannel : channel < channels) {start : Nat}
    (hstart : start =
      ((pol.index * componentCount + component.index) * channels + channel) * samples) :
    (raw.cells.extract start (start + samples)).toList =
      (List.range samples).map (raw.sampleAt pol component channel) := by
  -- The last sample of the channel has a position too, so nothing of the lane is cut off.
  have hlt : ∀ sample, sample < samples → start + sample < raw.cells.size := by
    intro sample hsample
    rw [raw.size_eq, hshape, hstart]
    exact rowMajor?_lt (rowMajor?_sample pol component hchannel hsample)
  have hlength : (raw.cells.extract start (start + samples)).toList.length = samples := by
    rw [Array.length_toList, Array.size_extract]
    rcases Nat.eq_zero_or_pos samples with hzero | hpos
    · omega
    · have hlast := hlt (samples - 1) (by omega)
      omega
  refine List.ext_getElem (by rw [hlength]; simp) fun sample hleft _ => ?_
  have hsample : sample < samples := by rwa [hlength] at hleft
  rw [Array.getElem_toList, Array.getElem_extract, List.getElem_map, List.getElem_range,
    Tensor.sampleAt, Tensor.get?_eq_bind, hshape, rowMajor?_sample pol component hchannel hsample,
    Option.bind_some, ← hstart, Array.getElem?_eq_getElem (hlt sample hsample), Option.getD_some]

theorem Lanes.take_of_length_le {lanes : Lanes α} {count : Nat}
    (hreal : lanes.real.length ≤ count) (himag : lanes.imag.length ≤ count) :
    lanes.take count = lanes := by
  rw [take, List.take_of_length_le hreal, List.take_of_length_le himag]

namespace Channel

variable [Arithmetic R] {scale : R} {samples : Lanes Int} {count : Nat}

/-- Nothing is left out of a channel that has no more samples than are taken. -/
theorem take_ofSamples (hreal : samples.real.length ≤ count) (himag : samples.imag.length ≤ count) :
    (ofSamples scale samples).take count = ofSamples scale samples := by
  have hvoltages : (ofSamples scale samples).voltages.take count =
      (ofSamples scale samples).voltages :=
    Lanes.take_of_length_le (by simpa [ofSamples, Lanes.map] using hreal)
      (by simpa [ofSamples, Lanes.map] using himag)
  have hpowers : (ofSamples scale samples).powers.length ≤ count := by
    simp only [ofSamples, Lanes.map, List.length_zipWith, List.length_map]
    omega
  have hsamples : (ofSamples scale samples).samples.take count = samples :=
    Lanes.take_of_length_le hreal himag
  rw [take, hsamples, hvoltages, List.take_of_length_le hpowers]
  rfl

end Channel

namespace Config

section

variable [Arithmetic R] {c : Config} {raw : Tensor Int}

/-- A channel of one polarisation of raw samples. -/
def channelOf (c : Config) (raw : Tensor Int) (pol : Polarisation) (channel : Nat) : Channel R :=
  .ofSamples (c.scale R)
    ⟨(List.range c.samplesPerChannel).map (raw.sampleAt pol .real channel),
      (List.range c.samplesPerChannel).map (raw.sampleAt pol .imag channel)⟩

theorem bandOf_eq (hshape : raw.shape = c.sampleShape) (pol : Polarisation) :
    c.bandOf (R := R) raw c.nchan c.samplesPerChannel pol =
      Vector.ofFn fun channel => c.channelOf raw pol channel := by
  rw [bandOf]
  congr 1
  funext channel
  dsimp only
  rw [channelOf, lane_eq hshape channel.isLt rfl, lane_eq hshape channel.isLt rfl]

/-- The samples of some channels, one channel after the other. -/
def valuesOf (c : Config) (raw : Tensor Int) (pol : Polarisation) (numbers : List Nat)
    (component : Component) : List Int :=
  numbers.flatMap fun i => (List.range c.samplesPerChannel).map (raw.sampleAt pol component i)

/-- The samples of both components of some channels. -/
def pairsOf (c : Config) (raw : Tensor Int) (pol : Polarisation) (numbers : List Nat) :
    List (Int × Int) :=
  numbers.flatMap fun i => (List.range c.samplesPerChannel).map fun sample =>
    (raw.sampleAt pol .real i sample, raw.sampleAt pol .imag i sample)

variable {pol : Polarisation} {numbers : List Nat}

theorem samplesIn_channelOf (numbers : List Nat) (component : Component) :
    samplesIn (numbers.map (c.channelOf (R := R) raw pol)) component =
      c.valuesOf raw pol numbers component := by
  rw [samplesIn, List.flatMap_map]
  cases component <;> rfl

theorem pairsIn_channelOf (numbers : List Nat) :
    pairsIn (numbers.map (c.channelOf (R := R) raw pol)) = c.pairsOf raw pol numbers := by
  rw [pairsIn, List.flatMap_map]
  refine congrArg (fun f => List.flatMap f numbers) (funext fun i => ?_)
  exact List.zip_map'

theorem map_fst_pairsOf :
    (c.pairsOf raw pol numbers).map Prod.fst = c.valuesOf raw pol numbers .real := by
  simp [pairsOf, valuesOf, List.map_flatMap, Function.comp_def]

theorem map_snd_pairsOf :
    (c.pairsOf raw pol numbers).map Prod.snd = c.valuesOf raw pol numbers .imag := by
  simp [pairsOf, valuesOf, List.map_flatMap, Function.comp_def]

theorem take_channelOf (c : Config) (raw : Tensor Int) (pol : Polarisation) (channel : Nat) :
    (c.channelOf (R := R) raw pol channel).take c.samplesPerChannel =
      c.channelOf raw pol channel :=
  Channel.take_ofSamples (by simp) (by simp)

end

end Config

/-! ## The arrays that come twice -/

/-- The arrays that there are both for all channels and for those that are not flagged. -/
@[ext]
structure BandArrays (R C : Type) where
  means : Tensor R
  variances : Tensor R
  histogram : Tensor C
  rebinned : Tensor C
  joint : Tensor C
  clipped : Tensor C
  series : Tensor R

namespace BandArrays

variable {R' C' : Type}

/-- The arrays with every measured number and every count changed. -/
def map (f : R → R') (g : C → C') (b : BandArrays R C) : BandArrays R' C' where
  means := b.means.map f
  variances := b.variances.map f
  histogram := b.histogram.map g
  rebinned := b.rebinned.map g
  joint := b.joint.map g
  clipped := b.clipped.map g
  series := b.series.map f

end BandArrays

namespace StatArrays

variable {R' C' : Type}

/-- The arrays for all channels. -/
def whole (d : StatArrays R C) : BandArrays R C where
  means := d.meanFrequencyAvg
  variances := d.varianceFrequencyAvg
  histogram := d.histogram
  rebinned := d.rebinnedHistogram
  joint := d.rebinnedHistogram2d
  clipped := d.numClipped
  series := d.timeseries

/-- The arrays for the channels that are not flagged. -/
def excised (d : StatArrays R C) : BandArrays R C where
  means := d.meanFrequencyAvgRfiExcised
  variances := d.varianceFrequencyAvgRfiExcised
  histogram := d.histogramRfiExcised
  rebinned := d.rebinnedHistogramRfiExcised
  joint := d.rebinnedHistogram2dRfiExcised
  clipped := d.numClippedRfiExcised
  series := d.timeseriesRfiExcised

theorem whole_map (f : R → R') (g : C → C') (d : StatArrays R C) :
    (d.map f g).whole = d.whole.map f g := rfl

theorem excised_map (f : R → R') (g : C → C') (d : StatArrays R C) :
    (d.map f g).excised = d.excised.map f g := rfl

end StatArrays

namespace Config

variable [Arithmetic R] {c : Config} {raw : Tensor Int}

/-- The largest, least and mean power of some channels in each temporal bin. -/
def seriesCells (c : Config) (channels : List (Channel R)) :
    Vector R (volume [c.ntimeBins.toNat, seriesStatisticCount]) :=
  gridCells c.ntimeBins.toNat seriesStatisticCount fun bin statistic =>
    ((seriesOf c.temporalBinFactor channels bin)[statistic]?).getD Arithmetic.undefined

/-- The arrays for some channels of each polarisation, given one list of them for the moments and
one for the rest, and what has been counted. -/
def bandArraysOf (c : Config) (moments binned : Polarisation → List (Channel R))
    (histogram : Polarisation → Component → Vector Nat c.nbin)
    (rebinned : Polarisation → Component → Vector Nat c.nrebin)
    (joint : Polarisation → Vector Nat (volume [c.nrebin, c.nrebin]))
    (clipped : Polarisation → Component → Nat) : BandArrays R Nat where
  means := .ofPolarisations [componentCount] fun pol => componentCells (meanOf (moments pol))
  variances :=
    .ofPolarisations [componentCount] fun pol => componentCells (varianceOf (moments pol))
  histogram :=
    .ofPolarisations [componentCount, c.nbin] fun pol => componentRows (histogram pol)
  rebinned :=
    .ofPolarisations [componentCount, c.nrebin] fun pol => componentRows (rebinned pol)
  joint := .ofPolarisations [c.nrebin, c.nrebin] joint
  clipped := .ofPolarisations [componentCount] fun pol => componentCells (clipped pol)
  series := .ofPolarisations [c.ntimeBins.toNat, seriesStatisticCount] fun pol =>
    c.seriesCells (binned pol)

/-- The arrays for some channels of each polarisation. -/
def bandArrays (c : Config) (channels : Polarisation → List (Channel R)) : BandArrays R Nat :=
  c.bandArraysOf channels channels
    (fun pol component => tally c.nbin ((samplesIn (channels pol) component).map c.bin))
    (fun pol component => tally c.nrebin ((samplesIn (channels pol) component).map c.rebin))
    (fun pol => jointOf c (channels pol))
    (fun pol component => (samplesIn (channels pol) component).countP c.isClipped)

/-- The arrays of raw samples are made one polarisation at a time. -/
theorem arraysIn_eq (c : Config) (order : PowerOrder) (raw : Tensor Int)
    (channels samples : Nat) :
    c.arraysIn (R := R) order raw channels samples = .ofFn fun key =>
      .ofPolarisations (c.rowShape channels key) fun pol =>
        c.row order (c.bandOf raw channels samples pol)
          (c.countsOf (c.bandOf (R := R) raw channels samples pol)) key := by
  rw [arraysIn]
  congr 1

theorem arraysOf_eq (c : Config) (raw : Tensor Int) (channels samples : Nat) :
    c.arraysOf (R := R) raw channels samples = .ofFn fun key =>
      .ofPolarisations (c.rowShape channels key) fun pol =>
        c.row .rowMajor (c.bandOf raw channels samples pol)
          (c.countsOf (c.bandOf (R := R) raw channels samples pol)) key :=
  c.arraysIn_eq .rowMajor raw channels samples

theorem shapeOf_arraysIn (c : Config) (order : PowerOrder) (raw : Tensor Int)
    (channels samples : Nat) (key : DataKey) :
    (c.arraysIn (R := R) order raw channels samples).shapeOf key =
      polarisationCount :: c.rowShape channels key := by
  rw [arraysIn_eq, StatArrays.shapeOf, StatArrays.get_ofFn]
  rfl

theorem shapeOf_arraysOf (c : Config) (raw : Tensor Int) (channels samples : Nat) (key : DataKey) :
    (c.arraysOf (R := R) raw channels samples).shapeOf key =
      polarisationCount :: c.rowShape channels key :=
  c.shapeOf_arraysIn .rowMajor raw channels samples key

theorem whole_ofFn_row {count : Nat} (order : PowerOrder)
    (band : Polarisation → Vector (Channel R) count) (counts : Polarisation → BandCounts c) :
    (StatArrays.ofFn fun key => .ofPolarisations (c.rowShape count key) fun pol =>
        c.row order (band pol) (counts pol) key).whole =
      c.bandArraysOf (fun pol => (band pol).toList)
        (fun pol => ((List.range c.nchan).map (channelAt (band pol))).map
          (Channel.take c.samplesPerChannel))
        (fun pol component => ((counts pol).samples component).bins.histogram)
        (fun pol component => ((counts pol).samples component).bins.rebinned)
        (fun pol => (counts pol).pairs.joint)
        (fun pol component => ((counts pol).samples component).clippedTotal) :=
  rfl

theorem excised_ofFn_row {count : Nat} (order : PowerOrder)
    (band : Polarisation → Vector (Channel R) count) (counts : Polarisation → BandCounts c) :
    (StatArrays.ofFn fun key => .ofPolarisations (c.rowShape count key) fun pol =>
        c.row order (band pol) (counts pol) key).excised =
      c.bandArraysOf (fun pol => c.nonRfiChannels.map (channelAt (band pol)))
        (fun pol => (c.nonRfiChannels.map (channelAt (band pol))).map
          (Channel.take c.samplesPerChannel))
        (fun pol component => ((counts pol).pairs.kept component).histogram)
        (fun pol component => ((counts pol).pairs.kept component).rebinned)
        (fun pol => (counts pol).pairs.jointKept)
        (fun pol component => ((counts pol).samples component).clippedIn c.nonRfiChannels) :=
  rfl

omit [Arithmetic R] in
/-- A band is made up of the channels with all its numbers. -/
theorem map_channelAt_range {count : Nat} (band : Vector (Channel R) count) :
    (List.range count).map (channelAt band) = band.toList := by
  refine List.ext_getElem (by simp) fun i hi _ => ?_
  have hcount : i < count := by simpa using hi
  simp [channelAt, hcount]

/-! ## The arrays of raw samples -/

/-- The channel that raw samples have under a number. -/
theorem channelAt_bandOf {channel : Nat} (hshape : raw.shape = c.sampleShape) (pol : Polarisation)
    (hchannel : channel < c.nchan) :
    channelAt (c.bandOf (R := R) raw c.nchan c.samplesPerChannel pol) channel =
      c.channelOf raw pol channel := by
  rw [channelAt, bandOf_eq hshape, Vector.getElem?_eq_getElem hchannel, Vector.getElem_ofFn,
    Option.getD_some]

/-- The configured samples of a configured channel, also where there are more of both. -/
theorem take_channelAt_bandOf {channels samples channel : Nat}
    (hshape : raw.shape = [polarisationCount, componentCount, channels, samples])
    (hchannels : c.nchan ≤ channels) (hsamples : c.samplesPerChannel ≤ samples)
    (pol : Polarisation) (hchannel : channel < c.nchan) :
    (channelAt (c.bandOf (R := R) raw channels samples pol) channel).take c.samplesPerChannel =
      c.channelOf raw pol channel := by
  have hlt : channel < channels := Nat.lt_of_lt_of_le hchannel hchannels
  rw [channelAt, Vector.getElem?_eq_getElem hlt, Option.getD_some, bandOf, Vector.getElem_ofFn]
  dsimp only
  rw [lane_eq hshape hlt rfl, lane_eq hshape hlt rfl]
  simp only [Channel.take, Channel.ofSamples, Lanes.take, Lanes.map, channelOf, List.map_map,
    ← List.map_take, List.take_zipWith, List.take_range, Nat.min_eq_left hsamples]

theorem map_channelAt_bandOf {pol : Polarisation} {numbers : List Nat}
    (hshape : raw.shape = c.sampleShape) (hlt : ∀ i ∈ numbers, i < c.nchan) :
    numbers.map (channelAt (c.bandOf (R := R) raw c.nchan c.samplesPerChannel pol)) =
      numbers.map (c.channelOf raw pol) :=
  List.map_congr_left fun i hmem => channelAt_bandOf hshape pol (hlt i hmem)

/-- The configured samples of some of the configured channels, also where there are more of both. -/
theorem map_take_channelAt {channels samples : Nat}
    (hshape : raw.shape = [polarisationCount, componentCount, channels, samples])
    (hchannels : c.nchan ≤ channels) (hsamples : c.samplesPerChannel ≤ samples)
    (pol : Polarisation) {numbers : List Nat} (hlt : ∀ i ∈ numbers, i < c.nchan) :
    (numbers.map (channelAt (c.bandOf (R := R) raw channels samples pol))).map
        (Channel.take c.samplesPerChannel) =
      numbers.map (c.channelOf raw pol) := by
  rw [List.map_map]
  exact List.map_congr_left fun i hmem =>
    take_channelAt_bandOf hshape hchannels hsamples pol (hlt i hmem)

/-- The arrays for all channels. Moments and histograms of single components are made from all
samples of all channels that there are, the others from the configured ones. -/
theorem whole_arraysOf_eq {channels samples : Nat}
    (hshape : raw.shape = [polarisationCount, componentCount, channels, samples])
    (hchannels : c.nchan ≤ channels) (hsamples : c.samplesPerChannel ≤ samples) :
    (c.arraysOf (R := R) raw channels samples).whole =
      c.bandArraysOf (fun pol => (c.bandOf raw channels samples pol).toList)
        (fun pol => (List.range c.nchan).map (c.channelOf raw pol))
        (fun pol component => tally c.nbin
          ((samplesIn (c.bandOf (R := R) raw channels samples pol).toList component).map c.bin))
        (fun pol component => tally c.nrebin
          ((samplesIn (c.bandOf (R := R) raw channels samples pol).toList component).map c.rebin))
        (fun pol => jointOf c ((List.range c.nchan).map (c.channelOf (R := R) raw pol)))
        (fun pol component => ((c.countsOf (c.bandOf (R := R) raw channels samples pol)).samples
          component).clippedIn (List.range c.nchan)) := by
  have hlt : ∀ i ∈ List.range c.nchan, i < c.nchan := fun _ => List.mem_range.mp
  rw [arraysOf_eq, whole_ofFn_row]
  simp only [bins_countsOf, Bins.histogram_ofSamples, Bins.rebinned_ofSamples, pairs_countsOf,
    clippedTotal_eq, map_take_channelAt hshape hchannels hsamples _ hlt]

/-- The arrays without interference. Moments are made from all samples of the channels that are not
flagged, the others from the configured ones. -/
theorem excised_arraysOf_eq {channels samples : Nat}
    (hshape : raw.shape = [polarisationCount, componentCount, channels, samples])
    (hchannels : c.nchan ≤ channels) (hsamples : c.samplesPerChannel ≤ samples) :
    (c.arraysOf (R := R) raw channels samples).excised =
      c.bandArraysOf
        (fun pol => c.nonRfiChannels.map (channelAt (c.bandOf raw channels samples pol)))
        (fun pol => c.nonRfiChannels.map (c.channelOf raw pol))
        (fun pol component => tally c.nbin
          ((samplesIn (c.nonRfiChannels.map (c.channelOf (R := R) raw pol)) component).map c.bin))
        (fun pol component => tally c.nrebin
          ((samplesIn (c.nonRfiChannels.map (c.channelOf (R := R) raw pol)) component).map c.rebin))
        (fun pol => jointOf c (c.nonRfiChannels.map (c.channelOf (R := R) raw pol)))
        (fun pol component => ((c.countsOf (c.bandOf (R := R) raw channels samples pol)).samples
          component).clippedIn c.nonRfiChannels) := by
  -- Here the histograms of single components come from the pass over pairs, whose components are
  -- all samples since no channel has more of the one than of the other.
  have hlt : ∀ i ∈ c.nonRfiChannels, i < c.nchan := fun _ => lt_of_mem_nonRfiChannels
  have hkept : ∀ pol component,
      (c.countsOf (c.bandOf (R := R) raw channels samples pol)).pairs.kept component =
        .ofSamples c (samplesIn (c.nonRfiChannels.map (c.channelOf (R := R) raw pol))
          component) := by
    intro pol component
    rw [pairs_countsOf, map_take_channelAt hshape hchannels hsamples _ hlt, pairsIn_channelOf,
      map_fst_pairsOf, map_snd_pairsOf, samplesIn_channelOf]
    cases component <;> rfl
  rw [arraysOf_eq, excised_ofFn_row]
  simp only [hkept, Bins.histogram_ofSamples, Bins.rebinned_ofSamples]
  simp only [pairs_countsOf, map_take_channelAt hshape hchannels hsamples _ hlt]

/-- The arrays for all channels are made from all of them. -/
theorem whole_arraysOf (hshape : raw.shape = c.sampleShape) :
    (c.arraysOf (R := R) raw c.nchan c.samplesPerChannel).whole =
      c.bandArrays fun pol => (List.range c.nchan).map (c.channelOf raw pol) := by
  have hlt : ∀ i ∈ List.range c.nchan, i < c.nchan := fun _ => List.mem_range.mp
  rw [whole_arraysOf_eq hshape (Nat.le_refl _) (Nat.le_refl _)]
  simp only [clippedIn_countsOf _ _ hlt, ← map_channelAt_range, map_channelAt_bandOf hshape hlt,
    bandArrays]

/-- The arrays without interference are made from the channels that are not flagged. -/
theorem excised_arraysOf (hshape : raw.shape = c.sampleShape) :
    (c.arraysOf (R := R) raw c.nchan c.samplesPerChannel).excised =
      c.bandArrays fun pol => c.nonRfiChannels.map (c.channelOf raw pol) := by
  have hlt : ∀ i ∈ c.nonRfiChannels, i < c.nchan := fun _ => lt_of_mem_nonRfiChannels
  rw [excised_arraysOf_eq hshape (Nat.le_refl _) (Nat.le_refl _)]
  simp only [clippedIn_countsOf _ _ hlt, map_channelAt_bandOf hshape hlt, bandArrays]

/-- The clipped samples of each channel. -/
theorem numClippedSpectrum_arraysOf (hshape : raw.shape = c.sampleShape) :
    (c.arraysOf (R := R) raw c.nchan c.samplesPerChannel).numClippedSpectrum =
      .ofPolarisations [componentCount, c.nchan] fun pol => componentRows fun component =>
        Vector.ofFn fun i : Fin c.nchan =>
          ((List.range c.samplesPerChannel).map (raw.sampleAt pol component i)).countP
            c.isClipped := by
  have hclipped : ∀ pol component,
      (Vector.ofFn fun i : Fin c.nchan =>
        ((List.range c.samplesPerChannel).map (raw.sampleAt pol component i)).countP
          c.isClipped) =
        ((c.countsOf (c.bandOf (R := R) raw c.nchan c.samplesPerChannel pol)).samples
          component).clipped := by
    intro pol component
    refine Vector.ext fun i hi => ?_
    rw [Vector.getElem_ofFn, getElem_clipped_countsOf _ _ hi, channelAt_bandOf hshape pol hi]
    cases component <;> rfl
  rw [arraysOf_eq]
  simp only [hclipped]
  rfl

theorem get?_numClippedSpectrum (hshape : raw.shape = c.sampleShape) (pol : Polarisation)
    (component : Component) {i : Nat} (hi : i < c.nchan) :
    (c.arraysOf (R := R) raw c.nchan c.samplesPerChannel).numClippedSpectrum.get?
        [pol.index, component.index, i] =
      some (((List.range c.samplesPerChannel).map (raw.sampleAt pol component i)).countP
        c.isClipped) := by
  rw [numClippedSpectrum_arraysOf hshape, get?_componentRows fun pol component =>
      Vector.ofFn fun i : Fin c.nchan =>
        ((List.range c.samplesPerChannel).map (raw.sampleAt pol component i)).countP c.isClipped,
    Vector.getElem?_eq_getElem hi, Vector.getElem_ofFn]

/-- A statistic of the voltages of each channel. -/
theorem get?_channelVoltages (hshape : raw.shape = c.sampleShape) (statistic : List R → R)
    (pol : Polarisation) (component : Component) {i : Nat} (hi : i < c.nchan) :
    (Tensor.ofPolarisations [componentCount, c.nchan] fun pol => componentRows fun component =>
      (c.bandOf raw c.nchan c.samplesPerChannel pol).map fun channel =>
        statistic (channel.voltages.get component)).get? [pol.index, component.index, i] =
      some (statistic ((c.channelOf (R := R) raw pol i).voltages.get component)) := by
  rw [get?_componentRows fun pol component =>
      (c.bandOf raw c.nchan c.samplesPerChannel pol).map fun channel =>
        statistic (channel.voltages.get component),
    Vector.getElem?_eq_getElem hi, Vector.getElem_map, bandOf_eq hshape, Vector.getElem_ofFn]

theorem get?_meanSpectrum (hshape : raw.shape = c.sampleShape) (pol : Polarisation)
    (component : Component) {i : Nat} (hi : i < c.nchan) :
    (c.arraysOf (R := R) raw c.nchan c.samplesPerChannel).meanSpectrum.get?
        [pol.index, component.index, i] =
      some (mean ((c.channelOf raw pol i).voltages.get component)) := by
  rw [arraysOf_eq]
  exact get?_channelVoltages hshape mean pol component hi

theorem get?_varianceSpectrum (hshape : raw.shape = c.sampleShape) (pol : Polarisation)
    (component : Component) {i : Nat} (hi : i < c.nchan) :
    (c.arraysOf (R := R) raw c.nchan c.samplesPerChannel).varianceSpectrum.get?
        [pol.index, component.index, i] =
      some (sampleVariance ((c.channelOf raw pol i).voltages.get component)) := by
  rw [arraysOf_eq]
  exact get?_channelVoltages hshape sampleVariance pol component hi

/-! ## Reduction -/

/-- The number of samples of some of the channels fits a word. -/
theorem Takes.length_mul_lt (h : c.Takes raw) {numbers : List Nat}
    (hlength : numbers.length ≤ c.nchan) : numbers.length * c.samplesPerChannel < 2 ^ 32 := by
  have hlt := h.samples_lt
  rw [Nat.mul_assoc] at hlt
  exact Nat.lt_of_le_of_lt (Nat.mul_le_mul_right _ hlength) hlt

theorem Takes.nchan_mul_lt (h : c.Takes raw) : c.nchan * c.samplesPerChannel < 2 ^ 32 := by
  have hlength : (List.range c.nchan).length = c.nchan := List.length_range
  have hlt := h.length_mul_lt hlength.le
  rwa [hlength] at hlt

/-- The number of samples of a channel fits a word. -/
theorem Takes.samplesPerChannel_lt (h : c.Takes raw) : c.samplesPerChannel < 2 ^ 32 :=
  Nat.lt_of_le_of_lt (Nat.le_mul_of_pos_left c.samplesPerChannel c.nchan_pos) h.nchan_mul_lt

/-- Samples that a configuration is meant for are reduced. -/
theorem Takes.admits (h : c.Takes raw) : c.admits raw = true := by
  have hbins : c.ntimeBins ≠ 0 := ntimeBins_ne_zero h.samplesPerChannel_lt
  have hmax : 0 ≤ c.rebinMax := by
    have hpos := c.nrebin_pos
    rw [rebinMax_eq h.nrebin_lt]
    omega
  have hjoint : 2 * c.nrebin * c.nrebin < 2 ^ 63 := by
    have hle : c.nrebin * c.nrebin ≤ (2 ^ 31 - 1) * (2 ^ 31 - 1) :=
      Nat.mul_le_mul (Nat.le_pred_of_lt h.nrebin_lt) (Nat.le_pred_of_lt h.nrebin_lt)
    rw [Nat.mul_assoc]
    omega
  have hrange : raw.cells.all (fun sample => c.clipLow ≤ sample && sample ≤ c.clipHigh) = true := by
    rw [Array.all_eq_true']
    intro sample hmem
    simpa using h.inRange sample hmem
  rw [Config.admits, h.shape_eq, sampleShape]
  simpa [hbins, hmax, hrange] using hjoint

/-- Raw samples of the configured shape are reduced if they are admitted. -/
theorem reduceIn_of_shape (order : PowerOrder) (hshape : raw.shape = c.sampleShape) :
    c.reduceIn R order raw =
      if c.admits raw then some (c.arraysIn order raw c.nchan c.samplesPerChannel) else none := by
  rw [reduceIn, hshape, sampleShape]

/-- Raw samples that are admitted have at least the channels and samples of the configuration, every
sample has a bin, and the last bin of the rebinned histograms fits a signed word. -/
structure Admitted (c : Config) (raw : Tensor Int) (channels samples : Nat) : Prop where
  shape_eq : raw.shape = [polarisationCount, componentCount, channels, samples]
  channels_le : c.nchan ≤ channels
  samples_le : c.samplesPerChannel ≤ samples
  inRange : ∀ sample ∈ raw.cells, c.clipLow ≤ sample ∧ sample ≤ c.clipHigh
  nrebin_lt : c.nrebin < 2 ^ 31

theorem exists_of_admits (h : c.admits raw = true) :
    ∃ channels samples, c.Admitted raw channels samples := by
  unfold admits at h
  split at h
  next npol ndim channels samples hshape =>
    simp only [Bool.and_eq_true, decide_eq_true_eq, Array.all_eq_true'] at h
    obtain ⟨⟨⟨⟨⟨⟨⟨⟨rfl, rfl⟩, hchannels⟩, hsamples⟩, hrange⟩, -⟩, -⟩, hjoint⟩, -⟩ := h
    refine ⟨channels, samples, hshape, hchannels, hsamples, hrange, ?_⟩
    by_contra hmany
    -- With more bins the cells of a joint histogram could not be told apart.
    have hle : 2 ^ 31 * 2 ^ 31 ≤ c.nrebin * c.nrebin :=
      Nat.mul_le_mul (Nat.le_of_not_lt hmany) (Nat.le_of_not_lt hmany)
    rw [Nat.mul_assoc] at hjoint
    omega
  next => cases h

/-- Raw samples are reduced to the arrays for their own numbers of channels and samples, if they
are admitted. -/
theorem exists_of_reduce {d : StatArrays R Nat} (hd : c.reduce R raw = some d) :
    ∃ channels samples, c.Admitted raw channels samples ∧ d = c.arraysOf raw channels samples := by
  unfold reduce reduceIn at hd
  split at hd
  next hadmits =>
    obtain ⟨channels, samples, h⟩ := exists_of_admits hadmits
    rw [h.shape_eq] at hd
    exact ⟨channels, samples, h, (Option.some.inj hd).symm⟩
  next => cases hd

theorem Takes.admitted (h : c.Takes raw) : c.Admitted raw c.nchan c.samplesPerChannel :=
  ⟨h.shape_eq, Nat.le_refl _, Nat.le_refl _, h.inRange, h.nrebin_lt⟩

theorem Takes.reduceIn_eq (h : c.Takes raw) (order : PowerOrder) :
    c.reduceIn R order raw = some (c.arraysIn order raw c.nchan c.samplesPerChannel) := by
  rw [reduceIn_of_shape order h.shape_eq, if_pos h.admits]

theorem Takes.reduce_eq (h : c.Takes raw) :
    c.reduce R raw = some (c.arraysOf raw c.nchan c.samplesPerChannel) :=
  h.reduceIn_eq .rowMajor

/-- The arrays of generated statistics, before they are rounded. -/
theorem Takes.generateIn_eq (h : c.Takes raw) (order : PowerOrder) :
    ∃ g, c.generateIn order raw = some g ∧
      g.data = (c.arraysIn (R := Binary64) order raw c.nchan c.samplesPerChannel).map
        Binary64.toBinary32 UInt32.ofNat := by
  rw [generateIn, h.reduceIn_eq]
  exact ⟨_, rfl, rfl⟩

theorem Takes.generate_eq (h : c.Takes raw) :
    ∃ g, c.generate raw = some g ∧
      g.data = (c.arraysOf (R := Binary64) raw c.nchan c.samplesPerChannel).map
        Binary64.toBinary32 UInt32.ofNat :=
  h.generateIn_eq .rowMajor

/-! ## A small configuration -/

/-- A configuration of three channels of two samples, the one in the middle flagged. -/
def threeChannels : Config where
  settings :=
    { Settings.default with
      nchan := 3, nsamp := 2, nbit := 8, nfreqBins := 1, ntimeBins := 2, nrebin := 4
      frequencyMhz := ⟨0⟩, tsamp := ⟨0x3ff0000000000000⟩, osFactor := ⟨0⟩, rfiChannels := [1] }
  fault?_eq_none := by decide +kernel
  pairwise_rfiChannels := by decide

/-- Samples for it, among them both ends of the range. -/
def threeChannelSamples : Tensor Int :=
  .ofFn threeChannels.sampleShape fun position => (position * 85 % 256 : Nat) - 128

theorem takes_threeChannels : threeChannels.Takes threeChannelSamples where
  samples_lt := by decide
  nrebin_lt := by decide
  shape_eq := rfl
  inRange := by decide +kernel

end Config

end VoltageStats
