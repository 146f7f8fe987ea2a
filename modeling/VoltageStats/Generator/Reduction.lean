import VoltageStats.Generator.Counting
import VoltageStats.Generator.Moments
import VoltageStats.Statistics

/-!
# Reduction of samples to statistics

Raw samples are reduced to the twenty arrays one polarisation at a time (`Config.row`), over any
arithmetic. The samples are counted first (`Config.countsOf`). There may be more samples than the
configuration has: moments, spectra and histograms of single components are taken of all of them,
what is binned in time, paired or told by channel only of the configured ones.

Rounded sums depend on the order in which numbers are added, and the powers of a spectrogram are
added as they lie in memory (`blockPower`). The layout of the samples is a parameter of the
reduction (`Config.reduceIn`). The samples that are drawn are in row-major order
(`Config.reduce`).
-/

namespace VoltageStats

open Arithmetic

/-- A sequence for each component. -/
structure Lanes (α : Type) where
  real : List α
  imag : List α

namespace Lanes

variable {α β : Type}

/-- The sequence of a component. -/
def get (lanes : Lanes α) : Component → List α
  | .real => lanes.real
  | .imag => lanes.imag

/-- Both sequences with every item changed. -/
def map (f : α → β) (lanes : Lanes α) : Lanes β := ⟨lanes.real.map f, lanes.imag.map f⟩

/-- The first items of both sequences. -/
def take (count : Nat) (lanes : Lanes α) : Lanes α :=
  ⟨lanes.real.take count, lanes.imag.take count⟩

end Lanes

/-- The samples of a channel in one polarisation, with the voltages and the powers they stand
for. -/
structure Channel (R : Type) where
  samples : Lanes Int
  voltages : Lanes R
  powers : List R

namespace Channel

variable {R : Type} [Arithmetic R]

/-- The channel with some samples, for a width of their levels. -/
def ofSamples (scale : R) (samples : Lanes Int) : Channel R :=
  let voltages := samples.map fun sample => ofSample sample * scale
  { samples, voltages
    powers := List.zipWith (fun re im => re * re + im * im) voltages.real voltages.imag }

/-- A channel without samples. -/
def empty : Channel R := ⟨⟨[], []⟩, ⟨[], []⟩, []⟩

/-- The channel with its first samples only. -/
def take (count : Nat) (channel : Channel R) : Channel R :=
  ⟨channel.samples.take count, channel.voltages.take count, channel.powers.take count⟩

/-- The powers of a temporal bin. -/
def timeBlock (factor bin : Nat) (channel : Channel R) : List R :=
  (channel.powers.drop (bin * factor)).take factor

end Channel

/-- The orders in which powers lie in memory. They are in column-major order if the samples fill a
stretch of memory in which those of the two polarisations are neighbours, the first one before the
second, and in row-major order however else the samples lie. -/
inductive PowerOrder where
  /-- The powers of a channel are neighbours. -/
  | rowMajor
  /-- The powers of the two polarisations are neighbours. -/
  | columnMajor
  deriving DecidableEq, Repr

section Channels

variable {R : Type} [Arithmetic R]

/-- The mean of the means of some channels. -/
def meanOf (channels : List (Channel R)) (component : Component) : R :=
  mean (channels.map fun channel => mean (channel.voltages.get component))

/-- The variance of all samples of some channels. -/
def varianceOf (channels : List (Channel R)) (component : Component) : R :=
  sampleVariance (channels.flatMap fun channel => channel.voltages.get component)

/-- The sum of the powers of some channels in a temporal bin. Powers that are neighbours are added
as one lane: all of them if they fill a stretch of memory, and otherwise those of each channel by
themselves. In column-major order the powers of a channel have no neighbours among each other, and
they are added in order, unless there is only one. -/
def blockPower (order : PowerOrder) (factor bin : Nat) (channels : List (Channel R)) : R :=
  let lanes := channels.map fun channel => channel.timeBlock factor bin
  if order = .rowMajor || factor ≤ 1 then
    if channels.length = 1 ||
        (order = .rowMajor && channels.all fun channel => channel.powers.length = factor) then
      laneSum lanes.flatten
    else sum (lanes.map laneSum)
  else sum (lanes.map sum)

/-- The largest, least and mean power of some channels in a temporal bin. -/
def seriesOf (factor : Nat) (channels : List (Channel R)) (bin : Nat) : Vector R 3 :=
  let block := channels.flatMap fun channel => channel.timeBlock factor bin
  #v[largest block, smallest block, mean block]

end Channels

/-- One cell for each component. -/
def componentCells {α : Type} (cell : Component → α) : Vector α (volume [componentCount]) :=
  #v[cell .real, cell .imag]

/-- One row of cells for each component. -/
def componentRows {α : Type} {n : Nat} (row : Component → Vector α n) :
    Vector α (volume [componentCount, n]) :=
  (row .real ++ row .imag).cast (by simp [volume, componentCount]; omega)

/-- A grid of cells. -/
def gridCells {α : Type} (n m : Nat) (cell : Nat → Nat → α) : Vector α (volume [n, m]) :=
  Vector.ofFn fun i => cell (i / m) (i % m)

/-- The tensor of two polarisations from the cells of each. -/
def Tensor.ofPolarisations {α : Type} (shape : List Nat)
    (cells : Polarisation → Vector α (volume shape)) : Tensor α :=
  ⟨polarisationCount :: shape, (cells .a).toArray ++ (cells .b).toArray, by
    simp [volume, polarisationCount]; omega⟩

namespace Config

/-- The shape of the arrays of one polarisation, if there are samples of a number of channels. -/
def rowShape (c : Config) (channels : Nat) : DataKey → List Nat
  | .meanFrequencyAvg | .meanFrequencyAvgRfiExcised | .varianceFrequencyAvg
  | .varianceFrequencyAvgRfiExcised | .numClipped | .numClippedRfiExcised => [componentCount]
  | .meanSpectrum | .varianceSpectrum => [componentCount, channels]
  | .meanSpectralPower | .maxSpectralPower => [channels]
  | .histogram | .histogramRfiExcised => [componentCount, c.nbin]
  | .rebinnedHistogram2d | .rebinnedHistogram2dRfiExcised => [c.nrebin, c.nrebin]
  | .rebinnedHistogram | .rebinnedHistogramRfiExcised => [componentCount, c.nrebin]
  | .numClippedSpectrum => [componentCount, c.nchan]
  | .spectrogram => [c.nfreqBins.toNat, c.ntimeBins.toNat]
  | .timeseries | .timeseriesRfiExcised => [c.ntimeBins.toNat, seriesStatisticCount]

section

variable {R : Type} [Arithmetic R]

/-- The channel of a band with a number, without samples if there is none. -/
def channelAt {n : Nat} (band : Vector (Channel R) n) (i : Nat) : Channel R :=
  (band[i]?).getD Channel.empty

/-- What is counted in the channels of one polarisation. -/
def countsOf (c : Config) {n : Nat} (band : Vector (Channel R) n) : BandCounts c where
  real := .ofChannels c (band.toList.map fun channel => channel.samples.real)
  imag := .ofChannels c (band.toList.map fun channel => channel.samples.imag)
  pairs := .ofChannels c fun i =>
    let samples := (channelAt band i).samples.take c.samplesPerChannel
    samples.real.zip samples.imag

/-- The arrays of one polarisation, with what is counted in it. -/
def row (c : Config) (order : PowerOrder) {n : Nat} (band : Vector (Channel R) n)
    (counts : BandCounts c) :
    (key : DataKey) → Vector (key.kind.Element R Nat) (volume (c.rowShape n key)) :=
  let all := band.toList
  let configured := (List.range c.nchan).map (channelAt band)
  let kept := c.nonRfiChannels.map (channelAt band)
  let binned := configured.map (Channel.take c.samplesPerChannel)
  let binnedKept := kept.map (Channel.take c.samplesPerChannel)
  let series (channels : List (Channel R)) : Vector R (volume [c.ntimeBins.toNat, 3]) :=
    gridCells c.ntimeBins.toNat 3 fun bin statistic =>
      ((seriesOf c.temporalBinFactor channels bin)[statistic]?).getD undefined
  fun
  | .meanFrequencyAvg => componentCells (meanOf (R := R) all)
  | .meanFrequencyAvgRfiExcised => componentCells (meanOf (R := R) kept)
  | .varianceFrequencyAvg => componentCells (varianceOf (R := R) all)
  | .varianceFrequencyAvgRfiExcised => componentCells (varianceOf (R := R) kept)
  | .meanSpectrum =>
    componentRows fun component =>
      band.map fun channel => mean (R := R) (channel.voltages.get component)
  | .varianceSpectrum =>
    componentRows fun component =>
      band.map fun channel => sampleVariance (R := R) (channel.voltages.get component)
  | .meanSpectralPower =>
    (band.map fun channel => mean (R := R) channel.powers).cast (by simp [rowShape, volume])
  | .maxSpectralPower =>
    (band.map fun channel => largest (R := R) channel.powers).cast (by simp [rowShape, volume])
  | .histogram => componentRows fun component => (counts.samples component).bins.histogram
  | .histogramRfiExcised => componentRows fun component => (counts.pairs.kept component).histogram
  | .rebinnedHistogram2d => counts.pairs.joint
  | .rebinnedHistogram2dRfiExcised => counts.pairs.jointKept
  | .rebinnedHistogram => componentRows fun component => (counts.samples component).bins.rebinned
  | .rebinnedHistogramRfiExcised =>
    componentRows fun component => (counts.pairs.kept component).rebinned
  | .numClippedSpectrum => componentRows fun component => (counts.samples component).clipped
  | .numClipped => componentCells fun component => (counts.samples component).clippedTotal
  | .numClippedRfiExcised =>
    componentCells fun component => (counts.samples component).clippedIn c.nonRfiChannels
  | .spectrogram =>
    gridCells c.nfreqBins.toNat c.ntimeBins.toNat fun f t =>
      blockPower (R := R) order c.temporalBinFactor t
        ((List.range c.freqBinFactor).map fun i => channelAt band (f * c.freqBinFactor + i))
  | .timeseries => series binned
  | .timeseriesRfiExcised => series binnedKept

/-- The channels of one polarisation of raw samples with given numbers of channels and samples. -/
def bandOf (c : Config) (raw : Tensor Int) (channels samples : Nat) (pol : Polarisation) :
    Vector (Channel R) channels :=
  let scale : R := c.scale R
  let lane (component : Component) (i : Nat) : List Int :=
    let start := ((pol.index * componentCount + component.index) * channels + i) * samples
    (raw.cells.extract start (start + samples)).toList
  Vector.ofFn fun i => Channel.ofSamples scale ⟨lane .real i, lane .imag i⟩

/-- The arrays of raw samples with given numbers of channels and samples, whose powers lie in some
order. -/
def arraysIn (c : Config) (order : PowerOrder) (raw : Tensor Int) (channels samples : Nat) :
    StatArrays R Nat :=
  let bandA := c.bandOf (R := R) raw channels samples .a
  let bandB := c.bandOf (R := R) raw channels samples .b
  let a := c.row order bandA (c.countsOf bandA)
  let b := c.row order bandB (c.countsOf bandB)
  StatArrays.ofFn fun key => Tensor.ofPolarisations (c.rowShape channels key) fun
    | .a => a key
    | .b => b key

/-- The arrays of raw samples in row-major order. -/
def arraysOf (c : Config) (raw : Tensor Int) (channels samples : Nat) : StatArrays R Nat :=
  c.arraysIn .rowMajor raw channels samples

end

/-- Whether raw samples can be reduced: there are at least the channels and samples of the
configuration, every sample is in range, no sample beyond the configured channels is at an end
of the range, and the bins can be laid out. -/
def admits (c : Config) (raw : Tensor Int) : Bool :=
  match raw.shape with
  | [npol, ndim, channels, samples] =>
    npol = polarisationCount && ndim = componentCount && c.nchan ≤ channels &&
      c.samplesPerChannel ≤ samples &&
      raw.cells.all (fun sample => c.clipLow ≤ sample && sample ≤ c.clipHigh) &&
      (channels = c.nchan || (List.range raw.cells.size).all fun position =>
        position / samples % channels < c.nchan || !c.isClipped (raw.cells.getD position 0)) &&
      0 ≤ c.rebinMax && 2 * c.nrebin * c.nrebin < 2 ^ 63 && c.ntimeBins ≠ 0
  | _ => false

/-- The arrays of raw samples whose powers lie in some order, if they can be reduced. -/
def reduceIn (R : Type) [Arithmetic R] (c : Config) (order : PowerOrder) (raw : Tensor Int) :
    Option (StatArrays R Nat) :=
  if c.admits raw then
    match raw.shape with
    | [_, _, channels, samples] => some (c.arraysIn order raw channels samples)
    | _ => none
  else none

/-- The arrays of raw samples in row-major order, if they can be reduced. -/
def reduce (R : Type) [Arithmetic R] (c : Config) (raw : Tensor Int) :
    Option (StatArrays R Nat) :=
  c.reduceIn R .rowMajor raw

end Config

end VoltageStats
