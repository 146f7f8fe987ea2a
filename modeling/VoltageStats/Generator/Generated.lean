import VoltageStats.Binary.Extended
import VoltageStats.Generator.Reduction

/-!
# Generated statistics

Raw samples are a tensor with the axes polarisation, component, channel and sample. They are drawn
by quantising deviates to the levels of a configuration (`Config.quantise`), and reduced to arrays
in double precision, which are kept in single precision, with the labels of their axes
(`Config.generate`). The header that goes with them says which scan they are taken to be from.

`Config.headerFor` and `Config.statisticsOf` are what a release build computes, in which overflow is
not noticed and assertions are left out. `Config.headerChecked` and `Config.statisticsChecked` are
what a build with both checks does.
-/

namespace VoltageStats

/-- The scan that generated statistics are taken to be from. -/
structure ScanIdentifiers where
  ebId : String
  telescope : String
  scanId : UInt64
  beamId : String
  utcStart : String
  deriving DecidableEq, Repr

/-- The identifiers where none are given. -/
def ScanIdentifiers.default : ScanIdentifiers where
  ebId := ""
  telescope := "SKALow"
  scanId := 0
  beamId := "1"
  utcStart := "2023-10-23-11:00:00"

/-- Arrays with the labels of their axes. -/
structure Generated where
  /-- The centre of each channel in MHz. -/
  channelFreqMhz : Array Binary64
  /-- The centre of each frequency bin in MHz. -/
  frequencyBins : Array Binary64
  /-- The centre of each temporal bin in seconds. -/
  timeseriesBins : Array Binary64
  data : Data

namespace Config

/-! ## Raw samples -/

/-- The shape of raw samples. -/
def sampleShape (c : Config) : List Nat :=
  [polarisationCount, componentCount, c.nchan, c.samplesPerChannel]

section

variable {R : Type} [Numeric R]

/-- The sample for a deviate: it is divided by the width of a level and goes to the nearest integer,
a tie to the even one, which is brought into the range and kept in a word. -/
def quantise (c : Config) (deviate : R) : Int :=
  let level := (Numeric.number (deviate / c.scale R)).map nearestInteger
  (level.clamp c.clipLow c.clipHigh).toWord16

/-- The samples for deviates, which are given in row-major order. -/
def samplesOf (c : Config) (deviate : Nat → R) : Tensor Int :=
  Tensor.ofFn c.sampleShape fun position => c.quantise (deviate position)

end

/-! ## Statistics of raw samples -/

section

variable (R : Type) [Arithmetic R]

/-- The centre of each channel. -/
def channelLabels (c : Config) : Array R :=
  binCentres (c.lowFrequency R) (Arithmetic.ofDouble c.settings.bandwidthMhz) c.nchan

/-- The centre of each frequency bin. -/
def frequencyLabels (c : Config) : Array R :=
  binCentres (c.lowFrequency R) (Arithmetic.ofDouble c.settings.bandwidthMhz) c.nfreqBins.toNat

/-- The centre of each temporal bin. -/
def timeLabels (c : Config) : Array R :=
  binCentres (Arithmetic.ofCount 0) (c.totalTime R) c.ntimeBins.toNat

end

/-- The statistics of raw samples whose powers lie in some order, if they can be reduced. -/
def generateIn (c : Config) (order : PowerOrder) (raw : Tensor Int) : Option Generated :=
  (c.reduceIn Binary64 order raw).map fun arrays =>
    { channelFreqMhz := c.channelLabels Binary64
      frequencyBins := c.frequencyLabels Binary64
      timeseriesBins := c.timeLabels Binary64
      data := arrays.map Binary64.toBinary32 UInt32.ofNat }

/-- The statistics of raw samples in row-major order, if they can be reduced. -/
def generate (c : Config) (raw : Tensor Int) : Option Generated := c.generateIn .rowMajor raw

/-- The header for generated statistics, in a release build. Counts of samples are cut to words. -/
def headerFor (c : Config) (ids : ScanIdentifiers) (g : Generated) : Metadata :=
  let nsamp := UInt32.ofNat c.samplesPerChannel
  { fileFormatVersion := currentVersion
    ebId := ids.ebId
    telescope := ids.telescope
    scanId := ids.scanId
    beamId := ids.beamId
    utcStart := ids.utcStart
    tMin := .zero
    tMax := c.totalTime Binary64
    frequencyMhz := c.settings.frequencyMhz
    bandwidthMhz := c.settings.bandwidthMhz
    startChan := c.settings.startChan
    npol := c.settings.npol
    ndim := c.settings.ndim
    nchan := c.settings.nchan
    nchanDs := c.nfreqBins
    ndatDs := c.ntimeBins
    histogramNbin := UInt32.ofNat c.nbin
    nrebin := c.settings.nrebin
    channelFreqMhz := g.channelFreqMhz
    frequencyBins := g.frequencyBins
    timeseriesBins := g.timeseriesBins
    numSamples := c.settings.nchan * nsamp
    numSamplesRfiExcised := UInt32.ofNat c.nonRfiChannels.length * nsamp
    numSamplesSpectrum := Array.replicate c.nchan nsamp
    numInvalidPackets := 0 }

/-- Generated statistics with their header, in a release build. They are not checked against each
other. -/
def statisticsOf (c : Config) (ids : ScanIdentifiers) (g : Generated) : Statistics :=
  ⟨c.headerFor ids g, g.data⟩

end Config

end VoltageStats
