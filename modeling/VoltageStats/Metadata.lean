import VoltageStats.Binary.Format
import VoltageStats.Schema
import VoltageStats.Tensor

/-!
# Headers

The header of a STAT archive says which scan the statistics belong to, which band and span of
time they cover, and how many channels, bins and samples there are. The counts fix the shape of
every array (`Metadata.expectedShape`) and the lengths of the header's own vectors
(`Metadata.validate`).
-/

namespace VoltageStats

/-- A header. Frequencies are in MHz and times in seconds. -/
structure Metadata where
  /-- The format of the archive that the header was loaded from or is meant for. -/
  fileFormatVersion : String
  /-- The execution block. -/
  ebId : String
  telescope : String
  scanId : UInt64
  beamId : String
  utcStart : String
  /-- The offset of the first sample from the start of the scan. -/
  tMin : Binary64
  /-- The offset of the end of the data from the start of the scan. -/
  tMax : Binary64
  /-- The centre of the band. -/
  frequencyMhz : Binary64
  bandwidthMhz : Binary64
  /-- The number of the first channel. -/
  startChan : UInt32
  npol : UInt32
  ndim : UInt32
  nchan : UInt32
  /-- The number of frequency bins of the spectrogram. -/
  nchanDs : UInt32
  /-- The number of temporal bins of the spectrogram and the time series. -/
  ndatDs : UInt32
  /-- The number of bins of the histograms, one for each raw value. -/
  histogramNbin : UInt32
  /-- The number of bins of the rebinned histograms. -/
  nrebin : UInt32
  /-- The centre of each channel. -/
  channelFreqMhz : Array Binary64
  /-- The centre of each frequency bin. -/
  frequencyBins : Array Binary64
  /-- The centre of each temporal bin, as an offset from `tMin`. -/
  timeseriesBins : Array Binary64
  /-- The number of samples of each polarisation and component. -/
  numSamples : UInt32
  /-- The number of those samples in channels without interference. -/
  numSamplesRfiExcised : UInt32
  /-- The number of samples of each channel. -/
  numSamplesSpectrum : Array UInt32
  numInvalidPackets : UInt32
  deriving DecidableEq, Repr, Inhabited

/-- Why a header and its arrays do not fit together. -/
inductive StatsError where
  /-- An array or a vector has another shape than the counts say. -/
  | badShape (name : String) (expected actual : List Nat)
  /-- A count has another value than it must have. -/
  | badCount (key : HeaderKey) (expected actual : Nat)
  /-- The last channel number is too large. -/
  | channelOverflow (startChan nchan : UInt32)
  deriving DecidableEq, Repr

/-- The text of a shape. -/
def shapeText (shape : List Nat) : String :=
  "[" ++ ", ".intercalate (shape.map toString) ++ "]"

/-- The message for a header and arrays that do not fit together. -/
def StatsError.message : StatsError → String
  | badShape name expected actual =>
    "Based on the header, expected " ++ name ++ " to have shape " ++ shapeText expected ++
      ", but it had shape " ++ shapeText actual ++ " instead!"
  | badCount key expected actual =>
    s!"Expected the header value {key.name} to be {expected}, but it was {actual}"
  | channelOverflow startChan nchan =>
    s!"START_CHAN {startChan} with NCHAN {nchan} runs past " ++
      "the largest representable channel number"

/-- The last channel of a band, if its number can be represented. An empty band ends where it
starts. -/
def checkedEndChan (startChan nchan : UInt32) : Option UInt32 :=
  let last := startChan.toNat + (nchan.toNat - 1)
  if last < UInt32.size then some (UInt32.ofNat last) else none

namespace Metadata

/-- The last channel of the header's band, held at the ends of the range of channel numbers. -/
def endChan (m : Metadata) : UInt32 :=
  if m.nchan = 0 then UInt32.ofNat (m.startChan.toNat - 1)
  else UInt32.ofNat (min (m.startChan.toNat + (m.nchan.toNat - 1)) (UInt32.size - 1))

/-- The least raw sample. Bin `i` of a histogram counts the samples `clipLow + i`. -/
def clipLow (m : Metadata) : Int := -(m.histogramNbin.toNat / 2 : Nat)

/-- The shape that an array must have. -/
def expectedShape (m : Metadata) (key : DataKey) : List Nat :=
  let npol := m.npol.toNat
  let ndim := m.ndim.toNat
  let nchan := m.nchan.toNat
  let nbin := m.histogramNbin.toNat
  let nrebin := m.nrebin.toNat
  match key with
  | .meanFrequencyAvg | .meanFrequencyAvgRfiExcised | .varianceFrequencyAvg
  | .varianceFrequencyAvgRfiExcised | .numClipped | .numClippedRfiExcised => [npol, ndim]
  | .meanSpectrum | .varianceSpectrum | .numClippedSpectrum => [npol, ndim, nchan]
  | .meanSpectralPower | .maxSpectralPower => [npol, nchan]
  | .histogram | .histogramRfiExcised => [npol, ndim, nbin]
  | .rebinnedHistogram2d | .rebinnedHistogram2dRfiExcised => [npol, nrebin, nrebin]
  | .rebinnedHistogram | .rebinnedHistogramRfiExcised => [npol, ndim, nrebin]
  | .spectrogram => [npol, m.nchanDs.toNat, m.ndatDs.toNat]
  | .timeseries | .timeseriesRfiExcised => [npol, m.ndatDs.toNat, seriesStatisticCount]

/-- The lengths of the header's vectors beside the counts that fix them. -/
def vectorLengths (m : Metadata) : List (HeaderKey × Nat × Nat) :=
  [(.chanFreq, m.nchan.toNat, m.channelFreqMhz.size),
    (.frequencyBins, m.nchanDs.toNat, m.frequencyBins.size),
    (.timeseriesBins, m.ndatDs.toNat, m.timeseriesBins.size),
    (.numSamplesSpectrum, m.nchan.toNat, m.numSamplesSpectrum.size)]

/-- Checks that there are two polarisations and two components, that the channels can be
numbered, and that every vector has the length that its count says, in this order. -/
def validate (m : Metadata) : Except StatsError Unit := do
  if m.npol.toNat ≠ polarisationCount then
    throw (.badCount .npol polarisationCount m.npol.toNat)
  if m.ndim.toNat ≠ componentCount then
    throw (.badCount .ndim componentCount m.ndim.toNat)
  if (checkedEndChan m.startChan m.nchan).isNone then
    throw (.channelOverflow m.startChan m.nchan)
  match m.vectorLengths.find? fun (_, expected, actual) => expected ≠ actual with
  | some (key, expected, actual) => throw (.badShape key.name [expected] [actual])
  | none => return ()

end Metadata

end VoltageStats
