import VoltageStats.Text.Lowercase

/-!
# The vocabulary of STAT archives

A STAT archive holds a header and twenty arrays of statistics of sampled voltages. This module
names them: the fields of the header, the arrays with the type of their elements, the format
versions, and the axes that the arrays are indexed by. Every name that appears in an archive is
written in upper case; `memberField` gives the name of the value it becomes when it is loaded.
-/

namespace VoltageStats

/-- The format without sample counts in its header. It is only read. -/
def legacyVersion : String := "1.0.0"

/-- The format that is written. -/
def currentVersion : String := "1.1.0"

/-- The formats that are read. -/
def supportedVersions : List String := [legacyVersion, currentVersion]

/-- The extension of the archives that a path is built for. -/
def archiveExtension : String := "npz"

/-- The number of polarisations of the voltages. -/
def polarisationCount : Nat := 2

/-- The number of components of a complex voltage. -/
def componentCount : Nat := 2

/-- The number of statistics in each bin of a time series. -/
def seriesStatisticCount : Nat := 3

/-- The values of the header. `endChan` is shown with them, but follows from the others. -/
inductive HeaderKey where
  | fileFormatVersion
  | ebId
  | telescope
  | scanId
  | beamId
  | utcStart
  | tMin
  | tMax
  | freq
  | bw
  | startChan
  | endChan
  | npol
  | ndim
  | nchan
  | nchanDs
  | ndatDs
  | nbinHist
  | nrebin
  | chanFreq
  | frequencyBins
  | timeseriesBins
  | numSamples
  | numSamplesRfiExcised
  | numSamplesSpectrum
  | numInvalidPackets
  deriving DecidableEq, Repr

namespace HeaderKey

/-- The name of a header value in an archive. -/
def name : HeaderKey → String
  | fileFormatVersion => "FILE_FORMAT_VERSION"
  | ebId => "EB_ID"
  | telescope => "TELESCOPE"
  | scanId => "SCAN_ID"
  | beamId => "BEAM_ID"
  | utcStart => "UTC_START"
  | tMin => "T_MIN"
  | tMax => "T_MAX"
  | freq => "FREQ"
  | bw => "BW"
  | startChan => "START_CHAN"
  | endChan => "END_CHAN"
  | npol => "NPOL"
  | ndim => "NDIM"
  | nchan => "NCHAN"
  | nchanDs => "NCHAN_DS"
  | ndatDs => "NDAT_DS"
  | nbinHist => "NBIN_HIST"
  | nrebin => "NREBIN"
  | chanFreq => "CHAN_FREQ"
  | frequencyBins => "FREQUENCY_BINS"
  | timeseriesBins => "TIMESERIES_BINS"
  | numSamples => "NUM_SAMPLES"
  | numSamplesRfiExcised => "NUM_SAMPLES_RFI_EXCISED"
  | numSamplesSpectrum => "NUM_SAMPLES_SPECTRUM"
  | numInvalidPackets => "NUM_INVALID_PACKETS"

/-- The values that are shown, in order: those of the archive, and the last channel after the
first. -/
def shown : List HeaderKey :=
  [fileFormatVersion, ebId, telescope, scanId, beamId, utcStart, tMin, tMax, freq, bw, startChan,
    endChan, npol, ndim, nchan, nchanDs, ndatDs, nbinHist, nrebin, chanFreq, frequencyBins,
    timeseriesBins, numSamples, numSamplesRfiExcised, numSamplesSpectrum, numInvalidPackets]

/-- The values that an archive holds, in the order of the header record. -/
def stored : List HeaderKey := shown.filter (· ≠ endChan)

/-- The values that a legacy header record lacks. -/
def extended : List HeaderKey :=
  [numSamples, numSamplesRfiExcised, numSamplesSpectrum, numInvalidPackets]

/-- The header value with a name. -/
def ofName? (name : String) : Option HeaderKey := shown.find? (·.name = name)

end HeaderKey

/-- The member that holds the header record. -/
def headerMember : String := "HEADER"

/-- The twenty arrays. -/
inductive DataKey where
  | meanFrequencyAvg
  | meanFrequencyAvgRfiExcised
  | varianceFrequencyAvg
  | varianceFrequencyAvgRfiExcised
  | meanSpectrum
  | varianceSpectrum
  | meanSpectralPower
  | maxSpectralPower
  | histogram
  | histogramRfiExcised
  | rebinnedHistogram2d
  | rebinnedHistogram2dRfiExcised
  | rebinnedHistogram
  | rebinnedHistogramRfiExcised
  | numClippedSpectrum
  | numClipped
  | numClippedRfiExcised
  | spectrogram
  | timeseries
  | timeseriesRfiExcised
  deriving DecidableEq, Repr

/-- The two types of elements: measured numbers, and counts. -/
inductive ElementKind where
  | real
  | count
  deriving DecidableEq, Repr

namespace DataKey

/-- The name of an array in an archive. -/
def name : DataKey → String
  | meanFrequencyAvg => "MEAN_FREQUENCY_AVG"
  | meanFrequencyAvgRfiExcised => "MEAN_FREQUENCY_AVG_RFI_EXCISED"
  | varianceFrequencyAvg => "VARIANCE_FREQUENCY_AVG"
  | varianceFrequencyAvgRfiExcised => "VARIANCE_FREQUENCY_AVG_RFI_EXCISED"
  | meanSpectrum => "MEAN_SPECTRUM"
  | varianceSpectrum => "VARIANCE_SPECTRUM"
  | meanSpectralPower => "MEAN_SPECTRAL_POWER"
  | maxSpectralPower => "MAX_SPECTRAL_POWER"
  | histogram => "HISTOGRAM_1D_FREQ_AVG"
  | histogramRfiExcised => "HISTOGRAM_1D_FREQ_AVG_RFI_EXCISED"
  | rebinnedHistogram2d => "HISTOGRAM_REBINNED_2D_FREQ_AVG"
  | rebinnedHistogram2dRfiExcised => "HISTOGRAM_REBINNED_2D_FREQ_AVG_RFI_EXCISED"
  | rebinnedHistogram => "HISTOGRAM_REBINNED_1D_FREQ_AVG"
  | rebinnedHistogramRfiExcised => "HISTOGRAM_REBINNED_1D_FREQ_AVG_RFI_EXCISED"
  | numClippedSpectrum => "NUM_CLIPPED_SAMPLES_SPECTRUM"
  | numClipped => "NUM_CLIPPED_SAMPLES"
  | numClippedRfiExcised => "NUM_CLIPPED_SAMPLES_RFI_EXCISED"
  | spectrogram => "SPECTROGRAM"
  | timeseries => "TIMESERIES"
  | timeseriesRfiExcised => "TIMESERIES_RFI_EXCISED"

/-- The type of an array's elements. -/
def kind : DataKey → ElementKind
  | meanFrequencyAvg | meanFrequencyAvgRfiExcised | varianceFrequencyAvg
  | varianceFrequencyAvgRfiExcised | meanSpectrum | varianceSpectrum | meanSpectralPower
  | maxSpectralPower | spectrogram | timeseries | timeseriesRfiExcised => .real
  | histogram | histogramRfiExcised | rebinnedHistogram2d | rebinnedHistogram2dRfiExcised
  | rebinnedHistogram | rebinnedHistogramRfiExcised | numClippedSpectrum | numClipped
  | numClippedRfiExcised => .count

/-- The arrays in the order in which an archive holds them. -/
def all : List DataKey :=
  [meanFrequencyAvg, meanFrequencyAvgRfiExcised, varianceFrequencyAvg,
    varianceFrequencyAvgRfiExcised, meanSpectrum, varianceSpectrum, meanSpectralPower,
    maxSpectralPower, histogram, histogramRfiExcised, rebinnedHistogram2d,
    rebinnedHistogram2dRfiExcised, rebinnedHistogram, rebinnedHistogramRfiExcised,
    numClippedSpectrum, numClipped, numClippedRfiExcised, spectrogram, timeseries,
    timeseriesRfiExcised]

theorem mem_all (k : DataKey) : k ∈ all := by cases k <;> decide

/-- The array with a name. -/
def ofName? (name : String) : Option DataKey := all.find? (·.name = name)

end DataKey

/-- The names in an archive that do not become a field name by lower-casing. -/
def renamedFields : List (String × String) :=
  [("BW", "bandwidth_mhz"),
    ("CHAN_FREQ", "channel_freq_mhz"),
    ("FREQ", "frequency_mhz"),
    ("HISTOGRAM_REBINNED_1D_FREQ_AVG", "rebinned_histogram_1d_freq_avg"),
    ("HISTOGRAM_REBINNED_1D_FREQ_AVG_RFI_EXCISED", "rebinned_histogram_1d_freq_avg_rfi_excised"),
    ("HISTOGRAM_REBINNED_2D_FREQ_AVG", "rebinned_histogram_2d_freq_avg"),
    ("HISTOGRAM_REBINNED_2D_FREQ_AVG_RFI_EXCISED", "rebinned_histogram_2d_freq_avg_rfi_excised"),
    ("NBIN_HIST", "histogram_nbin")]

/-- The name of the field that the value with a name becomes when it is loaded. -/
def memberField (name : String) : String :=
  match renamedFields.lookup name with
  | some field => field
  | none => Text.lowercase name

/-- The two orthogonal polarisations. -/
inductive Polarisation where
  | a
  | b
  deriving DecidableEq, Repr

/-- The components of a complex voltage. -/
inductive Component where
  | real
  | imag
  deriving DecidableEq, Repr

/-- The statistics in each bin of a time series, in the order of its last axis. -/
inductive SeriesStatistic where
  | max
  | min
  | mean
  deriving DecidableEq, Repr

/-- Why an index selects no polarisation or no component. -/
inductive SelectorError where
  | polarisation (index : Nat)
  | component (index : Nat)
  deriving DecidableEq, Repr

/-- The message for an index that selects nothing. -/
def SelectorError.message : SelectorError → String
  | polarisation index => s!"Polarisation index must be 0 or 1, got {index}"
  | component index => s!"Dimension index must be 0 (real) or 1 (imaginary), got {index}"

namespace Polarisation

/-- Every polarisation, in the order of its axis. -/
def all : List Polarisation := [a, b]

/-- The position on the polarisation axis. -/
def index : Polarisation → Nat
  | a => 0
  | b => 1

/-- The text that a polarisation is shown as. -/
def text : Polarisation → String
  | a => "A"
  | b => "B"

/-- The polarisation at a position. -/
def ofIndex : Nat → Except SelectorError Polarisation
  | 0 => .ok a
  | 1 => .ok b
  | index => .error (.polarisation index)

end Polarisation

namespace Component

/-- Both components, in the order of their axis. -/
def all : List Component := [real, imag]

/-- The position on the component axis. -/
def index : Component → Nat
  | real => 0
  | imag => 1

/-- The text that a component is shown as. -/
def text : Component → String
  | real => "Real"
  | imag => "Imag"

/-- The component at a position. -/
def ofIndex : Nat → Except SelectorError Component
  | 0 => .ok real
  | 1 => .ok imag
  | index => .error (.component index)

end Component

namespace SeriesStatistic

/-- The statistics of a bin, in the order of their axis. -/
def all : List SeriesStatistic := [max, min, mean]

/-- The position on the last axis of a time series. -/
def index : SeriesStatistic → Nat
  | max => 0
  | min => 1
  | mean => 2

end SeriesStatistic

end VoltageStats
