import VoltageStats.Binary.Arithmetic
import VoltageStats.Decimal.Style
import VoltageStats.Json.Record
import VoltageStats.Statistics

/-!
# Views

A view lists the cells of some arrays as rows, each with the labels of its place. Rows come in the
order polarisation, component, with and without interference (with comes first), and then the
view's own axis. A `Selection` leaves out rows: what it does not name is all there, and what it
names but a view does not have makes no difference. A view has no value if an array or a label
has no cell for one of the rows.
-/

namespace VoltageStats

/-- What a view is confined to. -/
structure Selection where
  pol : Option Polarisation
  dim : Option Component
  rfiExcised : Option Bool
  deriving DecidableEq, Repr

namespace Selection

/-- Everything. -/
def all : Selection := ⟨none, none, none⟩

/-- The selected polarisations. -/
def pols (sel : Selection) : List Polarisation :=
  match sel.pol with
  | some pol => [pol]
  | none => Polarisation.all

/-- The selected components. -/
def dims (sel : Selection) : List Component :=
  match sel.dim with
  | some dim => [dim]
  | none => Component.all

/-- The selected variants: with channels that have interference, and without. -/
def flags (sel : Selection) : List Bool :=
  match sel.rfiExcised with
  | some flag => [flag]
  | none => [false, true]

/-- The selected polarisations, components and variants, in order. -/
def triples (sel : Selection) : List (Polarisation × Component × Bool) :=
  sel.pols.flatMap fun pol => sel.dims.flatMap fun dim => sel.flags.map fun flag => (pol, dim, flag)

/-- The selected polarisations and components, in order. -/
def components (sel : Selection) : List (Polarisation × Component) :=
  sel.pols.flatMap fun pol => sel.dims.map fun dim => (pol, dim)

/-- The selected polarisations and variants, in order. -/
def variants (sel : Selection) : List (Polarisation × Bool) :=
  sel.pols.flatMap fun pol => sel.flags.map fun flag => (pol, flag)

/-- The selection of a polarisation and a component by their positions. -/
def ofIndices (pol dim : Option Nat) (rfiExcised : Option Bool) :
    Except SelectorError Selection := do
  let pol ← pol.mapM Polarisation.ofIndex
  let dim ← dim.mapM Component.ofIndex
  return ⟨pol, dim, rfiExcised⟩

end Selection

/-- A value of the header. -/
inductive HeaderValue where
  | text (value : String)
  | count (value : Nat)
  | number (value : Binary64)
  | numbers (values : Array Binary64)
  | counts (values : Array UInt32)
  deriving DecidableEq, Repr

namespace HeaderValue

/-- The items of a list as they are shown. -/
def listText (items : List String) : String := "[" ++ ", ".intercalate items ++ "]"

/-- A value as it is shown. -/
def toText : HeaderValue → String
  | text value => value
  | count value => toString value
  | number value => NumberStyle.plain.write64 value
  | numbers values => listText (values.toList.map NumberStyle.listed.write64)
  | counts values => listText (values.toList.map fun n => toString n)

/-- A value in JSON. -/
def toJson : HeaderValue → String
  | text value => JsonText.quoted value
  | count value => toString value
  | number value => JsonText.double value
  | numbers values => JsonText.array (values.toList.map JsonText.double)
  | counts values => JsonText.array (values.toList.map fun n => toString n)

end HeaderValue

/-- The value of a header key. -/
def Metadata.value (m : Metadata) : HeaderKey → HeaderValue
  | .fileFormatVersion => .text m.fileFormatVersion
  | .ebId => .text m.ebId
  | .telescope => .text m.telescope
  | .scanId => .count m.scanId.toNat
  | .beamId => .text m.beamId
  | .utcStart => .text m.utcStart
  | .tMin => .number m.tMin
  | .tMax => .number m.tMax
  | .freq => .number m.frequencyMhz
  | .bw => .number m.bandwidthMhz
  | .startChan => .count m.startChan.toNat
  | .endChan => .count m.endChan.toNat
  | .npol => .count m.npol.toNat
  | .ndim => .count m.ndim.toNat
  | .nchan => .count m.nchan.toNat
  | .nchanDs => .count m.nchanDs.toNat
  | .ndatDs => .count m.ndatDs.toNat
  | .nbinHist => .count m.histogramNbin.toNat
  | .nrebin => .count m.nrebin.toNat
  | .chanFreq => .numbers m.channelFreqMhz
  | .frequencyBins => .numbers m.frequencyBins
  | .timeseriesBins => .numbers m.timeseriesBins
  | .numSamples => .count m.numSamples.toNat
  | .numSamplesRfiExcised => .count m.numSamplesRfiExcised.toNat
  | .numSamplesSpectrum => .counts m.numSamplesSpectrum
  | .numInvalidPackets => .count m.numInvalidPackets.toNat

/-- A header key with its value. -/
structure HeaderRow where
  key : HeaderKey
  value : HeaderValue
  deriving DecidableEq, Repr

/-- The statistics over all channels. -/
structure FrequencyAveragedRow where
  pol : Polarisation
  dim : Component
  rfiExcised : Bool
  mean : Binary32
  variance : Binary32
  numClippedSamples : UInt32
  deriving DecidableEq, Repr

/-- The statistics of a channel, under its number. -/
structure ChannelRow where
  channel : UInt32
  pol : Polarisation
  dim : Component
  channelFreqMhz : Binary64
  mean : Binary32
  variance : Binary32
  numClippedSamples : UInt32
  deriving DecidableEq, Repr

/-- The power of a channel, under its number. -/
structure SpectralPowerRow where
  channel : UInt32
  pol : Polarisation
  channelFreqMhz : Binary64
  mean : Binary32
  max : Binary32
  deriving DecidableEq, Repr

/-- How often a raw value occurs. -/
structure HistogramRow where
  pol : Polarisation
  dim : Component
  rfiExcised : Bool
  value : Int
  count : UInt32
  deriving DecidableEq, Repr

/-- How often a rebinned value occurs. -/
structure RebinnedHistogramRow where
  pol : Polarisation
  dim : Component
  rfiExcised : Bool
  bin : Nat
  count : UInt32
  deriving DecidableEq, Repr

/-- How often pairs of rebinned values of both components occur, the real one first. -/
structure JointHistogram where
  pol : Polarisation
  rfiExcised : Bool
  counts : List (List UInt32)
  deriving DecidableEq, Repr

/-- The power in frequency and temporal bins, with their labels. -/
structure Spectrogram where
  pol : Polarisation
  frequencyBins : Array Binary64
  timeseriesBins : Array Binary64
  power : List (List Binary32)
  deriving DecidableEq, Repr

/-- The power in a temporal bin. -/
structure TimeseriesRow where
  pol : Polarisation
  rfiExcised : Bool
  bin : Nat
  /-- The centre of the bin as an offset from the start of the scan. -/
  timeOffset : Binary64
  max : Binary32
  min : Binary32
  mean : Binary32
  deriving DecidableEq, Repr

namespace Tensor

variable {α : Type}

/-- The cells below an index tuple along the axis after it. -/
def line? (t : Tensor α) (index : List Nat) : Option (List α) := do
  (List.range (← t.shape[index.length]?)).mapM fun i => t.get? (index ++ [i])

/-- The lines below an index tuple along the axis after it. -/
def plane? (t : Tensor α) (index : List Nat) : Option (List (List α)) := do
  (List.range (← t.shape[index.length]?)).mapM fun i => t.line? (index ++ [i])

end Tensor

namespace Statistics

/-- The header. -/
def header (s : Statistics) : List HeaderRow :=
  HeaderKey.shown.map fun key => ⟨key, s.metadata.value key⟩

/-- The means, variances and numbers of clipped samples over all channels. -/
def frequencyAveraged (s : Statistics) (sel : Selection) : Option (List FrequencyAveragedRow) :=
  sel.triples.mapM fun (pol, dim, flag) => do
    let d := s.data
    let index := [pol.index, dim.index]
    let mean ← (if flag then d.meanFrequencyAvgRfiExcised else d.meanFrequencyAvg).get? index
    let variance ←
      (if flag then d.varianceFrequencyAvgRfiExcised else d.varianceFrequencyAvg).get? index
    let clipped ← (if flag then d.numClippedRfiExcised else d.numClipped).get? index
    return ⟨pol, dim, flag, mean, variance, clipped⟩

/-- The numbers of channels with their positions. -/
def channels (s : Statistics) : List (Nat × UInt32) :=
  (List.range s.metadata.nchan.toNat).map fun i => (i, s.metadata.startChan + UInt32.ofNat i)

/-- The mean, the variance and the number of clipped samples of each channel. -/
def channelStats (s : Statistics) (sel : Selection) : Option (List ChannelRow) := do
  let rows ← sel.components.mapM fun (pol, dim) =>
    s.channels.mapM fun (i, channel) => do
      let index := [pol.index, dim.index, i]
      return (⟨channel, pol, dim, ← s.metadata.channelFreqMhz[i]?,
        ← s.data.meanSpectrum.get? index, ← s.data.varianceSpectrum.get? index,
        ← s.data.numClippedSpectrum.get? index⟩ : ChannelRow)
  return rows.flatten

/-- The mean and the largest power of each channel. -/
def spectralPower (s : Statistics) (sel : Selection) : Option (List SpectralPowerRow) := do
  let rows ← sel.pols.mapM fun pol =>
    s.channels.mapM fun (i, channel) => do
      let index := [pol.index, i]
      return (⟨channel, pol, ← s.metadata.channelFreqMhz[i]?,
        ← s.data.meanSpectralPower.get? index,
        ← s.data.maxSpectralPower.get? index⟩ : SpectralPowerRow)
  return rows.flatten

/-- How often each raw value occurs. -/
def histogram (s : Statistics) (sel : Selection) : Option (List HistogramRow) := do
  let rows ← sel.triples.mapM fun (pol, dim, flag) => do
    let array := if flag then s.data.histogramRfiExcised else s.data.histogram
    let counts ← array.line? [pol.index, dim.index]
    return counts.zipIdx.map fun (count, i) =>
      (⟨pol, dim, flag, s.metadata.clipLow + i, count⟩ : HistogramRow)
  return rows.flatten

/-- How often each rebinned value occurs. -/
def rebinnedHistogram (s : Statistics) (sel : Selection) : Option (List RebinnedHistogramRow) := do
  let rows ← sel.triples.mapM fun (pol, dim, flag) => do
    let array := if flag then s.data.rebinnedHistogramRfiExcised else s.data.rebinnedHistogram
    let counts ← array.line? [pol.index, dim.index]
    return counts.zipIdx.map fun (count, bin) =>
      (⟨pol, dim, flag, bin, count⟩ : RebinnedHistogramRow)
  return rows.flatten

/-- How often each pair of rebinned values of both components occurs. -/
def jointHistogram (s : Statistics) (sel : Selection) : Option (List JointHistogram) :=
  sel.variants.mapM fun (pol, flag) => do
    let array := if flag then s.data.rebinnedHistogram2dRfiExcised else s.data.rebinnedHistogram2d
    return ⟨pol, flag, ← array.plane? [pol.index]⟩

/-- The power in frequency and temporal bins. -/
def spectrogram (s : Statistics) (sel : Selection) : Option (List Spectrogram) :=
  sel.pols.mapM fun pol => do
    return ⟨pol, s.metadata.frequencyBins, s.metadata.timeseriesBins,
      ← s.data.spectrogram.plane? [pol.index]⟩

/-- The largest, least and mean power in each temporal bin. -/
def timeseries (s : Statistics) (sel : Selection) : Option (List TimeseriesRow) := do
  let rows ← sel.variants.mapM fun (pol, flag) =>
    s.metadata.timeseriesBins.toList.zipIdx.mapM fun (label, bin) => do
      let array := if flag then s.data.timeseriesRfiExcised else s.data.timeseries
      let statistic (k : SeriesStatistic) := array.get? [pol.index, bin, k.index]
      return (⟨pol, flag, bin, s.metadata.tMin + label, ← statistic .max, ← statistic .min,
        ← statistic .mean⟩ : TimeseriesRow)
  return rows.flatten

end Statistics

/-- A header row in JSON. -/
def HeaderRow.toJson (row : HeaderRow) : String :=
  JsonText.object [("key", JsonText.quoted row.key.name), ("value", row.value.toJson)]

/-- The JSON members that say where a row belongs. -/
def polMember (pol : Polarisation) : String × String := ("pol", JsonText.quoted pol.text)

/-- The JSON member for the component of a row. -/
def dimMember (dim : Component) : String × String := ("dim", JsonText.quoted dim.text)

/-- The JSON member for the variant of a row. -/
def flagMember (flag : Bool) : String × String := ("rfi_excised", JsonText.boolean flag)

/-- A row in JSON. -/
def FrequencyAveragedRow.toJson (row : FrequencyAveragedRow) : String :=
  JsonText.object [polMember row.pol, dimMember row.dim, flagMember row.rfiExcised,
    ("mean", JsonText.single row.mean), ("variance", JsonText.single row.variance),
    ("num_clipped_samples", toString row.numClippedSamples)]

/-- A row in JSON. -/
def ChannelRow.toJson (row : ChannelRow) : String :=
  JsonText.object [("channel", toString row.channel), polMember row.pol, dimMember row.dim,
    ("channel_freq_mhz", JsonText.double row.channelFreqMhz), ("mean", JsonText.single row.mean),
    ("variance", JsonText.single row.variance),
    ("num_clipped_samples", toString row.numClippedSamples)]

/-- A row in JSON. -/
def SpectralPowerRow.toJson (row : SpectralPowerRow) : String :=
  JsonText.object [("channel", toString row.channel), polMember row.pol,
    ("channel_freq_mhz", JsonText.double row.channelFreqMhz), ("mean", JsonText.single row.mean),
    ("max", JsonText.single row.max)]

/-- A row in JSON. -/
def HistogramRow.toJson (row : HistogramRow) : String :=
  JsonText.object [polMember row.pol, dimMember row.dim, flagMember row.rfiExcised,
    ("value", toString row.value), ("count", toString row.count)]

/-- A row in JSON. -/
def RebinnedHistogramRow.toJson (row : RebinnedHistogramRow) : String :=
  JsonText.object [polMember row.pol, dimMember row.dim, flagMember row.rfiExcised,
    ("bin", toString row.bin), ("count", toString row.count)]

/-- A row in JSON. -/
def TimeseriesRow.toJson (row : TimeseriesRow) : String :=
  JsonText.object [polMember row.pol, flagMember row.rfiExcised, ("bin", toString row.bin),
    ("time_offset", JsonText.double row.timeOffset), ("max", JsonText.single row.max),
    ("min", JsonText.single row.min), ("mean", JsonText.single row.mean)]

end VoltageStats
