import VoltageStats.Generator.Generated

/-!
# Named fields

Headers, settings and scan identifiers are records of named fields. A `Field` gives access to one
of them; the lists of fields below are in the order in which the records are written.
-/

namespace VoltageStats

/-- The types of fields. -/
inductive FieldKind where
  | text
  | word32
  | word64
  | double
  | doubles
  | words
  /-- A list of channels, counted from zero. -/
  | channels
  deriving DecidableEq, Repr

/-- The values of fields of a type. -/
abbrev FieldKind.Value : FieldKind → Type
  | text => String
  | word32 => UInt32
  | word64 => UInt64
  | double => Binary64
  | doubles => Array Binary64
  | words => Array UInt32
  | channels => List Nat

/-- A named field of a record. -/
structure Field (α : Type) where
  name : String
  kind : FieldKind
  get : α → kind.Value
  set : α → kind.Value → α

/-- The fields of settings. -/
def Settings.fields : List (Field Settings) :=
  [⟨"npol", .word32, (·.npol), fun s x => { s with npol := x }⟩,
    ⟨"ndim", .word32, (·.ndim), fun s x => { s with ndim := x }⟩,
    ⟨"nchan", .word32, (·.nchan), fun s x => { s with nchan := x }⟩,
    ⟨"nsamp", .word32, (·.nsamp), fun s x => { s with nsamp := x }⟩,
    ⟨"nheap", .word32, (·.nheap), fun s x => { s with nheap := x }⟩,
    ⟨"nbit", .word32, (·.nbit), fun s x => { s with nbit := x }⟩,
    ⟨"nfreq_bins", .word32, (·.nfreqBins), fun s x => { s with nfreqBins := x }⟩,
    ⟨"ntime_bins", .word32, (·.ntimeBins), fun s x => { s with ntimeBins := x }⟩,
    ⟨"nrebin", .word32, (·.nrebin), fun s x => { s with nrebin := x }⟩,
    ⟨"sigma", .double, (·.sigma), fun s x => { s with sigma := x }⟩,
    ⟨"freq_mask", .text, (·.freqMask), fun s x => { s with freqMask := x }⟩,
    ⟨"frequency_mhz", .double, (·.frequencyMhz), fun s x => { s with frequencyMhz := x }⟩,
    ⟨"bandwidth_mhz", .double, (·.bandwidthMhz), fun s x => { s with bandwidthMhz := x }⟩,
    ⟨"start_chan", .word32, (·.startChan), fun s x => { s with startChan := x }⟩,
    ⟨"tsamp", .double, (·.tsamp), fun s x => { s with tsamp := x }⟩,
    ⟨"os_factor", .double, (·.osFactor), fun s x => { s with osFactor := x }⟩,
    ⟨"rfi_channels", .channels, (·.rfiChannels), fun s x => { s with rfiChannels := x }⟩]

/-- The fields of scan identifiers. -/
def ScanIdentifiers.fields : List (Field ScanIdentifiers) :=
  [⟨"eb_id", .text, (·.ebId), fun s x => { s with ebId := x }⟩,
    ⟨"telescope", .text, (·.telescope), fun s x => { s with telescope := x }⟩,
    ⟨"scan_id", .word64, (·.scanId), fun s x => { s with scanId := x }⟩,
    ⟨"beam_id", .text, (·.beamId), fun s x => { s with beamId := x }⟩,
    ⟨"utc_start", .text, (·.utcStart), fun s x => { s with utcStart := x }⟩]

/-- The fields of headers. -/
def Metadata.fields : List (Field Metadata) :=
  [⟨"file_format_version", .text, (·.fileFormatVersion),
      fun m x => { m with fileFormatVersion := x }⟩,
    ⟨"eb_id", .text, (·.ebId), fun m x => { m with ebId := x }⟩,
    ⟨"telescope", .text, (·.telescope), fun m x => { m with telescope := x }⟩,
    ⟨"scan_id", .word64, (·.scanId), fun m x => { m with scanId := x }⟩,
    ⟨"beam_id", .text, (·.beamId), fun m x => { m with beamId := x }⟩,
    ⟨"utc_start", .text, (·.utcStart), fun m x => { m with utcStart := x }⟩,
    ⟨"t_min", .double, (·.tMin), fun m x => { m with tMin := x }⟩,
    ⟨"t_max", .double, (·.tMax), fun m x => { m with tMax := x }⟩,
    ⟨"frequency_mhz", .double, (·.frequencyMhz), fun m x => { m with frequencyMhz := x }⟩,
    ⟨"bandwidth_mhz", .double, (·.bandwidthMhz), fun m x => { m with bandwidthMhz := x }⟩,
    ⟨"start_chan", .word32, (·.startChan), fun m x => { m with startChan := x }⟩,
    ⟨"npol", .word32, (·.npol), fun m x => { m with npol := x }⟩,
    ⟨"ndim", .word32, (·.ndim), fun m x => { m with ndim := x }⟩,
    ⟨"nchan", .word32, (·.nchan), fun m x => { m with nchan := x }⟩,
    ⟨"nchan_ds", .word32, (·.nchanDs), fun m x => { m with nchanDs := x }⟩,
    ⟨"ndat_ds", .word32, (·.ndatDs), fun m x => { m with ndatDs := x }⟩,
    ⟨"histogram_nbin", .word32, (·.histogramNbin), fun m x => { m with histogramNbin := x }⟩,
    ⟨"nrebin", .word32, (·.nrebin), fun m x => { m with nrebin := x }⟩,
    ⟨"channel_freq_mhz", .doubles, (·.channelFreqMhz), fun m x => { m with channelFreqMhz := x }⟩,
    ⟨"frequency_bins", .doubles, (·.frequencyBins), fun m x => { m with frequencyBins := x }⟩,
    ⟨"timeseries_bins", .doubles, (·.timeseriesBins), fun m x => { m with timeseriesBins := x }⟩,
    ⟨"num_samples", .word32, (·.numSamples), fun m x => { m with numSamples := x }⟩,
    ⟨"num_samples_rfi_excised", .word32, (·.numSamplesRfiExcised),
      fun m x => { m with numSamplesRfiExcised := x }⟩,
    ⟨"num_samples_spectrum", .words, (·.numSamplesSpectrum),
      fun m x => { m with numSamplesSpectrum := x }⟩,
    ⟨"num_invalid_packets", .word32, (·.numInvalidPackets),
      fun m x => { m with numInvalidPackets := x }⟩]

end VoltageStats
