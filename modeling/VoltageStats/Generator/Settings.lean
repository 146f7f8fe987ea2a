import VoltageStats.Binary.Format
import VoltageStats.Decimal.Style
import VoltageStats.Metadata

/-!
# Settings of the generator

The settings say how many channels and samples of noise there are, how they are digitised, and
how they are reduced to statistics. `Settings.fault?` is the first check that they do not pass.
-/

namespace VoltageStats

/-- The settings of the generator. -/
structure Settings where
  npol : UInt32
  ndim : UInt32
  nchan : UInt32
  /-- The number of samples of each channel in a heap. -/
  nsamp : UInt32
  nheap : UInt32
  /-- The number of bits of a sample. -/
  nbit : UInt32
  /-- The number of frequency bins asked for. -/
  nfreqBins : UInt32
  /-- The number of temporal bins asked for. -/
  ntimeBins : UInt32
  /-- The number of bins of the rebinned histograms. -/
  nrebin : UInt32
  /-- The number of standard deviations in the positive half of the range of samples. -/
  sigma : Binary64
  /-- Recorded, but not used. -/
  freqMask : String
  frequencyMhz : Binary64
  bandwidthMhz : Binary64
  startChan : UInt32
  /-- The time of a sample in microseconds. -/
  tsamp : Binary64
  /-- Recorded, but not used. -/
  osFactor : Binary64
  /-- The channels that are flagged for interference, counted from zero. -/
  rfiChannels : List Nat
  deriving DecidableEq, Repr

/-- The settings where none are given. -/
def Settings.default : Settings where
  npol := 2
  ndim := 2
  nchan := 432
  nsamp := 32
  nheap := 1
  nbit := 16
  nfreqBins := 36
  ntimeBins := 4
  nrebin := 256
  sigma := .ofNat 3
  freqMask := ""
  frequencyMhz := .ofDecimal false 875 (-1)
  bandwidthMhz := .ofNat 75
  startChan := 0
  tsamp := .ofDecimal false 20736 (-2)
  osFactor := ⟨UInt64.ofNat (BinaryFormat.double.ofRatio false 4 3)⟩
  rfiChannels := []

/-- Why settings cannot be used. -/
inductive ConfigError where
  /-- The number of bits is none that samples have. -/
  | badBitCount (nbit : UInt32)
  /-- An axis has another length than it must have. -/
  | badAxisLength (name : String) (expected : Nat) (actual : UInt32)
  | zero (name : String)
  | notPositive (name : String) (value : Binary64)
  /-- A flagged channel is none of the channels. -/
  | flaggedChannelOutOfRange (channel : Nat) (nchan : UInt32)
  /-- The last channel number is too large. -/
  | channelOverflow (startChan nchan : UInt32)
  deriving DecidableEq, Repr

/-- The message for settings that cannot be used. -/
def ConfigError.message : ConfigError → String
  | badBitCount nbit => s!"nbit must be 8 or 16, but {nbit} was given"
  | badAxisLength name expected actual =>
    s!"{name} must be {expected} for PST voltage data, but {actual} was given"
  | zero name => s!"{name} must be greater than zero"
  | notPositive name value =>
    s!"{name} must be positive and finite, but " ++ NumberStyle.plain.write64 value ++ " was given"
  | flaggedChannelOutOfRange channel nchan =>
    s!"RFI-flagged channel index {channel} is out of range; there are only {nchan} channels"
  | channelOverflow startChan nchan =>
    s!"start_chan {startChan} with {nchan} channels runs past " ++
      "the largest representable channel number"

namespace Settings

/-- The axes with their lengths, and the lengths they must have. -/
def axisLengths (s : Settings) : List (String × Nat × UInt32) :=
  [("npol", polarisationCount, s.npol), ("ndim", componentCount, s.ndim)]

/-- The counts that must not be zero. -/
def counts (s : Settings) : List (String × UInt32) :=
  [("nchan", s.nchan), ("nsamp", s.nsamp), ("nheap", s.nheap), ("nfreq_bins", s.nfreqBins),
    ("ntime_bins", s.ntimeBins), ("nrebin", s.nrebin)]

/-- The quantities that must be finite and above zero. -/
def quantities (s : Settings) : List (String × Binary64) :=
  [("sigma", s.sigma), ("bandwidth_mhz", s.bandwidthMhz), ("tsamp", s.tsamp)]

/-- The first check that settings do not pass. -/
def fault? (s : Settings) : Option ConfigError :=
  if s.nbit ≠ 8 ∧ s.nbit ≠ 16 then some (.badBitCount s.nbit)
  else if let some (name, expected, actual) :=
      s.axisLengths.find? fun (_, expected, actual) => expected ≠ actual.toNat then
    some (.badAxisLength name expected actual)
  else if let some (name, _) := s.counts.find? fun (_, count) => count = 0 then some (.zero name)
  else if let some (name, value) := s.quantities.find? fun (_, value) => !value.isPositive then
    some (.notPositive name value)
  else if (checkedEndChan s.startChan s.nchan).isNone then
    some (.channelOverflow s.startChan s.nchan)
  else (s.rfiChannels.find? fun channel => s.nchan.toNat ≤ channel).map fun channel =>
    .flaggedChannelOutOfRange channel s.nchan

end Settings

end VoltageStats
