import VoltageStats.Field
import VoltageStats.StatPath

/-!
# Options of the generator

The options say what is generated and where it is written. All may be left out. They are given on
the command line and in an argument file; `GivenOptions.orElse` says which of the two counts. From
the given options follow the settings, the scan identifiers and the path of the archive.
-/

namespace VoltageStats

/-- The options, in the order in which they are written. -/
inductive GeneratorOption where
  | output
  | statBase
  | obsOffset
  | fileNumber
  | ebId
  | telescope
  | scanId
  | beamId
  | utcStart
  | nchan
  | nsamp
  | nheap
  | nbit
  | nfreqBins
  | ntimeBins
  | nrebin
  | rfiChannels
  | sigma
  | freqMask
  | frequencyMhz
  | bandwidthMhz
  | startChan
  | tsamp
  | osFactor
  deriving DecidableEq, Repr

namespace GeneratorOption

/-- All options, in order. -/
def all : List GeneratorOption :=
  [output, statBase, obsOffset, fileNumber, ebId, telescope, scanId, beamId, utcStart, nchan, nsamp,
    nheap, nbit, nfreqBins, ntimeBins, nrebin, rfiChannels, sigma, freqMask, frequencyMhz,
    bandwidthMhz, startChan, tsamp, osFactor]

theorem mem_all (o : GeneratorOption) : o ∈ all := by cases o <;> simp [all]

/-- The name of an option in an argument file. -/
def name : GeneratorOption → String
  | output => "output"
  | statBase => "stat_base"
  | obsOffset => "obs_offset"
  | fileNumber => "file_number"
  | ebId => "eb_id"
  | telescope => "telescope"
  | scanId => "scan_id"
  | beamId => "beam_id"
  | utcStart => "utc_start"
  | nchan => "nchan"
  | nsamp => "nsamp"
  | nheap => "nheap"
  | nbit => "nbit"
  | nfreqBins => "nfreq_bins"
  | ntimeBins => "ntime_bins"
  | nrebin => "nrebin"
  | rfiChannels => "rfi_channels"
  | sigma => "sigma"
  | freqMask => "freq_mask"
  | frequencyMhz => "frequency_mhz"
  | bandwidthMhz => "bandwidth_mhz"
  | startChan => "start_chan"
  | tsamp => "tsamp"
  | osFactor => "os_factor"

/-- The type of the values of an option. -/
def kind : GeneratorOption → FieldKind
  | obsOffset | fileNumber | scanId => .word64
  | nchan | nsamp | nheap | nbit | nfreqBins | ntimeBins | nrebin | startChan => .word32
  | rfiChannels => .channels
  | sigma | frequencyMhz | bandwidthMhz | tsamp | osFactor => .double
  | output | statBase | ebId | telescope | beamId | utcStart | freqMask => .text

/-- The values of an option. -/
abbrev Value (o : GeneratorOption) : Type := o.kind.Value

end GeneratorOption

/-- The values of the options that are given. -/
structure GivenOptions where
  value? : (o : GeneratorOption) → Option o.Value

namespace GivenOptions

open GeneratorOption

@[ext]
theorem ext {a b : GivenOptions} (h : ∀ o, a.value? o = b.value? o) : a = b := by
  cases a
  cases b
  congr 1
  exact funext h

/-- No option is given. -/
def none : GivenOptions := ⟨fun _ => .none⟩

/-- The options with a value in the first place, or else in the second. -/
def orElse (first second : GivenOptions) : GivenOptions :=
  ⟨fun o => (first.value? o).or (second.value? o)⟩

@[simp]
theorem value?_orElse (first second : GivenOptions) (o : GeneratorOption) :
    (first.orElse second).value? o = (first.value? o).or (second.value? o) := rfl

/-- The options that are read one by one. Nothing is given if one of them cannot be read. -/
def collect? (read? : (o : GeneratorOption) → Option (Option o.Value)) : Option GivenOptions :=
  if all.all fun o => (read? o).isSome then some ⟨fun o => (read? o).join⟩ else .none

/-- The settings that follow from the given options. -/
def settings (given : GivenOptions) : Settings :=
  let d := Settings.default
  { npol := d.npol
    ndim := d.ndim
    nchan := (given.value? nchan).getD d.nchan
    nsamp := (given.value? nsamp).getD d.nsamp
    nheap := (given.value? nheap).getD d.nheap
    nbit := (given.value? nbit).getD d.nbit
    nfreqBins := (given.value? nfreqBins).getD d.nfreqBins
    ntimeBins := (given.value? ntimeBins).getD d.ntimeBins
    nrebin := (given.value? nrebin).getD d.nrebin
    sigma := (given.value? sigma).getD d.sigma
    freqMask := (given.value? freqMask).getD d.freqMask
    frequencyMhz := (given.value? frequencyMhz).getD d.frequencyMhz
    bandwidthMhz := (given.value? bandwidthMhz).getD d.bandwidthMhz
    startChan := (given.value? startChan).getD d.startChan
    tsamp := (given.value? tsamp).getD d.tsamp
    osFactor := (given.value? osFactor).getD d.osFactor
    rfiChannels := (given.value? rfiChannels).getD d.rfiChannels }

/-- The scan identifiers that follow from the given options. -/
def identifiers (given : GivenOptions) : ScanIdentifiers :=
  let d := ScanIdentifiers.default
  { ebId := (given.value? ebId).getD d.ebId
    telescope := (given.value? telescope).getD d.telescope
    scanId := (given.value? scanId).getD d.scanId
    beamId := (given.value? beamId).getD d.beamId
    utcStart := (given.value? utcStart).getD d.utcStart }

/-- The name of the archive that follows from the given options. -/
def archiveName (given : GivenOptions) : ArchiveName where
  utcStart := given.identifiers.utcStart
  obsOffset := (given.value? obsOffset).getD (0 : UInt64)
  fileNumber := (given.value? fileNumber).getD (0 : UInt64)

/-- What is known about the directory of the archive. Only identifiers that are given count,
apart from the telescope. -/
def directory (given : GivenOptions) : Except StatPathError ScanDirectory :=
  { ScanDirectory.unknown with
      basePath := given.value? statBase
      ebId := given.value? ebId
      scanId := (given.value? scanId).map fun (id : UInt64) => toString id : ScanDirectory
    }.withTelescope given.identifiers.telescope

/-- The path of the archive: the one that is given, or else the one for the scan. -/
def path (given : GivenOptions) : Except StatPathError String :=
  match given.value? output with
  | some path => .ok path
  | .none => do (← given.directory).path given.archiveName

end GivenOptions

end VoltageStats
