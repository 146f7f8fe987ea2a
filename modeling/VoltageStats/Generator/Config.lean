import VoltageStats.Binary.Arithmetic
import VoltageStats.Generator.Settings

/-!
# Configurations of the generator

A configuration is made from settings that pass every check; its flagged channels are in ascending
order, each once. From them follow the range of samples, the numbers of bins that are used, and
the channels that are left when the flagged ones are taken out.
-/

namespace VoltageStats

/-! ## Bin counts

Items are divided evenly into bins. The number of bins that is asked for is raised until it divides
the number of items. -/

/-- The largest divisor of a number up to a bound, and one if there is none. -/
def largestDivisorUpTo (n : Nat) : (bound : Nat) → Nat
  | 0 => 1
  | bound + 1 => if n % (bound + 1) = 0 then bound + 1 else largestDivisorUpTo n bound

/-- The number of bins for some items: as many as are asked for if that divides the items, and
otherwise as many as hold the most items each that still give the bins asked for. Asking for none,
or for more than there are items, gives each item a bin of its own. -/
def binCount (items requested : Nat) : Nat :=
  if requested = 0 then items
  else if items % requested = 0 then requested
  else items / largestDivisorUpTo items (items / requested)

/-! ## Flagged channels -/

/-- A channel put into an ascending list, unless it is there. -/
def insertAscending (channel : Nat) : List Nat → List Nat
  | [] => [channel]
  | c :: channels =>
    if channel < c then channel :: c :: channels
    else if channel = c then c :: channels
    else c :: insertAscending channel channels

theorem mem_insertAscending {a channel : Nat} {channels : List Nat} :
    a ∈ insertAscending channel channels ↔ a = channel ∨ a ∈ channels := by
  induction channels with
  | nil => simp [insertAscending]
  | cons c channels ih =>
    rw [insertAscending]
    split
    · simp
    · split
      · simp_all
      · simp only [List.mem_cons, ih]
        grind

theorem pairwise_insertAscending {channel : Nat} {channels : List Nat}
    (h : channels.Pairwise (· < ·)) : (insertAscending channel channels).Pairwise (· < ·) := by
  induction channels with
  | nil => simp [insertAscending]
  | cons c channels ih =>
    rw [insertAscending]
    have ⟨hc, hrest⟩ := List.pairwise_cons.mp h
    split
    · refine List.pairwise_cons.mpr ⟨?_, h⟩
      intro a ha
      rcases List.mem_cons.mp ha with rfl | ha
      · assumption
      · exact Nat.lt_trans ‹_› (hc a ha)
    · split
      · exact h
      · refine List.pairwise_cons.mpr ⟨?_, ih hrest⟩
        intro a ha
        rcases mem_insertAscending.mp ha with rfl | ha
        · omega
        · exact hc a ha

/-- The members of a list in ascending order, each once. -/
def ascending (channels : List Nat) : List Nat := channels.foldr insertAscending []

theorem mem_ascending {a : Nat} {channels : List Nat} : a ∈ ascending channels ↔ a ∈ channels := by
  induction channels with
  | nil => simp [ascending]
  | cons c channels ih =>
    rw [show ascending (c :: channels) = insertAscending c (ascending channels) from rfl,
      mem_insertAscending, ih, List.mem_cons]

theorem pairwise_ascending (channels : List Nat) : (ascending channels).Pairwise (· < ·) := by
  induction channels with
  | nil => simp [ascending]
  | cons c channels ih => exact pairwise_insertAscending ih

/-- Settings that pass every check. -/
structure Config where
  settings : Settings
  fault?_eq_none : settings.fault? = none
  pairwise_rfiChannels : settings.rfiChannels.Pairwise (· < ·)

namespace Config

/-- The configuration for some settings. -/
def ofSettings (s : Settings) : Except ConfigError Config :=
  let settings := { s with rfiChannels := ascending s.rfiChannels }
  match h : settings.fault? with
  | some error => .error error
  | none => .ok ⟨settings, h, pairwise_ascending s.rfiChannels⟩

/-- The number of channels. -/
def nchan (c : Config) : Nat := c.settings.nchan.toNat

/-- The number of bins of the rebinned histograms. -/
def nrebin (c : Config) : Nat := c.settings.nrebin.toNat

/-- The number of samples of each channel. -/
def samplesPerChannel (c : Config) : Nat := c.settings.nheap.toNat * c.settings.nsamp.toNat

/-- The number of frequency bins. -/
def nfreqBins (c : Config) : UInt32 :=
  UInt32.ofNat (binCount c.nchan c.settings.nfreqBins.toNat)

/-- The number of temporal bins. It is cut to a word, and so is zero for some huge numbers of
samples. -/
def ntimeBins (c : Config) : UInt32 :=
  UInt32.ofNat (binCount c.samplesPerChannel c.settings.ntimeBins.toNat)

/-- Half the number of raw values. -/
def nbitLimit (c : Config) : Nat := 2 ^ (c.settings.nbit.toNat - 1)

/-- The least raw value. -/
def clipLow (c : Config) : Int := -c.nbitLimit

/-- The largest raw value. -/
def clipHigh (c : Config) : Int := c.nbitLimit - 1

/-- The number of raw values, each of which has a bin in the histograms. -/
def nbin (c : Config) : Nat := 2 ^ c.settings.nbit.toNat

/-- What is added to a raw value before it is rebinned. -/
def rebinOffset (c : Config) : Int := (c.nrebin / 2 : Nat)

/-- The last bin of the rebinned histograms, as a signed word. -/
def rebinMax (c : Config) : Int := ((c.nrebin : Int) - 1).bmod (2 ^ 32)

/-- The bin of a raw value in the rebinned histograms. -/
def rebin (c : Config) (sample : Int) : Nat :=
  (min (max (sample + c.rebinOffset) 0) c.rebinMax).toNat

/-- The bin of a raw value in the histograms. -/
def bin (c : Config) (sample : Int) : Nat := (sample - c.clipLow).toNat

/-- Whether a raw value is at an end of the range. -/
def isClipped (c : Config) (sample : Int) : Bool := sample ≤ c.clipLow || c.clipHigh ≤ sample

/-- The number of channels in each frequency bin. -/
def freqBinFactor (c : Config) : Nat := c.nchan / c.nfreqBins.toNat

/-- The number of samples in each temporal bin, unless there are no bins. -/
def temporalBinFactor? (c : Config) : Option Nat :=
  if c.ntimeBins = 0 then none else some (c.samplesPerChannel / c.ntimeBins.toNat)

/-- The number of samples in each temporal bin. -/
def temporalBinFactor (c : Config) : Nat := c.samplesPerChannel / c.ntimeBins.toNat

/-- The channels that are not flagged. -/
def nonRfiChannels (c : Config) : List Nat :=
  (List.range c.nchan).filter fun channel => !c.settings.rfiChannels.contains channel

section

variable (R : Type) [Arithmetic R]

/-- The width of a level, in standard deviations. -/
def scale (c : Config) : R :=
  Arithmetic.ofDouble c.settings.sigma / Arithmetic.ofCount c.nbitLimit

/-- The time of a sample in seconds. -/
def sampleTime (c : Config) : R :=
  Arithmetic.ofDouble c.settings.tsamp * Arithmetic.ofDouble (Binary64.ofDecimal false 1 (-6))

/-- The time of all samples of a channel in seconds. -/
def totalTime (c : Config) : R := c.sampleTime R * Arithmetic.ofCount c.samplesPerChannel

/-- The lower end of the band. -/
def lowFrequency (c : Config) : R :=
  Arithmetic.ofDouble c.settings.frequencyMhz -
    Arithmetic.ofDouble c.settings.bandwidthMhz / Arithmetic.ofCount 2

end

/-- What is said about bin counts that are not those asked for. -/
def warnings (c : Config) : List String :=
  let frequency :=
    if c.nfreqBins = c.settings.nfreqBins then []
    else [s!"{c.settings.nfreqBins} frequency bins don't evenly divide {c.nchan} channels; " ++
      s!"using {c.nfreqBins}"]
  let temporal :=
    if c.ntimeBins = c.settings.ntimeBins then []
    else [s!"{c.settings.ntimeBins} temporal bins don't evenly divide {c.samplesPerChannel} " ++
      s!"samples; using {c.ntimeBins}"]
  frequency ++ temporal

end Config

end VoltageStats
