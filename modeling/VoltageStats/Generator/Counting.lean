import VoltageStats.Generator.Config
import VoltageStats.Tensor

/-!
# Counting samples

The samples of a polarisation are counted in two passes. One goes through the samples of each
component by itself, channel after channel (`SampleCounts`). The other goes through the samples of
both components together, and passes over the flagged channels for the counts without interference
(`PairCounts`).
-/

namespace VoltageStats

/-- Counts with one more for a number, if that number is counted. -/
def increment {n : Nat} (counts : Vector Nat n) (i : Nat) : Vector Nat n :=
  ⟨counts.toArray.modify i (· + 1), by rw [Array.size_modify, counts.size_toArray]⟩

/-- The histograms of the samples of one component. -/
structure Bins (c : Config) where
  histogram : Vector Nat c.nbin
  rebinned : Vector Nat c.nrebin

namespace Bins

variable {c : Config}

/-- The histograms of no samples. -/
def zero (c : Config) : Bins c := ⟨.replicate _ 0, .replicate _ 0⟩

/-- The histograms with one more sample. -/
def add : Bins c → Int → Bins c
  | ⟨histogram, rebinned⟩, sample =>
    ⟨increment histogram (c.bin sample), increment rebinned (c.rebin sample)⟩

end Bins

/-- The counts of the samples of one component. -/
structure SampleCounts (c : Config) where
  bins : Bins c
  /-- The number of samples of each channel at the ends of the range. -/
  clipped : Vector Nat c.nchan

namespace SampleCounts

variable {c : Config}

/-- The counts of no samples. -/
def zero (c : Config) : SampleCounts c := ⟨.zero c, .replicate _ 0⟩

/-- The counts with one more sample of a channel. -/
def add (channel : Nat) : SampleCounts c → Int → SampleCounts c
  | ⟨bins, clipped⟩, sample =>
    ⟨bins.add sample, if c.isClipped sample then increment clipped channel else clipped⟩

/-- The counts with the samples of some channels, numbered from `first` on. -/
def addFrom (counts : SampleCounts c) (first : Nat) : List (List Int) → SampleCounts c
  | [] => counts
  | samples :: channels => (samples.foldl (add first) counts).addFrom (first + 1) channels

/-- The counts of the samples of all channels. -/
def ofChannels (c : Config) (channels : List (List Int)) : SampleCounts c :=
  (zero c).addFrom 0 channels

/-- The number of clipped samples of all channels. -/
def clippedTotal (counts : SampleCounts c) : Nat := counts.clipped.foldl (· + ·) 0

/-- The number of clipped samples of some channels. -/
def clippedIn (counts : SampleCounts c) (channels : List Nat) : Nat :=
  (channels.map fun i => (counts.clipped[i]?).getD 0).foldl (· + ·) 0

end SampleCounts

/-- Whether each channel is flagged. -/
def Config.flags (c : Config) : Vector Bool c.nchan :=
  c.nonRfiChannels.foldl (fun flags channel => flags.setIfInBounds channel false)
    (.replicate _ true)

/-- The bin of a pair of raw values in the joint histograms, the real one first. -/
def Config.jointBin (c : Config) (re im : Int) : Nat := c.rebin re * c.nrebin + c.rebin im

/-- The counts of the samples of both components together. -/
structure PairCounts (c : Config) where
  joint : Vector Nat (volume [c.nrebin, c.nrebin])
  /-- The counts without interference. -/
  jointKept : Vector Nat (volume [c.nrebin, c.nrebin])
  realKept : Bins c
  imagKept : Bins c

namespace PairCounts

variable {c : Config}

/-- The counts of no samples. -/
def zero (c : Config) : PairCounts c := ⟨.replicate _ 0, .replicate _ 0, .zero c, .zero c⟩

/-- The counts with one more sample of both components, the real one first. In a flagged channel
there is interference. -/
def add (isFlagged : Bool) : PairCounts c → Int × Int → PairCounts c
  | ⟨joint, jointKept, realKept, imagKept⟩, (re, im) =>
    let bin := c.jointBin re im
    if isFlagged then ⟨increment joint bin, jointKept, realKept, imagKept⟩
    else ⟨increment joint bin, increment jointKept bin, realKept.add re, imagKept.add im⟩

/-- The counts with the samples of some channels. -/
def addChannels (flags : Vector Bool c.nchan) (pairs : Nat → List (Int × Int)) :
    PairCounts c → List Nat → PairCounts c
  | counts, [] => counts
  | counts, channel :: channels =>
    addChannels flags pairs
      ((pairs channel).foldl (add ((flags[channel]?).getD true)) counts) channels

/-- The counts of the samples of the configured channels. -/
def ofChannels (c : Config) (pairs : Nat → List (Int × Int)) : PairCounts c :=
  addChannels c.flags pairs (zero c) (List.range c.nchan)

/-- The histograms of a component without interference. -/
def kept (counts : PairCounts c) : Component → Bins c
  | .real => counts.realKept
  | .imag => counts.imagKept

end PairCounts

/-- What is counted in one polarisation. -/
structure BandCounts (c : Config) where
  real : SampleCounts c
  imag : SampleCounts c
  pairs : PairCounts c

/-- The counts of the samples of a component. -/
def BandCounts.samples {c : Config} (counts : BandCounts c) : Component → SampleCounts c
  | .real => counts.real
  | .imag => counts.imag

end VoltageStats
