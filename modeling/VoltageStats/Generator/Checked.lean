import VoltageStats.Generator.Generated

/-!
# Checked steps

`Config.reduceChecked` reduces samples of the configured shape in row-major order step by step, and
checks each step that can go wrong: that an index or a range lies within its axis, that a number
fits the word it is kept in, that nothing is divided by zero, that the limits of a value are in
order, and that the cells of an array can be addressed. The first step that goes wrong ends it. In
the same way `Config.statisticsChecked` puts generated statistics together with their header, and
checks what is asserted of them.
-/

namespace VoltageStats

open Arithmetic

/-- What can go wrong in a step. -/
inductive StepFault where
  /-- There is nothing at an index. -/
  | index
  /-- A range ends before it starts, or beyond the end of an axis. -/
  | range
  /-- A number does not fit its word. -/
  | overflow
  /-- A division by zero. -/
  | division
  /-- The lower limit of a value is above the upper one. -/
  | limits
  /-- An array has more cells than can be addressed. -/
  | volume
  /-- Something that is asserted is not the case. -/
  | assertion
  deriving DecidableEq, Repr

/-- What comes of steps that may go wrong. -/
abbrev Checked (α : Type) : Type := Except StepFault α

namespace Checked

variable {α : Type}

/-! ## Single steps -/

/-- A number in an unsigned word of 32 bits. -/
def word (n : Nat) : Checked Nat := if n < 2 ^ 32 then .ok n else .error .overflow

/-- A number in an unsigned word of 64 bits. -/
def size (n : Nat) : Checked Nat := if n < 2 ^ 64 then .ok n else .error .overflow

/-- A number in a signed word of 32 bits. -/
def signed (n : Int) : Checked Int :=
  if -2 ^ 31 ≤ n ∧ n < 2 ^ 31 then .ok n else .error .overflow

/-- The difference of two numbers in unsigned words. -/
def difference (a b : Nat) : Checked Nat := if a < b then .error .overflow else .ok (a - b)

/-- The quotient of two numbers. -/
def quotient (a b : Nat) : Checked Nat := if b = 0 then .error .division else .ok (a / b)

/-- A number brought between two limits. -/
def clamp (n low high : Int) : Checked Int :=
  if high < low then .error .limits else .ok (min (max n low) high)

/-- An index of an axis. -/
def axis (i length : Nat) : Checked Unit := if i < length then .ok () else .error .index

/-- The item at an index. -/
def get {n : Nat} (xs : Vector α n) (i : Nat) : Checked α :=
  match xs[i]? with
  | some x => .ok x
  | none => .error .index

/-- The items with the one at an index set. -/
def set {n : Nat} (xs : Vector α n) (i : Nat) (x : α) : Checked (Vector α n) :=
  if i < n then .ok (xs.setIfInBounds i x) else .error .index

/-- The cell at some indices. -/
def cell (t : Tensor α) (index : List Nat) : Checked α :=
  match t.get? index with
  | some x => .ok x
  | none => .error .index

/-- The items in a range. -/
def slice (xs : List α) (start stop : Nat) : Checked (List α) :=
  if start ≤ stop ∧ stop ≤ xs.length then .ok ((xs.drop start).take (stop - start))
  else .error .range

/-- An array that can be laid out. Axes without length do not count. -/
def addressable (shape : List Nat) : Checked Unit :=
  if volume (shape.filter (· ≠ 0)) < 2 ^ 63 then .ok () else .error .volume

/-- An assertion that a check is passed. -/
def passed {ε : Type} : Except ε Unit → Checked Unit
  | .ok () => .ok ()
  | .error _ => .error .assertion

/-- Counts with one more at an index. -/
def count {n : Nat} (counts : Vector Nat n) (i : Nat) : Checked (Vector Nat n) := do
  let before ← get counts i
  let _ ← word (before + 1)
  return increment counts i

/-- Counts of a square with one more at two indices. -/
def countAt {n : Nat} (counts : Vector Nat (volume [n, n])) (i j : Nat) :
    Checked (Vector Nat (volume [n, n])) := do
  axis i n
  axis j n
  count counts (i * n + j)

/-- The items of a bin, where each bin has the same number of them. -/
def block (xs : List α) (factor bin : Nat) : Checked (List α) := do
  let start ← size (bin * factor)
  let next ← size (bin + 1)
  let stop ← size (next * factor)
  slice xs start stop

/-- The sum of some counts. -/
def total (xs : List Nat) : Checked Nat := xs.foldlM (fun sum x => word (sum + x)) 0

/-- One cell for each component. -/
def componentCells (cell : Component → Checked α) :
    Checked (Vector α (volume [componentCount])) := do
  let real ← cell .real
  let imag ← cell .imag
  return #v[real, imag]

/-- One row of cells for each component. -/
def componentRows {n : Nat} (row : Component → Checked (Vector α n)) :
    Checked (Vector α (volume [componentCount, n])) := do
  let real ← row .real
  let imag ← row .imag
  return VoltageStats.componentRows fun | .real => real | .imag => imag

/-- A grid of cells. -/
def gridCells (n m : Nat) (cell : Nat → Nat → Checked α) : Checked (Vector α (volume [n, m])) :=
  Vector.ofFnM fun i => cell (i / m) (i % m)

/-! ## Moments -/

section

variable {R : Type} [Arithmetic R]

/-- The mean of some numbers, which are counted. -/
def mean (xs : List R) : Checked R := do
  let _ ← size xs.length
  return VoltageStats.mean xs

/-- The unbiased variance of some numbers. -/
def sampleVariance (xs : List R) : Checked R :=
  if xs.length < 2 then .ok undefined
  else do
    let center ← mean xs
    let degrees ← difference xs.length 1
    return sum (xs.map fun x => (x - center) * (x - center)) / ofCount degrees

end

end Checked

/-! ## Counting -/

namespace Config

variable (c : Config)

/-- The bin of a raw value in the histograms. -/
def binChecked (sample : Int) : Checked Nat := do
  let low ← Checked.signed (-c.nbitLimit)
  let offset ← Checked.signed (sample - low)
  -- A negative offset taken for an index is larger than every index.
  if offset < 0 then throw .index
  return offset.toNat

/-- The bin of a raw value in the rebinned histograms. -/
def rebinChecked (sample : Int) : Checked Nat := do
  let shifted ← Checked.signed (sample + c.rebinOffset)
  let last ← Checked.signed ((c.nrebin : Int).bmod (2 ^ 32) - 1)
  let bin ← Checked.clamp shifted 0 last
  return bin.toNat

/-- Whether a raw value is at an end of the range. -/
def isClippedChecked (sample : Int) : Checked Bool := do
  let low ← Checked.signed (-c.nbitLimit)
  let high ← Checked.signed (c.nbitLimit - 1)
  return sample ≤ low || high ≤ sample

/-- The rows for a component of a polarisation. -/
def place (pol : Polarisation) (component : Component) : Checked Unit := do
  Checked.axis pol.index c.settings.npol.toNat
  Checked.axis component.index c.settings.ndim.toNat

/-- Whether each channel is flagged. -/
def flagsChecked : Checked (Vector Bool c.nchan) :=
  c.nonRfiChannels.foldlM (fun flags channel => Checked.set flags channel false)
    (.replicate _ true)

/-- The samples of a channel. -/
def samplesChecked (raw : Tensor Int) (pol : Polarisation) (component : Component)
    (channel : Nat) : Checked (List Int) :=
  (List.range c.samplesPerChannel).mapM fun sample =>
    Checked.cell raw [pol.index, component.index, channel, sample]

/-- The samples of both components of a channel. -/
def pairsChecked (raw : Tensor Int) (pol : Polarisation) (channel : Nat) :
    Checked (List (Int × Int)) :=
  (List.range c.samplesPerChannel).mapM fun sample => do
    let re ← Checked.cell raw [pol.index, Component.real.index, channel, sample]
    let im ← Checked.cell raw [pol.index, Component.imag.index, channel, sample]
    return (re, im)

end Config

variable {c : Config}

/-- The histograms of a component with one more sample. -/
def Bins.addChecked (pol : Polarisation) (component : Component) (bins : Bins c) (sample : Int) :
    Checked (Bins c) := do
  c.place pol component
  let histogram ← Checked.count bins.histogram (← c.binChecked sample)
  let rebinned ← Checked.count bins.rebinned (← c.rebinChecked sample)
  return ⟨histogram, rebinned⟩

/-- The counts of a component with one more sample of a channel. -/
def SampleCounts.addChecked (pol : Polarisation) (component : Component) (channel : Nat)
    (counts : SampleCounts c) (sample : Int) : Checked (SampleCounts c) := do
  let bins ← counts.bins.addChecked pol component sample
  if ← c.isClippedChecked sample then
    let clipped ← Checked.count counts.clipped channel
    return ⟨bins, clipped⟩
  else return ⟨bins, counts.clipped⟩

/-- The counts with one more sample of both components, the real one first. -/
def PairCounts.addChecked (pol : Polarisation) (isFlagged : Bool) (counts : PairCounts c)
    (pair : Int × Int) : Checked (PairCounts c) := do
  Checked.axis pol.index c.settings.npol.toNat
  let re ← c.rebinChecked pair.1
  let im ← c.rebinChecked pair.2
  let joint ← Checked.countAt counts.joint re im
  if isFlagged then return { counts with joint }
  else
    let jointKept ← Checked.countAt counts.jointKept re im
    let realKept ← counts.realKept.addChecked pol .real pair.1
    let imagKept ← counts.imagKept.addChecked pol .imag pair.2
    return { joint, jointKept, realKept, imagKept }

namespace Config

variable (c : Config)

/-- The counts of the samples of a component. -/
def firstPass (raw : Tensor Int) (pol : Polarisation) (component : Component) :
    Checked (SampleCounts c) :=
  (List.range c.nchan).foldlM (fun counts channel => do
    let samples ← c.samplesChecked raw pol component channel
    samples.foldlM (SampleCounts.addChecked pol component channel) counts) (.zero c)

/-- The counts of the samples of both components together. -/
def secondPass (raw : Tensor Int) (pol : Polarisation) : Checked (PairCounts c) := do
  let flags ← c.flagsChecked
  (List.range c.nchan).foldlM (fun counts channel => do
    let pairs ← c.pairsChecked raw pol channel
    let isFlagged ← Checked.get flags channel
    pairs.foldlM (PairCounts.addChecked pol isFlagged) counts) (.zero c)

/-- What is counted in one polarisation. -/
def countsChecked (raw : Tensor Int) (pol : Polarisation) : Checked (BandCounts c) := do
  let real ← c.firstPass raw pol .real
  let imag ← c.firstPass raw pol .imag
  let pairs ← c.secondPass raw pol
  return { real, imag, pairs }

/-! ## Arrays -/

section

variable {R : Type} [Arithmetic R]

/-- The channels of one polarisation. -/
def bandChecked (raw : Tensor Int) (pol : Polarisation) : Checked (Vector (Channel R) c.nchan) :=
  Vector.ofFnM fun channel => do
    let real ← c.samplesChecked raw pol .real channel
    let imag ← c.samplesChecked raw pol .imag channel
    return .ofSamples (c.scale R) ⟨real, imag⟩

variable {n : Nat}

/-- The mean of the means of some channels. -/
def meanChecked (channels : List (Channel R)) (component : Component) : Checked R := do
  let means ← channels.mapM fun channel => Checked.mean (channel.voltages.get component)
  Checked.mean means

/-- The variance of all samples of some channels. -/
def varianceChecked (channels : List (Channel R)) (component : Component) : Checked R :=
  Checked.sampleVariance (channels.flatMap fun channel => channel.voltages.get component)

/-- The sum of the powers in a frequency bin and a temporal bin, in row-major order. -/
def blockPowerChecked (band : Vector (Channel R) n) (frequencyFactor timeFactor f t : Nat) :
    Checked R := do
  let channels ← Checked.block band.toList frequencyFactor f
  let lanes ← channels.mapM fun channel => Checked.block channel.powers timeFactor t
  if channels.length = 1 || channels.all fun channel => channel.powers.length = timeFactor then
    return laneSum lanes.flatten
  else return sum (lanes.map laneSum)

/-- The largest, least and mean power of some channels in a temporal bin. -/
def seriesChecked (channels : List (Channel R)) (timeFactor t : Nat) : Checked (Vector R 3) := do
  let lanes ← channels.mapM fun channel => Checked.block channel.powers timeFactor t
  let average ← Checked.mean lanes.flatten
  return #v[largest lanes.flatten, smallest lanes.flatten, average]

/-- The arrays of one polarisation, with what is counted in it and the numbers of channels and of
samples in each bin. -/
def rowChecked (band : Vector (Channel R) c.nchan) (counts : BandCounts c)
    (frequencyFactor timeFactor : Nat) : (key : DataKey) →
      Checked (Vector (key.kind.Element R Nat) (volume (c.rowShape c.nchan key))) :=
  let all : Checked (List (Channel R)) := (List.range c.nchan).mapM (Checked.get band)
  let kept : Checked (List (Channel R)) := c.nonRfiChannels.mapM (Checked.get band)
  let series (channels : List (Channel R)) : Checked (Vector R (volume [c.ntimeBins.toNat, 3])) :=
    Checked.gridCells c.ntimeBins.toNat 3 fun bin statistic => do
      Checked.get (← seriesChecked channels timeFactor bin) statistic
  fun
  | .meanFrequencyAvg => Checked.componentCells (meanChecked (R := R) band.toList)
  | .meanFrequencyAvgRfiExcised => do
    Checked.componentCells (meanChecked (R := R) (← kept))
  | .varianceFrequencyAvg => Checked.componentCells (varianceChecked (R := R) band.toList)
  | .varianceFrequencyAvgRfiExcised => do
    Checked.componentCells (varianceChecked (R := R) (← kept))
  | .meanSpectrum =>
    Checked.componentRows fun component =>
      Vector.ofFnM fun channel => Checked.mean (R := R) ((band.get channel).voltages.get component)
  | .varianceSpectrum =>
    Checked.componentRows fun component =>
      Vector.ofFnM fun channel =>
        Checked.sampleVariance (R := R) ((band.get channel).voltages.get component)
  | .meanSpectralPower => do
    let means ← Vector.ofFnM fun (channel : Fin c.nchan) =>
      Checked.mean (R := R) (band.get channel).powers
    return means.cast (by simp [rowShape, volume])
  | .maxSpectralPower =>
    return (band.map fun channel => largest (R := R) channel.powers).cast
      (by simp [rowShape, volume])
  | .histogram =>
    return VoltageStats.componentRows fun component => (counts.samples component).bins.histogram
  | .histogramRfiExcised =>
    return VoltageStats.componentRows fun component => (counts.pairs.kept component).histogram
  | .rebinnedHistogram2d => return counts.pairs.joint
  | .rebinnedHistogram2dRfiExcised => return counts.pairs.jointKept
  | .rebinnedHistogram =>
    return VoltageStats.componentRows fun component => (counts.samples component).bins.rebinned
  | .rebinnedHistogramRfiExcised =>
    return VoltageStats.componentRows fun component => (counts.pairs.kept component).rebinned
  | .numClippedSpectrum =>
    return VoltageStats.componentRows fun component => (counts.samples component).clipped
  | .numClipped =>
    Checked.componentCells fun component => Checked.total (counts.samples component).clipped.toList
  | .numClippedRfiExcised =>
    Checked.componentCells fun component => do
      Checked.total (← c.nonRfiChannels.mapM (Checked.get (counts.samples component).clipped))
  | .spectrogram =>
    Checked.gridCells c.nfreqBins.toNat c.ntimeBins.toNat
      (blockPowerChecked (R := R) band frequencyFactor timeFactor)
  | .timeseries => do series (← all)
  | .timeseriesRfiExcised => do series (← kept)

end

/-- The arrays of raw samples of the configured shape in row-major order. -/
def reduceChecked (R : Type) [Arithmetic R] (c : Config) (raw : Tensor Int) :
    Checked (StatArrays R Nat) := do
  let bandA ← c.bandChecked (R := R) raw .a
  let bandB ← c.bandChecked (R := R) raw .b
  let countsA ← c.countsChecked raw .a
  let countsB ← c.countsChecked raw .b
  let frequencyFactor ← Checked.quotient c.nchan c.nfreqBins.toNat
  let timeFactor ← Checked.quotient c.samplesPerChannel c.ntimeBins.toNat
  StatArrays.ofFnM fun key => do
    Checked.addressable (polarisationCount :: c.rowShape c.nchan key)
    let a ← c.rowChecked bandA countsA frequencyFactor timeFactor key
    let b ← c.rowChecked bandB countsB frequencyFactor timeFactor key
    return .ofPolarisations (c.rowShape c.nchan key) fun
      | .a => a
      | .b => b

/-! ## Statistics -/

/-- The header for generated statistics. Counts of samples have to fit their words. -/
def headerChecked (c : Config) (ids : ScanIdentifiers) (g : Generated) : Checked Metadata := do
  let nsamp := (UInt32.ofNat c.samplesPerChannel).toNat
  let _ ← Checked.word (c.nchan * nsamp)
  let _ ← Checked.word (c.nonRfiChannels.length * nsamp)
  return c.headerFor ids g

/-- Generated statistics with their header, which are asserted to fit together. -/
def statisticsChecked (c : Config) (ids : ScanIdentifiers) (g : Generated) :
    Checked Statistics := do
  let header ← c.headerChecked ids g
  Checked.passed header.validate
  Checked.passed (g.data.validate header)
  return ⟨header, g.data⟩

end Config

end VoltageStats
