import VoltageStats.Metadata

/-!
# Statistics

The twenty arrays of a STAT archive, and their pairing with a header. `StatArrays` is the set of
arrays over any two types of elements, one for measured numbers and one for counts;
`StatArrays.get` finds the array of a key, and `StatArrays.ofFn` makes a set from an array for each
key (`StatArrays.get_ofFn`). `Statistics.ofParts` is the pairing that checks every shape.
-/

namespace VoltageStats

/-- The type of elements of one kind. -/
abbrev ElementKind.Element (R C : Type) : ElementKind → Type
  | .real => R
  | .count => C

/-- The arrays of a STAT archive. Axes are given in brackets. -/
structure StatArrays (R C : Type) where
  /-- Mean over all channels and samples [pol][dim]. -/
  meanFrequencyAvg : Tensor R
  meanFrequencyAvgRfiExcised : Tensor R
  /-- Variance over all channels and samples [pol][dim]. -/
  varianceFrequencyAvg : Tensor R
  varianceFrequencyAvgRfiExcised : Tensor R
  /-- Mean of each channel [pol][dim][chan]. -/
  meanSpectrum : Tensor R
  /-- Variance of each channel [pol][dim][chan]. -/
  varianceSpectrum : Tensor R
  /-- Mean power of each channel [pol][chan]. -/
  meanSpectralPower : Tensor R
  /-- Largest power of each channel [pol][chan]. -/
  maxSpectralPower : Tensor R
  /-- Counts of the raw values [pol][dim][bin]. -/
  histogram : Tensor C
  histogramRfiExcised : Tensor C
  /-- Joint counts of the rebinned values of both components [pol][real][imag]. -/
  rebinnedHistogram2d : Tensor C
  rebinnedHistogram2dRfiExcised : Tensor C
  /-- Counts of the rebinned values [pol][dim][bin]. -/
  rebinnedHistogram : Tensor C
  rebinnedHistogramRfiExcised : Tensor C
  /-- Samples at either end of the range, for each channel [pol][dim][chan]. -/
  numClippedSpectrum : Tensor C
  /-- Samples at either end of the range [pol][dim]. -/
  numClipped : Tensor C
  numClippedRfiExcised : Tensor C
  /-- Power summed into frequency and temporal bins [pol][frequency bin][temporal bin]. -/
  spectrogram : Tensor R
  /-- Largest, least and mean power of each temporal bin [pol][temporal bin][statistic]. -/
  timeseries : Tensor R
  timeseriesRfiExcised : Tensor R

/-- The arrays as an archive holds them. -/
abbrev Data := StatArrays Binary32 UInt32

namespace StatArrays

variable {R C R' C' : Type}

/-- The array of a key. -/
def get (d : StatArrays R C) : (key : DataKey) → Tensor (key.kind.Element R C)
  | .meanFrequencyAvg => d.meanFrequencyAvg
  | .meanFrequencyAvgRfiExcised => d.meanFrequencyAvgRfiExcised
  | .varianceFrequencyAvg => d.varianceFrequencyAvg
  | .varianceFrequencyAvgRfiExcised => d.varianceFrequencyAvgRfiExcised
  | .meanSpectrum => d.meanSpectrum
  | .varianceSpectrum => d.varianceSpectrum
  | .meanSpectralPower => d.meanSpectralPower
  | .maxSpectralPower => d.maxSpectralPower
  | .histogram => d.histogram
  | .histogramRfiExcised => d.histogramRfiExcised
  | .rebinnedHistogram2d => d.rebinnedHistogram2d
  | .rebinnedHistogram2dRfiExcised => d.rebinnedHistogram2dRfiExcised
  | .rebinnedHistogram => d.rebinnedHistogram
  | .rebinnedHistogramRfiExcised => d.rebinnedHistogramRfiExcised
  | .numClippedSpectrum => d.numClippedSpectrum
  | .numClipped => d.numClipped
  | .numClippedRfiExcised => d.numClippedRfiExcised
  | .spectrogram => d.spectrogram
  | .timeseries => d.timeseries
  | .timeseriesRfiExcised => d.timeseriesRfiExcised

/-- The set with the array of each key. -/
def ofFn (array : (key : DataKey) → Tensor (key.kind.Element R C)) : StatArrays R C where
  meanFrequencyAvg := array .meanFrequencyAvg
  meanFrequencyAvgRfiExcised := array .meanFrequencyAvgRfiExcised
  varianceFrequencyAvg := array .varianceFrequencyAvg
  varianceFrequencyAvgRfiExcised := array .varianceFrequencyAvgRfiExcised
  meanSpectrum := array .meanSpectrum
  varianceSpectrum := array .varianceSpectrum
  meanSpectralPower := array .meanSpectralPower
  maxSpectralPower := array .maxSpectralPower
  histogram := array .histogram
  histogramRfiExcised := array .histogramRfiExcised
  rebinnedHistogram2d := array .rebinnedHistogram2d
  rebinnedHistogram2dRfiExcised := array .rebinnedHistogram2dRfiExcised
  rebinnedHistogram := array .rebinnedHistogram
  rebinnedHistogramRfiExcised := array .rebinnedHistogramRfiExcised
  numClippedSpectrum := array .numClippedSpectrum
  numClipped := array .numClipped
  numClippedRfiExcised := array .numClippedRfiExcised
  spectrogram := array .spectrogram
  timeseries := array .timeseries
  timeseriesRfiExcised := array .timeseriesRfiExcised

@[simp] theorem get_ofFn (array : (key : DataKey) → Tensor (key.kind.Element R C))
    (key : DataKey) : (ofFn array).get key = array key := by
  cases key <;> rfl

/-- The first failure of finding an array, or all of them, looked up in the order in which an
archive holds them. -/
def ofFnM {ε : Type} (array : (key : DataKey) → Except ε (Tensor (key.kind.Element R C))) :
    Except ε (StatArrays R C) := do
  return {
    meanFrequencyAvg := ← array .meanFrequencyAvg
    meanFrequencyAvgRfiExcised := ← array .meanFrequencyAvgRfiExcised
    varianceFrequencyAvg := ← array .varianceFrequencyAvg
    varianceFrequencyAvgRfiExcised := ← array .varianceFrequencyAvgRfiExcised
    meanSpectrum := ← array .meanSpectrum
    varianceSpectrum := ← array .varianceSpectrum
    meanSpectralPower := ← array .meanSpectralPower
    maxSpectralPower := ← array .maxSpectralPower
    histogram := ← array .histogram
    histogramRfiExcised := ← array .histogramRfiExcised
    rebinnedHistogram2d := ← array .rebinnedHistogram2d
    rebinnedHistogram2dRfiExcised := ← array .rebinnedHistogram2dRfiExcised
    rebinnedHistogram := ← array .rebinnedHistogram
    rebinnedHistogramRfiExcised := ← array .rebinnedHistogramRfiExcised
    numClippedSpectrum := ← array .numClippedSpectrum
    numClipped := ← array .numClipped
    numClippedRfiExcised := ← array .numClippedRfiExcised
    spectrogram := ← array .spectrogram
    timeseries := ← array .timeseries
    timeseriesRfiExcised := ← array .timeseriesRfiExcised }

/-- An array with its elements changed according to their kind. -/
def mapElements (f : R → R') (g : C → C') :
    (kind : ElementKind) → Tensor (kind.Element R C) → Tensor (kind.Element R' C')
  | .real, t => Tensor.map f t
  | .count, t => Tensor.map g t

/-- The set with every measured number and every count changed. -/
def map (f : R → R') (g : C → C') (d : StatArrays R C) : StatArrays R' C' :=
  ofFn fun key => mapElements f g key.kind (d.get key)

/-- The shape of the array of a key. -/
def shapeOf (d : StatArrays R C) (key : DataKey) : List Nat := (d.get key).shape

/-- Checks the shape of every array against a header. -/
def validate (d : StatArrays R C) (m : Metadata) : Except StatsError Unit :=
  match DataKey.all.find? fun key => d.shapeOf key ≠ m.expectedShape key with
  | some key => throw (.badShape key.name (m.expectedShape key) (d.shapeOf key))
  | none => return ()

end StatArrays

/-- A header and the arrays that belong to it. -/
structure Statistics where
  metadata : Metadata
  data : Data

namespace Statistics

/-- A header and arrays that pass every check. -/
def ofParts (metadata : Metadata) (data : Data) : Except StatsError Statistics := do
  metadata.validate
  data.validate metadata
  return ⟨metadata, data⟩

end Statistics

end VoltageStats
