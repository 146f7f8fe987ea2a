import VoltageStats.Header.Codec

/-!
# The header record

The header of an archive is one record of fields in a fixed order; the format version is kept
apart from it. The legacy record ends after the axis labels, the extended one goes on with the
sample counts. Headers are written in the extended layout (`Record.encode`) and read in both
(`Record.decode`), with `Record.layout` and `Record.extension` for the fields in the order in which
they are read.
-/

namespace VoltageStats.Record

/-- The values of a legacy record, in order. -/
abbrev Fields : Type :=
  String × String × UInt64 × String × String ×
    Binary64 × Binary64 × Binary64 × Binary64 ×
    UInt32 × UInt32 × UInt32 × UInt32 × UInt32 × UInt32 × UInt32 × UInt32 ×
    Array Binary64 × Array Binary64 × Array Binary64

/-- The sample counts at the end of an extended record. -/
abbrev Extension : Type := UInt32 × UInt32 × Array UInt32 × UInt32

/-- The fields of a legacy record. -/
def layout : Codec Fields :=
  (Codec.text .ebId).andThen <| (Codec.text .telescope).andThen <|
  (Codec.word64 .scanId).andThen <| (Codec.text .beamId).andThen <|
  (Codec.text .utcStart).andThen <| (Codec.double .tMin).andThen <|
  (Codec.double .tMax).andThen <| (Codec.double .freq).andThen <|
  (Codec.double .bw).andThen <| (Codec.word32 .startChan).andThen <|
  (Codec.word32 .npol).andThen <| (Codec.word32 .ndim).andThen <|
  (Codec.word32 .nchan).andThen <| (Codec.word32 .nchanDs).andThen <|
  (Codec.word32 .ndatDs).andThen <| (Codec.word32 .nbinHist).andThen <|
  (Codec.word32 .nrebin).andThen <| (Codec.doubles .chanFreq).andThen <|
  (Codec.doubles .frequencyBins).andThen (Codec.doubles .timeseriesBins)

/-- The fields that an extended record has after those. -/
def extension : Codec Extension :=
  (Codec.word32 .numSamples).andThen <| (Codec.word32 .numSamplesRfiExcised).andThen <|
  (Codec.counts .numSamplesSpectrum).andThen (Codec.word32 .numInvalidPackets)

/-- The header with given fields, sample counts and version. -/
def assemble (version : String) : Fields → Extension → Metadata
  | (ebId, telescope, scanId, beamId, utcStart, tMin, tMax, frequencyMhz, bandwidthMhz,
      startChan, npol, ndim, nchan, nchanDs, ndatDs, histogramNbin, nrebin, channelFreqMhz,
      frequencyBins, timeseriesBins),
    (numSamples, numSamplesRfiExcised, numSamplesSpectrum, numInvalidPackets) =>
    { fileFormatVersion := version
      ebId, telescope, scanId, beamId, utcStart, tMin, tMax, frequencyMhz, bandwidthMhz,
      startChan, npol, ndim, nchan, nchanDs, ndatDs, histogramNbin, nrebin, channelFreqMhz,
      frequencyBins, timeseriesBins, numSamples, numSamplesRfiExcised, numSamplesSpectrum,
      numInvalidPackets }

/-- The number of channels among the fields of a record. -/
def channelCount : Fields → Nat
  | (_, _, _, _, _, _, _, _, _, _, _, _, nchan, _) => nchan.toNat

/-- The number of channel frequencies among the fields of a record. -/
def frequencyCount : Fields → Nat
  | (_, _, _, _, _, _, _, _, _, _, _, _, _, _, _, _, _, channelFreqMhz, _) => channelFreqMhz.size

/-- The sample counts of a header without any: zero, for every channel too. -/
def noCounts (channels : Nat) : Extension := (0, 0, Array.replicate channels 0, 0)

/-- The extended record of a header. -/
def encode (m : Metadata) : List UInt8 :=
  (Codec.text .ebId).encode m.ebId ++ (Codec.text .telescope).encode m.telescope ++
  (Codec.word64 .scanId).encode m.scanId ++ (Codec.text .beamId).encode m.beamId ++
  (Codec.text .utcStart).encode m.utcStart ++ (Codec.double .tMin).encode m.tMin ++
  (Codec.double .tMax).encode m.tMax ++ (Codec.double .freq).encode m.frequencyMhz ++
  (Codec.double .bw).encode m.bandwidthMhz ++ (Codec.word32 .startChan).encode m.startChan ++
  (Codec.word32 .npol).encode m.npol ++ (Codec.word32 .ndim).encode m.ndim ++
  (Codec.word32 .nchan).encode m.nchan ++ (Codec.word32 .nchanDs).encode m.nchanDs ++
  (Codec.word32 .ndatDs).encode m.ndatDs ++ (Codec.word32 .nbinHist).encode m.histogramNbin ++
  (Codec.word32 .nrebin).encode m.nrebin ++ (Codec.doubles .chanFreq).encode m.channelFreqMhz ++
  (Codec.doubles .frequencyBins).encode m.frequencyBins ++
  (Codec.doubles .timeseriesBins).encode m.timeseriesBins ++
  (Codec.word32 .numSamples).encode m.numSamples ++
  (Codec.word32 .numSamplesRfiExcised).encode m.numSamplesRfiExcised ++
  (Codec.counts .numSamplesSpectrum).encode m.numSamplesSpectrum ++
  (Codec.word32 .numInvalidPackets).encode m.numInvalidPackets

/-- The header that a record of a version holds. The counts that a legacy record lacks are
zero. -/
def decode (bytes : List UInt8) (version : String) : Except RecordError Metadata := do
  let (fields, rest) ← layout.decode bytes
  let (counts, rest) ←
    if version = legacyVersion then pure (noCounts (channelCount fields), rest)
    else extension.decode rest
  if rest ≠ [] then throw (.trailing rest.length)
  return assemble version fields counts

end VoltageStats.Record
