import VoltageStats.Header.Record
import VoltageStats.Proofs.Header.Codec

/-!
# Canonical header records

An extended record is read exactly if it is what is written for some header of the current version
whose texts and vectors fit their length fields (`record_canonical`): neither reading nor writing
loses anything, and a header has one record.
-/

namespace VoltageStats

open Codec (TextFits VectorFits)

namespace Metadata

/-- Each text of the record fits its length field. -/
def TextsFit (m : Metadata) : Prop :=
  TextFits m.ebId ∧ TextFits m.telescope ∧ TextFits m.beamId ∧ TextFits m.utcStart

/-- Each vector of the record fits its length field. -/
def VectorsFit (m : Metadata) : Prop :=
  VectorFits m.channelFreqMhz ∧ VectorFits m.frequencyBins ∧ VectorFits m.timeseriesBins ∧
    VectorFits m.numSamplesSpectrum

instance (m : Metadata) : Decidable m.TextsFit := inferInstanceAs (Decidable (_ ∧ _))

instance (m : Metadata) : Decidable m.VectorsFit := inferInstanceAs (Decidable (_ ∧ _))

/-- A header of one channel, with one bin of each kind. -/
def single : Metadata where
  fileFormatVersion := currentVersion
  ebId := "eb-t0001"
  telescope := "SKALow"
  scanId := 7
  beamId := "1"
  utcStart := "2024-01-01-00:00:00"
  tMin := ⟨0⟩
  tMax := ⟨0⟩
  frequencyMhz := ⟨0⟩
  bandwidthMhz := ⟨0⟩
  startChan := 3
  npol := 2
  ndim := 2
  nchan := 1
  nchanDs := 1
  ndatDs := 1
  histogramNbin := 1
  nrebin := 1
  channelFreqMhz := #[⟨0⟩]
  frequencyBins := #[⟨0⟩]
  timeseriesBins := #[⟨0⟩]
  numSamples := 1
  numSamplesRfiExcised := 1
  numSamplesSpectrum := #[1]
  numInvalidPackets := 0

end Metadata

namespace Record

/-- The texts and vectors of a legacy record fit their length fields. -/
def FieldsFit : Fields → Prop
  | (ebId, telescope, _, beamId, utcStart, _, _, _, _, _, _, _, _, _, _, _, _, channelFreqMhz,
      frequencyBins, timeseriesBins) =>
    (TextFits ebId ∧ TextFits telescope ∧ TextFits beamId ∧ TextFits utcStart) ∧
      VectorFits channelFreqMhz ∧ VectorFits frequencyBins ∧ VectorFits timeseriesBins

/-- The vector of counts of an extended record fits its length field. -/
def ExtensionFits : Extension → Prop
  | (_, _, numSamplesSpectrum, _) => VectorFits numSamplesSpectrum

theorem layout_canonical : layout.Canonical FieldsFit := by
  have h := (Codec.text_canonical .ebId).andThen <| (Codec.text_canonical .telescope).andThen <|
    (Codec.word64_canonical .scanId).andThen <| (Codec.text_canonical .beamId).andThen <|
    (Codec.text_canonical .utcStart).andThen <| (Codec.double_canonical .tMin).andThen <|
    (Codec.double_canonical .tMax).andThen <| (Codec.double_canonical .freq).andThen <|
    (Codec.double_canonical .bw).andThen <| (Codec.word32_canonical .startChan).andThen <|
    (Codec.word32_canonical .npol).andThen <| (Codec.word32_canonical .ndim).andThen <|
    (Codec.word32_canonical .nchan).andThen <| (Codec.word32_canonical .nchanDs).andThen <|
    (Codec.word32_canonical .ndatDs).andThen <| (Codec.word32_canonical .nbinHist).andThen <|
    (Codec.word32_canonical .nrebin).andThen <| (Codec.doubles_canonical .chanFreq).andThen <|
    (Codec.doubles_canonical .frequencyBins).andThen (Codec.doubles_canonical .timeseriesBins)
  intro bytes fields rest
  refine (h bytes fields rest).trans (and_congr_left' ?_)
  simp only [FieldsFit, true_and, and_assoc]

theorem extension_canonical : extension.Canonical ExtensionFits := by
  have h := (Codec.word32_canonical .numSamples).andThen <|
    (Codec.word32_canonical .numSamplesRfiExcised).andThen <|
    (Codec.counts_canonical .numSamplesSpectrum).andThen (Codec.word32_canonical .numInvalidPackets)
  intro bytes counts rest
  refine (h bytes counts rest).trans (and_congr_left' ?_)
  simp only [ExtensionFits, true_and, and_true]

/-- The fields of a header that a legacy record holds. -/
def fieldsOf (m : Metadata) : Fields :=
  (m.ebId, m.telescope, m.scanId, m.beamId, m.utcStart, m.tMin, m.tMax, m.frequencyMhz,
    m.bandwidthMhz, m.startChan, m.npol, m.ndim, m.nchan, m.nchanDs, m.ndatDs, m.histogramNbin,
    m.nrebin, m.channelFreqMhz, m.frequencyBins, m.timeseriesBins)

/-- The sample counts of a header. -/
def extensionOf (m : Metadata) : Extension :=
  (m.numSamples, m.numSamplesRfiExcised, m.numSamplesSpectrum, m.numInvalidPackets)

/-- The fields are written in the order in which they are read. -/
theorem encode_eq (m : Metadata) :
    encode m = layout.encode (fieldsOf m) ++ extension.encode (extensionOf m) := by
  unfold encode
  simp only [layout, extension, fieldsOf, extensionOf, Codec.encode_andThen, List.append_assoc]

/-- A header is put together from its own fields exactly if it has that version. -/
theorem assemble_eq_iff {version : String} {fields : Fields} {counts : Extension} {m : Metadata} :
    assemble version fields counts = m ↔
      m.fileFormatVersion = version ∧ fieldsOf m = fields ∧ extensionOf m = counts := by
  constructor
  · rintro rfl
    exact ⟨rfl, rfl, rfl⟩
  · rintro ⟨rfl, rfl, rfl⟩
    rfl

/-- The fields and the counts of a header fit together with its texts and vectors. -/
theorem fits_iff (m : Metadata) :
    FieldsFit (fieldsOf m) ∧ ExtensionFits (extensionOf m) ↔ m.TextsFit ∧ m.VectorsFit := by
  simp only [FieldsFit, fieldsOf, ExtensionFits, extensionOf, Metadata.TextsFit,
    Metadata.VectorsFit, and_assoc]

theorem length_encode (m : Metadata) :
    (encode m).length =
      132 + m.ebId.utf8ByteSize + m.telescope.utf8ByteSize + m.beamId.utf8ByteSize +
        m.utcStart.utf8ByteSize + 8 * m.channelFreqMhz.size + 8 * m.frequencyBins.size +
        8 * m.timeseriesBins.size + 4 * m.numSamplesSpectrum.size := by
  unfold encode
  simp only [List.length_append, Codec.length_text, Codec.length_word32,
    Codec.length_word64, Codec.length_double, Codec.length_doubles, Codec.length_counts]
  omega

/-- In a record that is short enough for a member of a container everything fits. -/
theorem fits_of_length_lt {m : Metadata} (h : (encode m).length < 2 ^ 32) :
    m.TextsFit ∧ m.VectorsFit := by
  -- Each text and each vector is shorter than the record that holds it.
  rw [length_encode] at h
  simp only [Metadata.TextsFit, Metadata.VectorsFit, TextFits, VectorFits]
  omega

/-- What is read from an extended record, without assuming that any vector fits. -/
theorem decode_current_eq_ok_iff {bytes : List UInt8} {m : Metadata} :
    decode bytes currentVersion = .ok m ↔
      m.fileFormatVersion = currentVersion ∧ (m.TextsFit ∧ m.VectorsFit) ∧ encode m = bytes := by
  have hversion : currentVersion ≠ legacyVersion := by decide
  simp only [decode, if_neg hversion, except_bind_eq_ok_iff, except_refuse_eq_ok_iff,
    except_pure_eq_ok_iff, assemble_eq_iff, Decidable.not_not, ← fits_iff]
  constructor
  · rintro ⟨⟨fields, tail⟩, hlayout, ⟨counts, rest⟩, hextension, hrest, hm, rfl, rfl⟩
    obtain ⟨hfields, rfl⟩ := (layout_canonical _ _ _).mp hlayout
    obtain ⟨hcounts, rfl⟩ := (extension_canonical _ _ _).mp hextension
    subst hrest
    exact ⟨hm, ⟨hfields, hcounts⟩, by rw [encode_eq, List.append_nil]⟩
  · rintro ⟨hm, ⟨hfields, hcounts⟩, rfl⟩
    exact ⟨(fieldsOf m, extension.encode (extensionOf m)),
      (layout_canonical _ _ _).mpr ⟨hfields, (encode_eq m).symm⟩, (extensionOf m, []),
      (extension_canonical _ _ _).mpr ⟨hcounts, List.append_nil _⟩, rfl, hm, rfl, rfl⟩

/-- Reading accepts exactly the records that writing makes. So reading undoes writing and writing
undoes reading, and two records that are read as the same header are the same. -/
theorem record_canonical :
    (∀ bytes (m : Metadata), m.VectorsFit →
      (decode bytes currentVersion = .ok m ↔
        m.fileFormatVersion = currentVersion ∧ m.TextsFit ∧ encode m = bytes)) ∧
    (∀ m : Metadata, m.fileFormatVersion = currentVersion → m.TextsFit → m.VectorsFit →
      decode (encode m) currentVersion = .ok m) ∧
    (∀ bytes m, decode bytes currentVersion = .ok m → encode m = bytes) ∧
    (∀ bytes bytes' m, decode bytes currentVersion = .ok m →
      decode bytes' currentVersion = .ok m → bytes = bytes') := by
  refine ⟨fun bytes m hvectors => ?_, fun m hversion htexts hvectors => ?_, fun bytes m h => ?_,
    fun bytes bytes' m h h' => ?_⟩
  · rw [decode_current_eq_ok_iff, and_iff_left hvectors]
  · exact decode_current_eq_ok_iff.mpr ⟨hversion, ⟨htexts, hvectors⟩, rfl⟩
  · exact (decode_current_eq_ok_iff.mp h).2.2
  · rw [← (decode_current_eq_ok_iff.mp h).2.2, ← (decode_current_eq_ok_iff.mp h').2.2]

/-- The record of a header of one channel is read as that header. -/
theorem decode_encode_single :
    Metadata.single.VectorsFit ∧ Metadata.single.TextsFit ∧
      decode (encode .single) currentVersion = .ok .single := by
  have hvectors : Metadata.single.VectorsFit := by decide
  have htexts : Metadata.single.TextsFit := by decide
  exact ⟨hvectors, htexts, record_canonical.2.1 .single rfl htexts hvectors⟩

end Record

end VoltageStats
