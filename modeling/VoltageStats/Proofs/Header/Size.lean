import VoltageStats.Proofs.Header.Versions
import VoltageStats.Proofs.Statistics

/-!
# How much a header record can hold

Each element of a vector of an extended record takes some of its bytes, so that a header has no
more elements than its record has bytes. Of a legacy record that is true of the vectors it holds,
but its counts are not among them: as many of these are made as the record says that there are
channels, and nothing in the record stands for them. So the bound is a bound on that number
(`elements_le_bytes_iff`), and a record can break it (`elements_manyChannels`). A header that is
consistent has a frequency for each channel, which takes more bytes than there are counts.
-/

namespace VoltageStats

namespace Metadata

/-- The number of elements of the vectors that every record holds. -/
def axisCount (m : Metadata) : Nat :=
  m.channelFreqMhz.size + m.frequencyBins.size + m.timeseriesBins.size

/-- The number of elements of all vectors of a header. -/
def elementCount (m : Metadata) : Nat := m.axisCount + m.numSamplesSpectrum.size

/-- The number of bytes of the texts of a header. -/
def textSize (m : Metadata) : Nat :=
  m.ebId.utf8ByteSize + m.telescope.utf8ByteSize + m.beamId.utf8ByteSize + m.utcStart.utf8ByteSize

end Metadata

namespace Record

variable {bytes : List UInt8} {version : String} {m : Metadata}

/-- The vectors of a legacy record take all of its bytes but those of its texts, its numbers and the
lengths of both. The number of its counts is that of the channels. -/
theorem length_of_legacy (h : decode bytes legacyVersion = .ok m) :
    m.numSamplesSpectrum.size = m.nchan.toNat ∧
      bytes.length = 112 + m.textSize + 8 * m.axisCount := by
  obtain ⟨-, hcounts, -, hbytes⟩ := decode_legacy_eq_ok_iff.mp h
  have hspectrum : m.numSamplesSpectrum.size = m.nchan.toNat := by
    rw [(extensionOf_eq_noCounts_iff.mp hcounts).2.2.2, Array.size_replicate]
  have hlength : bytes.length + (20 + 4 * m.nchan.toNat) = (encode m).length := by
    rw [← (layout_encode_eq_iff hcounts).mp hbytes, List.length_append, length_zeroExtension]
  rw [length_encode, hspectrum] at hlength
  rw [Metadata.textSize, Metadata.axisCount]
  exact ⟨hspectrum, by omega⟩

/-- An extended record has a byte for each element that is read from it. -/
theorem elementCount_le_of_current (h : decode bytes currentVersion = .ok m) :
    m.elementCount ≤ bytes.length := by
  rw [← (decode_current_eq_ok_iff.mp h).2.2, length_encode, Metadata.elementCount,
    Metadata.axisCount]
  omega

/-- What is read from an extended record has no more elements than the record has bytes, and so has
what is read from a legacy record unless that says more channels than its texts and the vectors in
it make up for. In either version a consistent header has no more elements than its record has
bytes, and neither have the vectors that the record holds. -/
theorem elements_le_bytes_iff (hversion : version ∈ supportedVersions)
    (h : decode bytes version = .ok m) :
    (m.elementCount ≤ bytes.length ↔
      (version = legacyVersion → m.nchan.toNat ≤ 112 + m.textSize + 7 * m.axisCount)) ∧
    (m.validate = .ok () → m.elementCount ≤ bytes.length) ∧
    m.axisCount ≤ bytes.length := by
  obtain rfl | rfl := List.mem_pair.mp hversion
  · obtain ⟨hspectrum, hlength⟩ := length_of_legacy h
    rw [Metadata.elementCount, hspectrum]
    refine ⟨⟨fun hle _ => by omega, fun hle => ?_⟩, fun hvalid => ?_, by omega⟩
    · have hchannels := hle rfl
      omega
    · have hchannels := (Metadata.validate_eq_ok_iff.mp hvalid).size_channelFreqMhz
      rw [Metadata.axisCount] at hlength ⊢
      omega
  · have hle := elementCount_le_of_current h
    have hother : currentVersion ≠ legacyVersion := by decide
    refine ⟨⟨fun _ hlegacy => absurd hlegacy hother, fun _ => hle⟩, fun _ => hle, ?_⟩
    exact Nat.le_trans (Nat.le_add_right _ _) hle

theorem fieldsFit_legacySingle : FieldsFit (fieldsOf legacySingle) :=
  ((fits_iff legacySingle).mpr ⟨by decide, by decide⟩).1

/-- The record of a header of one channel is longer than the vectors of what is read from it, with
counts and without. -/
theorem elements_le_bytes_single :
    decode (encode .single) currentVersion = .ok .single ∧
      Metadata.single.elementCount ≤ (encode .single).length ∧
      decode (layout.encode (fieldsOf legacySingle)) legacyVersion = .ok legacySingle ∧
      legacySingle.elementCount ≤ (layout.encode (fieldsOf legacySingle)).length := by
  have hcurrent : decode (encode .single) currentVersion = .ok .single :=
    decode_current_eq_ok_iff.mpr ⟨rfl, by decide, rfl⟩
  have hlegacy : decode (layout.encode (fieldsOf legacySingle)) legacyVersion =
      .ok legacySingle :=
    decode_legacy_eq_ok_iff.mpr ⟨rfl, rfl, fieldsFit_legacySingle, rfl⟩
  refine ⟨hcurrent, ?_, hlegacy, ?_⟩
  · exact (elements_le_bytes_iff (List.mem_pair.mpr (.inr rfl)) hcurrent).1.mpr
      fun h => absurd h (by decide)
  · exact (elements_le_bytes_iff (List.mem_pair.mpr (.inl rfl)) hlegacy).1.mpr
      fun _ => by decide

/-- The header of a legacy record of one frequency that says some number of channels. -/
def saying (channels : UInt32) : Metadata :=
  { legacySingle with nchan := channels, numSamplesSpectrum := Array.replicate channels.toNat 0 }

/-- Such a record is read whatever the number of channels is. -/
theorem decode_saying (channels : UInt32) :
    decode (layout.encode (fieldsOf (saying channels))) legacyVersion = .ok (saying channels) := by
  -- Whether the fields fit does not depend on the number of channels.
  obtain ⟨htexts, hvectors⟩ := fieldsFit_legacySingle
  exact decode_legacy_eq_ok_iff.mpr ⟨rfl, rfl, ⟨htexts, hvectors⟩, rfl⟩

theorem elementCount_saying (channels : UInt32) :
    (saying channels).elementCount = 3 + channels.toNat := by
  rw [Metadata.elementCount, saying, Array.size_replicate]
  rfl

/-- From 170 bytes that say a thousand channels more than a thousand elements are read. -/
theorem elements_manyChannels :
    decode (layout.encode (fieldsOf (saying 1000))) legacyVersion = .ok (saying 1000) ∧
      (layout.encode (fieldsOf (saying 1000))).length = 170 ∧
      (saying 1000).elementCount = 1003 ∧
      ¬ (saying 1000).elementCount ≤ (layout.encode (fieldsOf (saying 1000))).length := by
  have hread := decode_saying 1000
  have hlength : (layout.encode (fieldsOf (saying 1000))).length = 170 := by
    rw [(length_of_legacy hread).2]
    decide
  have hcount : (saying 1000).elementCount = 1003 := elementCount_saying 1000
  refine ⟨hread, hlength, hcount, ?_⟩
  rw [hlength, hcount]
  decide

end Record

end VoltageStats
