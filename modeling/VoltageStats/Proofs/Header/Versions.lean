import VoltageStats.Proofs.Header.Record

/-!
# Legacy and extended records

A legacy record ends where the sample counts of an extended one begin. It is read exactly if it
becomes the extended record of the same header, all of whose counts are zero, once the bytes of
such counts are put behind it (`legacy_record_iff`). No bytes are a record of both kinds: of the
two layouts each stops at the byte where the other goes on.
-/

namespace VoltageStats.Record

variable {bytes : List UInt8} {m : Metadata}

/-! ## The bytes of no counts -/

/-- What the sample counts of a header without any are written as: two zero words, the number of
channels, a zero word for each of them, and one more. -/
def zeroExtension (channels : Nat) : List UInt8 :=
  List.replicate 8 0 ++ LittleEndian.encode 8 channels ++ List.replicate (4 * channels) 0 ++
    List.replicate 4 0

theorem length_zeroExtension (channels : Nat) :
    (zeroExtension channels).length = 20 + 4 * channels := by
  unfold zeroExtension
  simp only [List.length_append, List.length_replicate, LittleEndian.length_encode]
  omega

/-- The counts of a header without any are written as zeros, but for their number. -/
theorem encode_noCounts (channels : Nat) :
    extension.encode (noCounts channels) = zeroExtension channels := by
  have hwords : (List.replicate channels (0 : UInt32)).flatMap
      (fun n => LittleEndian.encode 4 n.toNat) = List.replicate (4 * channels) (0 : UInt8) := by
    induction channels with
    | zero => rfl
    | succ channels ih =>
        rw [List.replicate_succ, List.flatMap_cons, ih, Nat.mul_succ, Nat.add_comm,
          List.replicate_add]
        rfl
  have hcounts : (Codec.counts .numSamplesSpectrum).encode (Array.replicate channels 0) =
      LittleEndian.encode 8 channels ++ List.replicate (4 * channels) 0 := by
    show LittleEndian.encode 8 (Array.replicate channels (0 : UInt32)).size ++
      (Array.replicate channels (0 : UInt32)).toList.flatMap
        (fun n => LittleEndian.encode 4 n.toNat) = _
    rw [Array.size_replicate, Array.toList_replicate, hwords]
  rw [extension, noCounts, Codec.encode_andThen, Codec.encode_andThen, Codec.encode_andThen,
    hcounts, zeroExtension]
  simp only [← List.append_assoc]
  rfl

/-- A header has the counts of a header without any exactly if each of them is zero. -/
theorem extensionOf_eq_noCounts_iff :
    extensionOf m = noCounts m.nchan.toNat ↔
      m.numSamples = 0 ∧ m.numSamplesRfiExcised = 0 ∧ m.numInvalidPackets = 0 ∧
        m.numSamplesSpectrum = Array.replicate m.nchan.toNat 0 := by
  unfold extensionOf noCounts
  simp only [Prod.mk.injEq]
  constructor
  · rintro ⟨hsamples, hexcised, hspectrum, hinvalid⟩
    exact ⟨hsamples, hexcised, hinvalid, hspectrum⟩
  · rintro ⟨hsamples, hexcised, hinvalid, hspectrum⟩
    exact ⟨hsamples, hexcised, hspectrum, hinvalid⟩

/-! ## Reading either layout -/

section

variable {fields : Fields} {rest : List UInt8}

/-- In the legacy layout nothing may follow the fields. -/
theorem decode_legacy_of_layout (hlayout : layout.decode bytes = .ok (fields, rest)) :
    decode bytes legacyVersion =
      if rest = [] then .ok (assemble legacyVersion fields (noCounts (channelCount fields)))
      else .error (.trailing rest.length) := by
  unfold decode
  rw [hlayout]
  by_cases hrest : rest = []
  · subst hrest
    rfl
  · rw [if_neg hrest]
    simp only [bind, Except.bind, if_true, pure, Except.pure, if_pos hrest]
    rfl

/-- In the extended layout the counts must follow the fields. -/
theorem decode_current_of_layout (hlayout : layout.decode bytes = .ok (fields, rest))
    {error : RecordError} (hextension : extension.decode rest = .error error) :
    decode bytes currentVersion = .error error := by
  have hversion : currentVersion ≠ legacyVersion := by decide
  unfold decode
  simp only [hlayout, bind, Except.bind, if_neg hversion, hextension]

end

/-- What is read from a legacy record. -/
theorem decode_legacy_eq_ok_iff :
    decode bytes legacyVersion = .ok m ↔
      m.fileFormatVersion = legacyVersion ∧ extensionOf m = noCounts m.nchan.toNat ∧
        FieldsFit (fieldsOf m) ∧ layout.encode (fieldsOf m) = bytes := by
  constructor
  · intro h
    cases hlayout : layout.decode bytes with
    | error error =>
        rw [decode, hlayout] at h
        cases h
    | ok read =>
        obtain ⟨fields, rest⟩ := read
        rw [decode_legacy_of_layout hlayout] at h
        by_cases hrest : rest = []
        · rw [if_pos hrest, Except.ok.injEq, assemble_eq_iff] at h
          obtain ⟨hversion, rfl, hcounts⟩ := h
          subst hrest
          obtain ⟨hfits, hbytes⟩ := (layout_canonical _ _ _).mp hlayout
          rw [List.append_nil] at hbytes
          exact ⟨hversion, hcounts, hfits, hbytes⟩
        · rw [if_neg hrest] at h
          cases h
  · rintro ⟨hversion, hcounts, hfits, rfl⟩
    have hlayout : layout.decode (layout.encode (fieldsOf m)) = .ok (fieldsOf m, []) :=
      (layout_canonical _ _ _).mpr ⟨hfits, List.append_nil _⟩
    rw [decode_legacy_of_layout hlayout, if_pos rfl, Except.ok.injEq, assemble_eq_iff]
    exact ⟨hversion, rfl, hcounts⟩

/-- A legacy record is an extended one without the bytes of its counts. -/
theorem layout_encode_eq_iff (hcounts : extensionOf m = noCounts m.nchan.toNat) :
    layout.encode (fieldsOf m) = bytes ↔ bytes ++ zeroExtension m.nchan.toNat = encode m := by
  rw [encode_eq, hcounts, encode_noCounts, List.append_left_inj, eq_comm]

/-- Where a legacy record ends the first of the counts is missing. -/
theorem decode_current_of_legacy (h : decode bytes legacyVersion = .ok m) :
    decode bytes currentVersion = .error (.truncated .numSamples) := by
  obtain ⟨-, -, hfits, rfl⟩ := decode_legacy_eq_ok_iff.mp h
  have hlayout : layout.decode (layout.encode (fieldsOf m)) = .ok (fieldsOf m, []) :=
    (layout_canonical _ _ _).mpr ⟨hfits, List.append_nil _⟩
  exact decode_current_of_layout hlayout rfl

/-- An extended record goes on with its counts where a legacy one ends. -/
theorem decode_legacy_of_current (h : decode bytes currentVersion = .ok m) :
    decode bytes legacyVersion = .error (.trailing (20 + 4 * m.numSamplesSpectrum.size)) := by
  obtain ⟨-, hfits, rfl⟩ := decode_current_eq_ok_iff.mp h
  have hlayout : layout.decode (encode m) = .ok (fieldsOf m, extension.encode (extensionOf m)) :=
    (layout_canonical _ _ _).mpr ⟨((fits_iff m).mpr hfits).1, (encode_eq m).symm⟩
  have hlength : (extension.encode (extensionOf m)).length =
      20 + 4 * m.numSamplesSpectrum.size := by
    rw [extension, extensionOf, Codec.encode_andThen, Codec.encode_andThen, Codec.encode_andThen]
    simp only [List.length_append, Codec.length_word32, Codec.length_counts]
    omega
  have hrest : extension.encode (extensionOf m) ≠ [] := by
    intro hnil
    rw [hnil, List.length_nil] at hlength
    omega
  rw [decode_legacy_of_layout hlayout, if_neg hrest, hlength]

/-- A legacy record is read exactly if the bytes of zero counts make it the extended record of the
header, whose counts are all zero. And no bytes are read in both versions: what is a legacy record
ends before the counts of an extended one, and an extended record has those counts left over. -/
theorem legacy_record_iff :
    (∀ bytes (m : Metadata), m.VectorsFit →
      (decode bytes legacyVersion = .ok m ↔
        m.fileFormatVersion = legacyVersion ∧
        (m.numSamples = 0 ∧ m.numSamplesRfiExcised = 0 ∧ m.numInvalidPackets = 0 ∧
          m.numSamplesSpectrum = Array.replicate m.nchan.toNat 0) ∧
        m.TextsFit ∧ bytes ++ zeroExtension m.nchan.toNat = encode m)) ∧
    (∀ channels, (zeroExtension channels).length = 20 + 4 * channels) ∧
    (∀ bytes m, decode bytes legacyVersion = .ok m →
      decode bytes currentVersion = .error (.truncated .numSamples)) ∧
    (∀ bytes m, decode bytes currentVersion = .ok m →
      decode bytes legacyVersion = .error (.trailing (20 + 4 * m.numSamplesSpectrum.size))) := by
  refine ⟨fun bytes m hvectors => ?_, length_zeroExtension, fun _ _ => decode_current_of_legacy,
    fun _ _ => decode_legacy_of_current⟩
  rw [decode_legacy_eq_ok_iff, ← extensionOf_eq_noCounts_iff]
  refine and_congr_right fun _ => and_congr_right fun hcounts => ?_
  rw [layout_encode_eq_iff hcounts]
  -- With the vectors known to fit, the fields fit exactly if the texts do.
  have hfits : FieldsFit (fieldsOf m) ↔ m.TextsFit := by
    constructor
    · intro hfields
      exact ((fits_iff m).mp ⟨hfields, hvectors.2.2.2⟩).1
    · intro htexts
      exact ((fits_iff m).mpr ⟨htexts, hvectors⟩).1
  rw [hfits]

/-- The header of one channel without counts, as a legacy record holds it. -/
def legacySingle : Metadata :=
  { Metadata.single with
    fileFormatVersion := legacyVersion, numSamples := 0, numSamplesRfiExcised := 0
    numSamplesSpectrum := #[0] }

/-- The record of a header of one channel is read in the version it is written in and in no other,
with its counts and without them. -/
theorem legacy_record_single :
    legacySingle.VectorsFit ∧
      decode (layout.encode (fieldsOf legacySingle)) legacyVersion = .ok legacySingle ∧
      decode (layout.encode (fieldsOf legacySingle)) currentVersion =
        .error (.truncated .numSamples) ∧
      decode (encode .single) currentVersion = .ok .single ∧
      decode (encode .single) legacyVersion = .error (.trailing 24) := by
  have hvectors : legacySingle.VectorsFit := by decide
  have htexts : legacySingle.TextsFit := by decide
  have hcounts : extensionOf legacySingle = noCounts legacySingle.nchan.toNat := rfl
  have hlegacy : decode (layout.encode (fieldsOf legacySingle)) legacyVersion =
      .ok legacySingle :=
    (legacy_record_iff.1 _ _ hvectors).mpr
      ⟨rfl, extensionOf_eq_noCounts_iff.mp hcounts, htexts, (layout_encode_eq_iff hcounts).mp rfl⟩
  have hcurrent : decode (encode .single) currentVersion = .ok .single :=
    decode_current_eq_ok_iff.mpr ⟨rfl, by decide, rfl⟩
  exact ⟨hvectors, hlegacy, legacy_record_iff.2.2.1 _ _ hlegacy, hcurrent,
    legacy_record_iff.2.2.2 _ _ hcurrent⟩

end VoltageStats.Record
