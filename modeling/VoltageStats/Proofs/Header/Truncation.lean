import VoltageStats.Proofs.Header.Record

/-!
# Header records of the wrong length

An extended record that is cut short is refused, and the field that is named is the one whose bytes
the cut goes through: the field of the first byte that is missing (`fieldAt?`). Bytes behind a
record are refused with their number. So no change of the length of a record goes unnoticed, and a
cut is told at the place where it was made (`length_detected`).
-/

namespace VoltageStats

/-- The field that the byte at a position belongs to, among fields with their bytes. -/
def fieldAt? : List (HeaderKey × List UInt8) → (position : Nat) → Option HeaderKey
  | [], _ => none
  | (field, bytes) :: fields, position =>
    if position < bytes.length then some field else fieldAt? fields (position - bytes.length)

section

variable {front back : List (HeaderKey × List UInt8)} {position : Nat}

/-- A byte belongs to one of the fields in front, or to one of those behind them. -/
theorem fieldAt?_append : fieldAt? (front ++ back) position =
    if position < (front.flatMap Prod.snd).length then fieldAt? front position
    else fieldAt? back (position - (front.flatMap Prod.snd).length) := by
  induction front generalizing position with
  | nil => simp
  | cons entry front ih =>
      obtain ⟨field, bytes⟩ := entry
      rw [List.cons_append, fieldAt?, fieldAt?, List.flatMap_cons, List.length_append, ih]
      by_cases hfirst : position < bytes.length
      · rw [if_pos hfirst, if_pos hfirst, if_pos (Nat.lt_add_right _ hfirst)]
      · rw [if_neg hfirst, if_neg hfirst, Nat.sub_sub]
        refine if_congr ?_ rfl rfl
        show position - bytes.length < _ ↔ position < bytes.length + _
        omega

/-- Every byte belongs to a field. -/
theorem exists_fieldAt? (h : position < (front.flatMap Prod.snd).length) :
    ∃ field, fieldAt? front position = some field := by
  induction front generalizing position with
  | nil => cases h
  | cons entry front ih =>
      obtain ⟨field, bytes⟩ := entry
      have hlt : position < bytes.length + (front.flatMap Prod.snd).length := by
        rwa [List.flatMap_cons, List.length_append] at h
      rw [fieldAt?]
      by_cases hfirst : position < bytes.length
      · exact ⟨field, if_pos hfirst⟩
      · rw [if_neg hfirst]
        exact ih (by omega)

end

namespace Codec

variable {α β : Type} {field : HeaderKey} {bytes : List UInt8} {k : Nat}

/-! ## Fields that are cut -/

/-- Too few bytes are no number. -/
theorem number_of_length_lt {width : Nat} (h : bytes.length < width) :
    number field width bytes = .error (.truncated field) := by
  rw [number]
  cases hread : LittleEndian.decode? width bytes with
  | none => rfl
  | some result =>
      obtain ⟨-, hbytes⟩ := LittleEndian.decode?_eq_some_iff.mp hread
      rw [← hbytes, List.length_append, LittleEndian.length_encode] at h
      omega

/-- A codec writes fields one after the other, each with its bytes, and reports what is cut off
against the field that the first missing byte belongs to. -/
structure Located (codec : Codec α) (Fits : α → Prop)
    (fields : α → List (HeaderKey × List UInt8)) : Prop where
  encode_eq : ∀ x, codec.encode x = (fields x).flatMap Prod.snd
  decode_take : ∀ x k field, Fits x → fieldAt? (fields x) k = some field →
    codec.decode ((codec.encode x).take k) = .error (.truncated field)

/-- A single field, if every cut of its bytes is reported against it. -/
theorem Located.single {codec : Codec α} {Fits : α → Prop}
    (h : ∀ x k, Fits x → k < (codec.encode x).length →
      codec.decode ((codec.encode x).take k) = .error (.truncated field)) :
    codec.Located Fits fun x => [(field, codec.encode x)] where
  encode_eq x := (List.append_nil _).symm
  decode_take x k found hfits hfound := by
    rw [fieldAt?, fieldAt?, Option.ite_none_right_eq_some, Option.some.injEq] at hfound
    obtain ⟨hk, rfl⟩ := hfound
    exact h x k hfits hk

/-- A field of a fixed width, if fewer bytes are reported against it. -/
theorem Located.fixed {codec : Codec α} {width : Nat}
    (hwidth : ∀ x, (codec.encode x).length = width)
    (h : ∀ bytes, bytes.length < width → codec.decode bytes = .error (.truncated field)) :
    codec.Located (fun _ => True) fun x => [(field, codec.encode x)] := by
  refine .single fun x k _ hk => h _ ?_
  rw [List.length_take, ← hwidth x]
  omega

theorem word32_of_length_lt (h : bytes.length < 4) :
    (word32 field).decode bytes = .error (.truncated field) := by
  simp only [word32, number_of_length_lt h, bind, Except.bind]

theorem word64_of_length_lt (h : bytes.length < 8) :
    (word64 field).decode bytes = .error (.truncated field) := by
  simp only [word64, number_of_length_lt h, bind, Except.bind]

theorem double_of_length_lt (h : bytes.length < 8) :
    (double field).decode bytes = .error (.truncated field) := by
  simp only [double, word64_of_length_lt h, bind, Except.bind]

theorem word32_located (field : HeaderKey) :
    (word32 field).Located (fun _ => True) fun n => [(field, (word32 field).encode n)] :=
  .fixed (length_word32 field) fun _ => word32_of_length_lt

theorem word64_located (field : HeaderKey) :
    (word64 field).Located (fun _ => True) fun n => [(field, (word64 field).encode n)] :=
  .fixed (length_word64 field) fun _ => word64_of_length_lt

theorem double_located (field : HeaderKey) :
    (double field).Located (fun _ => True) fun x => [(field, (double field).encode x)] :=
  .fixed (length_double field) fun _ => double_of_length_lt

/-- A number is read of a cut that spares its bytes, and behind it is what the cut leaves. -/
theorem number_take_append {width n : Nat} (hn : n < 256 ^ width) (hk : width ≤ k) :
    number field width ((LittleEndian.encode width n ++ bytes).take k) =
      .ok (n, bytes.take (k - width)) := by
  rw [List.take_append, LittleEndian.length_encode,
    List.take_of_length_le (by rwa [LittleEndian.length_encode])]
  exact number_eq_ok_iff.mpr ⟨hn, rfl⟩

/-- A text is refused if there are too few bytes for its length, or for the text. -/
theorem text_of_truncated (h : bytes.length < 4 ∨
    ∃ size rest, number field 4 bytes = .ok (size, rest) ∧ rest.length < size) :
    (text field).decode bytes = .error (.truncated field) := by
  rcases h with hshort | ⟨size, rest, hread, hshort⟩
  · simp only [text, number_of_length_lt hshort, bind, Except.bind]
  · simp only [text, hread, bind, Except.bind, if_pos hshort]
    rfl

/-- A vector is refused if there are too few bytes for its length, or for all its elements. -/
theorem vector_of_truncated {width : Nat} {element : Codec α} (h : bytes.length < 8 ∨
    ∃ count rest, number field 8 bytes = .ok (count, rest) ∧ rest.length < count * width) :
    (vector field width element).decode bytes = .error (.truncated field) := by
  rcases h with hshort | ⟨count, rest, hread, hshort⟩
  · simp only [vector, number_of_length_lt hshort, bind, Except.bind]
  · simp only [vector, hread, bind, Except.bind, if_pos hshort]
    rfl

/-- A text that is cut is found to be short before its bytes are looked at, so that a cut through a
character is not taken for bad UTF-8. -/
theorem text_located (field : HeaderKey) :
    (text field).Located TextFits fun s => [(field, (text field).encode s)] := by
  refine .single fun s k hfits hk => text_of_truncated ?_
  rw [length_text] at hk
  rcases Nat.lt_or_ge k 4 with hlength | hlength
  · left
    rw [List.length_take]
    omega
  · right
    refine ⟨s.utf8ByteSize, s.toByteArray.data.toList.take (k - 4),
      number_take_append hfits hlength, ?_⟩
    rw [List.length_take]
    omega

/-- A vector that is cut is found to be short before any of its elements is read. -/
theorem vector_located (field : HeaderKey) {width : Nat} {element : Codec α}
    (hwidth : ∀ x, (element.encode x).length = width) :
    (vector field width element).Located VectorFits
      fun xs => [(field, (vector field width element).encode xs)] := by
  refine .single fun xs k hfits hk => vector_of_truncated ?_
  rw [length_vector field hwidth] at hk
  rcases Nat.lt_or_ge k 8 with hlength | hlength
  · left
    rw [List.length_take]
    omega
  · right
    refine ⟨xs.size, (xs.toList.flatMap element.encode).take (k - 8),
      number_take_append hfits hlength, ?_⟩
    rw [List.length_take]
    omega

theorem doubles_located (field : HeaderKey) :
    (doubles field).Located VectorFits fun xs => [(field, (doubles field).encode xs)] :=
  vector_located field (length_double field)

theorem counts_located (field : HeaderKey) :
    (counts field).Located VectorFits fun xs => [(field, (counts field).encode xs)] :=
  vector_located field (length_word32 field)

/-! ## One field after the other -/

theorem Located.imp {codec : Codec α} {Fits Fits' : α → Prop}
    {fields : α → List (HeaderKey × List UInt8)} (h : codec.Located Fits fields)
    (hfits : ∀ x, Fits' x → Fits x) : codec.Located Fits' fields where
  encode_eq := h.encode_eq
  decode_take x k field hx := h.decode_take x k field (hfits x hx)

variable {first : Codec α} {second : Codec β} {Fits : α → Prop} {FitsNext : β → Prop}
  {fields : α → List (HeaderKey × List UInt8)} {next : β → List (HeaderKey × List UInt8)}

/-- A cut goes through the fields in front, or it leaves them whole and goes through the others. -/
theorem Located.andThen (hfirst : first.Located Fits fields) (hread : first.Canonical Fits)
    (hsecond : second.Located FitsNext next) :
    (first.andThen second).Located (fun x => Fits x.1 ∧ FitsNext x.2)
      fun x => fields x.1 ++ next x.2 where
  encode_eq x := by
    rw [List.flatMap_append, ← hfirst.encode_eq, ← hsecond.encode_eq]
    rfl
  decode_take x k field hfits hfield := by
    obtain ⟨a, b⟩ := x
    rw [fieldAt?_append, ← hfirst.encode_eq] at hfield
    rw [encode_andThen, List.take_append, Codec.andThen]
    by_cases hcut : k < (first.encode a).length
    · rw [if_pos hcut] at hfield
      rw [Nat.sub_eq_zero_of_le (Nat.le_of_lt hcut), List.take_zero, List.append_nil]
      simp only [hfirst.decode_take a k field hfits.1 hfield, bind, Except.bind]
    · rw [if_neg hcut] at hfield
      have hwhole : first.decode (first.encode a ++
          (second.encode b).take (k - (first.encode a).length)) =
            .ok (a, (second.encode b).take (k - (first.encode a).length)) :=
        (hread _ _ _).mpr ⟨hfits.1, rfl⟩
      rw [List.take_of_length_le (Nat.le_of_not_lt hcut)]
      simp only [hwhole, hsecond.decode_take b _ field hfits.2 hfield, bind, Except.bind]

end Codec

namespace Record

open Codec (word32 word64 double text doubles counts)

variable {bytes : List UInt8} {m : Metadata}

/-! ## The record -/

/-- The fields of the record of a header with their bytes, in order. -/
def fieldBytes (m : Metadata) : List (HeaderKey × List UInt8) :=
  [(.ebId, (text .ebId).encode m.ebId), (.telescope, (text .telescope).encode m.telescope),
    (.scanId, (word64 .scanId).encode m.scanId), (.beamId, (text .beamId).encode m.beamId),
    (.utcStart, (text .utcStart).encode m.utcStart), (.tMin, (double .tMin).encode m.tMin),
    (.tMax, (double .tMax).encode m.tMax), (.freq, (double .freq).encode m.frequencyMhz),
    (.bw, (double .bw).encode m.bandwidthMhz),
    (.startChan, (word32 .startChan).encode m.startChan),
    (.npol, (word32 .npol).encode m.npol), (.ndim, (word32 .ndim).encode m.ndim),
    (.nchan, (word32 .nchan).encode m.nchan), (.nchanDs, (word32 .nchanDs).encode m.nchanDs),
    (.ndatDs, (word32 .ndatDs).encode m.ndatDs),
    (.nbinHist, (word32 .nbinHist).encode m.histogramNbin),
    (.nrebin, (word32 .nrebin).encode m.nrebin),
    (.chanFreq, (doubles .chanFreq).encode m.channelFreqMhz),
    (.frequencyBins, (doubles .frequencyBins).encode m.frequencyBins),
    (.timeseriesBins, (doubles .timeseriesBins).encode m.timeseriesBins),
    (.numSamples, (word32 .numSamples).encode m.numSamples),
    (.numSamplesRfiExcised, (word32 .numSamplesRfiExcised).encode m.numSamplesRfiExcised),
    (.numSamplesSpectrum, (counts .numSamplesSpectrum).encode m.numSamplesSpectrum),
    (.numInvalidPackets, (word32 .numInvalidPackets).encode m.numInvalidPackets)]

/-- The fields of a record are read one after the other, and so a cut is found in the field that it
goes through. -/
theorem located : (layout.andThen extension).Located
    (fun x => FieldsFit x.1 ∧ ExtensionFits x.2)
    fun x => fieldBytes (assemble currentVersion x.1 x.2) := by
  have hlayout := (Codec.text_located .ebId).andThen (Codec.text_canonical .ebId) <|
    (Codec.text_located .telescope).andThen (Codec.text_canonical .telescope) <|
    (Codec.word64_located .scanId).andThen (Codec.word64_canonical .scanId) <|
    (Codec.text_located .beamId).andThen (Codec.text_canonical .beamId) <|
    (Codec.text_located .utcStart).andThen (Codec.text_canonical .utcStart) <|
    (Codec.double_located .tMin).andThen (Codec.double_canonical .tMin) <|
    (Codec.double_located .tMax).andThen (Codec.double_canonical .tMax) <|
    (Codec.double_located .freq).andThen (Codec.double_canonical .freq) <|
    (Codec.double_located .bw).andThen (Codec.double_canonical .bw) <|
    (Codec.word32_located .startChan).andThen (Codec.word32_canonical .startChan) <|
    (Codec.word32_located .npol).andThen (Codec.word32_canonical .npol) <|
    (Codec.word32_located .ndim).andThen (Codec.word32_canonical .ndim) <|
    (Codec.word32_located .nchan).andThen (Codec.word32_canonical .nchan) <|
    (Codec.word32_located .nchanDs).andThen (Codec.word32_canonical .nchanDs) <|
    (Codec.word32_located .ndatDs).andThen (Codec.word32_canonical .ndatDs) <|
    (Codec.word32_located .nbinHist).andThen (Codec.word32_canonical .nbinHist) <|
    (Codec.word32_located .nrebin).andThen (Codec.word32_canonical .nrebin) <|
    (Codec.doubles_located .chanFreq).andThen (Codec.doubles_canonical .chanFreq) <|
    (Codec.doubles_located .frequencyBins).andThen (Codec.doubles_canonical .frequencyBins)
      (Codec.doubles_located .timeseriesBins)
  have hextension := (Codec.word32_located .numSamples).andThen
      (Codec.word32_canonical .numSamples) <|
    (Codec.word32_located .numSamplesRfiExcised).andThen
      (Codec.word32_canonical .numSamplesRfiExcised) <|
    (Codec.counts_located .numSamplesSpectrum).andThen
      (Codec.counts_canonical .numSamplesSpectrum) (Codec.word32_located .numInvalidPackets)
  have hfields : layout.Located FieldsFit _ := hlayout.imp fun fields hfits => by
    simpa only [FieldsFit, true_and, and_assoc] using hfits
  have hcounts : extension.Located ExtensionFits _ := hextension.imp fun counts hfits => by
    simpa only [ExtensionFits, true_and, and_true] using hfits
  exact hfields.andThen layout_canonical hcounts

/-- The bytes of the fields are those of the record. -/
theorem flatMap_fieldBytes (m : Metadata) : (fieldBytes m).flatMap Prod.snd = encode m :=
  (located.encode_eq (fieldsOf m, extensionOf m)).symm.trans (encode_eq m).symm

/-- An extended record is read up to its last field before it is looked for anything behind it. -/
theorem decode_current_eq : decode bytes currentVersion =
    (do
      let (read, rest) ← (layout.andThen extension).decode bytes
      if rest ≠ [] then throw (.trailing rest.length)
      return assemble currentVersion read.1 read.2) := by
  have hversion : currentVersion ≠ legacyVersion := by decide
  simp only [decode, if_neg hversion, Codec.andThen, bind_assoc, pure_bind]

/-- No change of the length of a record goes unnoticed. The fields of a record are those that an
archive stores besides the version, in this order. Wherever their bytes are cut off, reading names
the field of the first byte that is missing, and bytes behind them are reported with their
number. -/
theorem length_detected (htexts : m.TextsFit) (hvectors : m.VectorsFit) :
    (fieldBytes m).map Prod.fst = HeaderKey.stored.filter (· ≠ .fileFormatVersion) ∧
    (fieldBytes m).flatMap Prod.snd = encode m ∧
    (∀ k < (encode m).length, ∃ field, fieldAt? (fieldBytes m) k = some field ∧
      decode ((encode m).take k) currentVersion = .error (.truncated field)) ∧
    ∀ tail, tail ≠ [] →
      decode (encode m ++ tail) currentVersion = .error (.trailing tail.length) := by
  have hfits := (fits_iff m).mpr ⟨htexts, hvectors⟩
  refine ⟨rfl, flatMap_fieldBytes m, fun k hk => ?_, fun tail htail => ?_⟩
  · rw [← flatMap_fieldBytes] at hk
    obtain ⟨field, hfield⟩ := exists_fieldAt? hk
    have hcut : (layout.andThen extension).decode ((encode m).take k) =
        .error (.truncated field) := by
      rw [encode_eq]
      exact located.decode_take (fieldsOf m, extensionOf m) k field hfits hfield
    refine ⟨field, hfield, ?_⟩
    rw [decode_current_eq, hcut]
    rfl
  · have hread : (layout.andThen extension).decode (encode m ++ tail) =
        .ok ((fieldsOf m, extensionOf m), tail) := by
      rw [encode_eq]
      exact (layout_canonical.andThen extension_canonical _ _ _).mpr ⟨hfits, rfl⟩
    rw [decode_current_eq, hread]
    simp only [bind, Except.bind, ne_eq, htail, not_false_eq_true, if_true]
    rfl

/-- The record of a header of one channel, cut within a text, at the start of a field and within a
vector, and with two bytes behind it. -/
theorem length_detected_single :
    Metadata.single.TextsFit ∧ Metadata.single.VectorsFit ∧
      decode ((encode .single).take 17) currentVersion = .error (.truncated .telescope) ∧
      decode ((encode .single).take 22) currentVersion = .error (.truncated .scanId) ∧
      decode ((encode .single).take 150) currentVersion = .error (.truncated .frequencyBins) ∧
      decode (encode .single ++ [0, 0]) currentVersion = .error (.trailing 2) := by
  have htexts : Metadata.single.TextsFit := by decide
  have hvectors : Metadata.single.VectorsFit := by decide
  obtain ⟨-, -, hcut, htail⟩ := length_detected htexts hvectors
  have hfield : ∀ k field, k < (encode .single).length →
      fieldAt? (fieldBytes .single) k = some field →
      decode ((encode .single).take k) currentVersion = .error (.truncated field) := by
    intro k field hk hfield
    obtain ⟨found, hfound, herror⟩ := hcut k hk
    obtain rfl : found = field := Option.some.inj (hfound.symm.trans hfield)
    exact herror
  refine ⟨htexts, hvectors, hfield 17 _ ?_ ?_, hfield 22 _ ?_ ?_, hfield 150 _ ?_ ?_,
    htail [0, 0] (List.cons_ne_nil _ _)⟩ <;> decide +kernel

end Record

end VoltageStats
