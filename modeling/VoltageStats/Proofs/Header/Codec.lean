import VoltageStats.Header.Codec
import VoltageStats.Proofs.Bytes
import VoltageStats.Proofs.Checked

/-!
# Canonical codecs

A codec is canonical on a set of values if reading succeeds on exactly the bytes that writing one
of those values makes, whatever follows them. Each field of the header record has such a codec,
and one canonical codec after another is canonical again (`Canonical.andThen`).
-/

namespace VoltageStats.Codec

variable {α β : Type}

/-- Reading gives `x` exactly when `x` fits and the bytes start with what is written for it. -/
def Canonical (codec : Codec α) (Fits : α → Prop) : Prop :=
  ∀ bytes x rest, codec.decode bytes = .ok (x, rest) ↔ Fits x ∧ codec.encode x ++ rest = bytes

theorem number_eq_ok_iff {field : HeaderKey} {width n : Nat} {bytes rest : List UInt8} :
    number field width bytes = .ok (n, rest) ↔
      n < 256 ^ width ∧ LittleEndian.encode width n ++ rest = bytes := by
  rw [number, ← LittleEndian.decode?_eq_some_iff]
  cases LittleEndian.decode? width bytes <;> simp

theorem word32_canonical (field : HeaderKey) : (word32 field).Canonical fun _ => True := by
  intro bytes x rest
  simp only [word32, except_bind_eq_ok_iff, except_pure_eq_ok_iff, Prod.exists, number_eq_ok_iff,
    Prod.mk.injEq, true_and]
  constructor
  · rintro ⟨n, rest, ⟨hn, hbytes⟩, rfl, rfl⟩
    rwa [UInt32.toNat_ofNat_of_lt' hn]
  · intro hbytes
    exact ⟨x.toNat, rest, ⟨x.toNat_lt, hbytes⟩, UInt32.ofNat_toNat, rfl⟩

theorem word64_canonical (field : HeaderKey) : (word64 field).Canonical fun _ => True := by
  intro bytes x rest
  simp only [word64, except_bind_eq_ok_iff, except_pure_eq_ok_iff, Prod.exists, number_eq_ok_iff,
    Prod.mk.injEq, true_and]
  constructor
  · rintro ⟨n, rest, ⟨hn, hbytes⟩, rfl, rfl⟩
    rwa [UInt64.toNat_ofNat_of_lt' hn]
  · intro hbytes
    exact ⟨x.toNat, rest, ⟨x.toNat_lt, hbytes⟩, UInt64.ofNat_toNat, rfl⟩

theorem double_canonical (field : HeaderKey) : (double field).Canonical fun _ => True := by
  intro bytes x rest
  simp only [double, except_bind_eq_ok_iff, except_pure_eq_ok_iff, Prod.exists,
    word64_canonical field _ _ _, Prod.mk.injEq, true_and]
  constructor
  · rintro ⟨bits, rest, hbytes, rfl, rfl⟩
    exact hbytes
  · intro hbytes
    exact ⟨x.bits, rest, hbytes, rfl, rfl⟩

/-! ## Lengths -/

@[simp] theorem length_word32 (field : HeaderKey) (n : UInt32) :
    ((word32 field).encode n).length = 4 :=
  LittleEndian.length_encode 4 _

@[simp] theorem length_word64 (field : HeaderKey) (n : UInt64) :
    ((word64 field).encode n).length = 8 :=
  LittleEndian.length_encode 8 _

@[simp] theorem length_double (field : HeaderKey) (x : Binary64) :
    ((double field).encode x).length = 8 :=
  LittleEndian.length_encode 8 _

theorem length_text (field : HeaderKey) (s : String) :
    ((text field).encode s).length = 4 + s.utf8ByteSize := by
  show (LittleEndian.encode 4 s.utf8ByteSize ++ s.toByteArray.data.toList).length = _
  rw [List.length_append, LittleEndian.length_encode, length_toByteArray]

theorem length_vector (field : HeaderKey) {width : Nat} {element : Codec α}
    (hwidth : ∀ x, (element.encode x).length = width) (xs : Array α) :
    ((vector field width element).encode xs).length = 8 + xs.size * width := by
  show (LittleEndian.encode 8 xs.size ++ xs.toList.flatMap element.encode).length = _
  rw [List.length_append, LittleEndian.length_encode, length_flatMap_const hwidth,
    Array.length_toList]

theorem length_doubles (field : HeaderKey) (xs : Array Binary64) :
    ((doubles field).encode xs).length = 8 + xs.size * 8 :=
  length_vector field (length_double field) xs

theorem length_counts (field : HeaderKey) (xs : Array UInt32) :
    ((counts field).encode xs).length = 8 + xs.size * 4 :=
  length_vector field (length_word32 field) xs

/-! ## Texts and vectors -/

/-- A text reads back if its length fits the four bytes it is written in. -/
def TextFits (s : String) : Prop := s.utf8ByteSize < 2 ^ 32

instance (s : String) : Decidable (TextFits s) := inferInstanceAs (Decidable (_ < _))

theorem text_canonical (field : HeaderKey) : (text field).Canonical TextFits := by
  intro bytes s rest
  simp only [text, except_bind_eq_ok_iff, except_refuse_eq_ok_iff, Prod.exists, number_eq_ok_iff,
    String.toUTF8_eq_toByteArray]
  constructor
  · rintro ⟨size, tail, ⟨hsize, rfl⟩, hlong, h⟩
    cases hs : String.fromUTF8? ⟨(tail.take size).toArray⟩ with
    | none => simp [hs] at h
    | some s =>
        simp only [hs, except_pure_eq_ok_iff, Prod.mk.injEq] at h
        obtain ⟨rfl, rfl⟩ := h
        -- A text that is read has as many bytes as its length field says, since none is missing.
        have htake : s.toByteArray.data.toList = tail.take size := by
          rw [← fromUTF8?_eq_some_iff.mp hs]
        have hlength : s.utf8ByteSize = size := by
          rw [← length_toByteArray, htake, List.length_take]
          omega
        rw [TextFits, hlength, htake, List.append_assoc, List.take_append_drop]
        exact ⟨hsize, rfl⟩
  · rintro ⟨hfits, rfl⟩
    have hsize := length_toByteArray s
    refine ⟨s.utf8ByteSize, s.toByteArray.data.toList ++ rest, ⟨hfits, ?_⟩, ?_, ?_⟩
    · rw [List.append_assoc]
    · rw [List.length_append]
      omega
    · rw [← hsize, List.take_left, List.drop_left,
        fromUTF8?_eq_some_iff.mpr rfl]
      rfl

/-- Elements are read back one after the other. -/
theorem elements_eq_ok_iff {element : Codec α} (helement : element.Canonical fun _ => True)
    {count : Nat} {bytes rest : List UInt8} {xs : List α} :
    elements element count bytes = .ok (xs, rest) ↔
      xs.length = count ∧ xs.flatMap element.encode ++ rest = bytes := by
  induction count generalizing bytes rest xs with
  | zero =>
      rw [elements, List.length_eq_zero_iff]
      constructor
      · intro h
        cases h
        exact ⟨rfl, rfl⟩
      · rintro ⟨rfl, rfl⟩
        rfl
  | succ count ih =>
      simp only [elements, except_bind_eq_ok_iff, except_pure_eq_ok_iff, Prod.exists,
        helement _ _ _, ih, Prod.mk.injEq, true_and]
      constructor
      · rintro ⟨x, _, rfl, xs, _, ⟨rfl, rfl⟩, rfl, rfl⟩
        simp
      · rintro ⟨hlength, rfl⟩
        cases xs with
        | nil => cases hlength
        | cons x xs =>
            refine ⟨x, xs.flatMap element.encode ++ rest, ?_, xs, rest, ⟨?_, rfl⟩, rfl, rfl⟩
            · simp
            · simpa using hlength

/-- A vector reads back if its length fits the eight bytes it is written in. -/
def VectorFits (xs : Array α) : Prop := xs.size < 2 ^ 64

instance (xs : Array α) : Decidable (VectorFits xs) := inferInstanceAs (Decidable (_ < _))

/-- The check that there are enough bytes refuses nothing that has all its elements. -/
theorem vector_canonical (field : HeaderKey) {width : Nat} {element : Codec α}
    (helement : element.Canonical fun _ => True)
    (hwidth : ∀ x, (element.encode x).length = width) :
    (vector field width element).Canonical VectorFits := by
  intro bytes xs rest
  simp only [vector, except_bind_eq_ok_iff, except_refuse_eq_ok_iff, except_pure_eq_ok_iff,
    Prod.exists, number_eq_ok_iff, elements_eq_ok_iff helement, Prod.mk.injEq]
  constructor
  · rintro ⟨count, _, ⟨hcount, rfl⟩, -, xs, _, ⟨rfl, rfl⟩, rfl, rfl⟩
    exact ⟨hcount, by simp⟩
  · rintro ⟨hfits, rfl⟩
    refine ⟨xs.size, xs.toList.flatMap element.encode ++ rest, ⟨hfits, ?_⟩, ?_, xs.toList, rest,
      ⟨Array.length_toList, rfl⟩, rfl, rfl⟩
    · rw [List.append_assoc]
    · rw [List.length_append, length_flatMap_const hwidth, Array.length_toList]
      omega

theorem doubles_canonical (field : HeaderKey) : (doubles field).Canonical VectorFits :=
  vector_canonical field (double_canonical field) (length_double field)

theorem counts_canonical (field : HeaderKey) : (counts field).Canonical VectorFits :=
  vector_canonical field (word32_canonical field) (length_word32 field)

/-! ## One field after the other -/

variable {first : Codec α} {second : Codec β} {Fits : α → Prop} {FitsNext : β → Prop}

theorem encode_andThen (a : α) (b : β) :
    (first.andThen second).encode (a, b) = first.encode a ++ second.encode b := rfl

theorem Canonical.andThen (hfirst : first.Canonical Fits) (hsecond : second.Canonical FitsNext) :
    (first.andThen second).Canonical fun x => Fits x.1 ∧ FitsNext x.2 := by
  intro bytes x rest
  obtain ⟨a, b⟩ := x
  simp only [Codec.andThen, except_bind_eq_ok_iff, except_pure_eq_ok_iff, Prod.exists,
    hfirst _ _ _, hsecond _ _ _, Prod.mk.injEq]
  constructor
  · rintro ⟨a, _, ⟨ha, rfl⟩, b, _, ⟨hb, rfl⟩, ⟨rfl, rfl⟩, rfl⟩
    exact ⟨⟨ha, hb⟩, List.append_assoc _ _ _⟩
  · rintro ⟨⟨ha, hb⟩, rfl⟩
    exact ⟨a, second.encode b ++ rest, ⟨ha, (List.append_assoc _ _ _).symm⟩, b, rest,
      ⟨hb, rfl⟩, ⟨rfl, rfl⟩, rfl⟩

end VoltageStats.Codec
