import VoltageStats.Proofs.Archive.Load
import VoltageStats.Proofs.Tensor

/-!
# What an archive holds

An archive holds an array under a key if the member with that key is an array file with all its
elements (`Archive.HoldsArray`). Loading statistics comes to exactly what an archive holds: it
succeeds if the archive holds a version, a record of a consistent header, and for each key an array
of the shape that the header says (`Archive.Describes`), and it puts each of these arrays under its
own key (`Archive.HoldsTensor`). The arrays of bytes that hold the version and the record are taken
in any shape (`Archive.DescribesInAnyShape`). Other members have no part in it
(`Archive.load_congr`).
-/

namespace VoltageStats

open Npy (ArrayFile ScalarType)

/-! ## Array files with all their elements -/

namespace Npy

/-- The lengths of axes that are read are below `2 ^ 64`. -/
theorem lt_of_mem_shapeOf? {literal : Literal} {shape : List Nat}
    (h : shapeOf? literal = some shape) : ∀ n ∈ shape, n < 2 ^ 64 := by
  cases literal with
  | tuple items | list items =>
      intro n hn
      obtain ⟨item, -, hitem⟩ := exists_of_mem_mapM h hn
      cases item with
      | integer value =>
          simp only [Bool.and_eq_true, decide_eq_true_eq, Option.ite_none_right_eq_some,
            Option.some.injEq] at hitem
          obtain ⟨⟨hlow, hhigh⟩, rfl⟩ := hitem
          omega
      | _ => cases hitem
  | _ => cases h

namespace ArrayFile

theorem lt_of_mem_ofHeader? {header : Literal} {payload : ByteArray} {file : ArrayFile}
    (h : ofHeader? header payload = some file) : ∀ n ∈ file.shape, n < 2 ^ 64 := by
  unfold ofHeader? at h
  cases header with
  | dictionary entries =>
      simp only [Option.bind_eq_bind, Option.bind_eq_some_iff] at h
      obtain ⟨-, -, _, -, _, -, _, -, h⟩ := h
      split at h
      · simp only [Option.bind_some, Option.bind_eq_some_iff] at h
        obtain ⟨_, -, shape, hshape, h⟩ := h
        obtain rfl := Option.some.inj h
        exact lt_of_mem_shapeOf? hshape
      · cases h
  | _ => cases h

/-- The lengths of the axes of an array file are below `2 ^ 64`. -/
theorem lt_of_mem_shape {bytes : ByteArray} {file : ArrayFile} (h : parse bytes = .ok file) :
    ∀ n ∈ file.shape, n < 2 ^ 64 := by
  unfold parse at h
  simp only [except_refuse_eq_ok_iff] at h
  obtain ⟨-, -, -, h⟩ := h
  split at h
  · cases h
  · simp only [except_refuse_eq_ok_iff] at h
    obtain ⟨-, -, h⟩ := h
    split at h
    next found hfound =>
      obtain rfl := Except.ok.inj h
      obtain ⟨header, -, hheader⟩ := Option.bind_eq_some_iff.mp hfound
      exact lt_of_mem_ofHeader? hheader
    · cases h

/-- The file has elements of a type in axes of given lengths, the first running fastest or the last,
and these are the bytes of all of them. There are fewer elements than a count of 64 bits can
tell. -/
structure Stores (file : ArrayFile) (type : ScalarType) (shape : List Nat) (isColumnMajor : Bool)
    (elements : ByteArray) : Prop where
  elementType_eq : file.elementType = .scalar type
  shape_eq : file.shape = shape
  isColumnMajor_eq : file.isColumnMajor = isColumnMajor
  count_lt : volume shape < 2 ^ 64
  size_eq : elements.size = volume shape * type.size
  extract_eq : file.payload.extract 0 elements.size = elements

/-- The bytes of the elements are as many as the elements take, from the front of what the file
holds. -/
theorem elementBytes?_eq_some_iff {file : ArrayFile} {width : Nat} {elements : ByteArray} :
    file.elementBytes? width = some elements ↔
      elements.size = volume file.shape % 2 ^ 64 * width ∧
        file.payload.extract 0 elements.size = elements := by
  unfold elementBytes? elementCount
  dsimp only
  constructor
  · intro h
    split at h
    · cases h
    next hsize =>
      obtain rfl := Option.some.inj h
      have hextract : (file.payload.extract 0 (volume file.shape % 2 ^ 64 * width)).size =
          volume file.shape % 2 ^ 64 * width := by
        rw [ByteArray.size_extract]
        omega
      exact ⟨hextract, by rw [hextract]⟩
  · rintro ⟨hsize, hextract⟩
    have hle : elements.size ≤ file.payload.size := by
      rw [← hextract, ByteArray.size_extract]
      omega
    rw [← hsize, if_neg (Nat.not_lt_of_le hle), hextract]

end ArrayFile

end Npy

namespace Archive

variable {archive other : Archive} {key : String} {type : ScalarType} {shape : List Nat}
  {isColumnMajor : Bool} {elements bytes : ByteArray} {file : ArrayFile} {m : Metadata}
  {s : Statistics} {version : String}

/-! ## What is held -/

/-- The array file with a key. -/
def arrayFile? (archive : Archive) (key : String) : Option ArrayFile :=
  match archive.find? (memberName key) with
  | some (.ok member) => (ArrayFile.parse member.bytes).toOption
  | _ => none

/-- The archive holds an array of a type and a shape under a key, in an order and with the bytes of
all its elements. -/
def HoldsArray (archive : Archive) (key : String) (type : ScalarType) (shape : List Nat)
    (isColumnMajor : Bool) (elements : ByteArray) : Prop :=
  ∃ file, archive.arrayFile? key = some file ∧ file.Stores type shape isColumnMajor elements

/-- The archive holds some bytes under a key, as an array with one axis. -/
def HoldsBytes (archive : Archive) (key : String) (bytes : ByteArray) : Prop :=
  ∃ isColumnMajor, archive.HoldsArray key .byte [bytes.size] isColumnMajor bytes

/-- The archive holds some bytes under a key, as an array of any shape in any order. -/
def HoldsPayload (archive : Archive) (key : String) (bytes : ByteArray) : Prop :=
  ∃ file, archive.arrayFile? key = some file ∧ file.elementType = .scalar .byte ∧
    file.elementBytes? ScalarType.byte.size = some bytes

/-- Under a key there is no array of bytes with more than one axis, or with none. -/
def HasOneAxis (archive : Archive) (key : String) : Prop :=
  ∀ file, archive.arrayFile? key = some file → file.elementType = .scalar .byte →
    (file.elementBytes? ScalarType.byte.size).isSome → file.shape.length = 1

/-- The archive holds the cells of a tensor under a key: each is the word at its place in the order
of the file. -/
def HoldsTensor (archive : Archive) (key : DataKey)
    (t : Tensor (key.kind.Element Binary32 UInt32)) : Prop :=
  ∃ isColumnMajor elements,
    archive.HoldsArray key.name key.kind.scalarType t.shape isColumnMajor elements ∧
    ∀ index position, rowMajor? t.shape index = some position →
      t.get? index = some (key.kind.ofWord (UInt32.ofNat (LittleEndian.word32At elements
        (4 * if isColumnMajor then columnMajor t.shape index else position))))

/-- The archive holds statistics of a version under a header: the version is one that is read, the
header is that of a record in that version and is consistent, and under each key there is an array
with the elements and the shape that belong to it. -/
structure Describes (archive : Archive) (version : String) (m : Metadata) : Prop where
  version_eq : version = "1.0.0" ∨ version = "1.1.0"
  holds_version : archive.HoldsBytes HeaderKey.fileFormatVersion.name version.toUTF8
  header : ∃ record, archive.HoldsBytes headerMember record ∧
    Record.decode record.data.toList version = .ok m
  valid : m.validate = .ok ()
  array : ∀ key : DataKey, ∃ isColumnMajor elements,
    archive.HoldsArray key.name key.kind.scalarType (m.expectedShape key) isColumnMajor elements

/-- The archive holds statistics of a version under a header, as `Describes` says, but for the
shapes of the arrays that hold the version and the record. -/
structure DescribesInAnyShape (archive : Archive) (version : String) (m : Metadata) : Prop where
  version_eq : version = "1.0.0" ∨ version = "1.1.0"
  holds_version : archive.HoldsPayload HeaderKey.fileFormatVersion.name version.toUTF8
  header : ∃ record, archive.HoldsPayload headerMember record ∧
    Record.decode record.data.toList version = .ok m
  valid : m.validate = .ok ()
  array : ∀ key : DataKey, ∃ isColumnMajor elements,
    archive.HoldsArray key.name key.kind.scalarType (m.expectedShape key) isColumnMajor elements

/-- The names of the members that are looked for. -/
def memberNames : List String :=
  (HeaderKey.fileFormatVersion.name :: headerMember :: DataKey.all.map DataKey.name).map memberName

/-! ## Array files -/

/-- A file is loaded if it has the type and the bytes of its elements. -/
theorem loadFile_eq_ok_iff :
    archive.loadFile key type = .ok file ↔
      ∃ raw, archive.arrayFile? key = some raw ∧ raw.elementType = .scalar type ∧
        raw.elementBytes? type.size = some file.payload ∧
        { raw with payload := file.payload } = file := by
  unfold loadFile arrayFile?
  cases hfind : archive.find? (memberName key) with
  | none => simp
  | some entry =>
  cases entry with
  | error fault => simp
  | ok member =>
  dsimp only
  cases hparse : ArrayFile.parse member.bytes with
  | error fault => simp [Except.toOption]
  | ok raw =>
  simp only [Except.toOption, Option.some.injEq, exists_eq_left']
  obtain ⟨elementType, isColumnMajor, shape, payload⟩ := raw
  cases elementType with
  | record fields => simp
  | scalar actual =>
  simp only [except_refuse_eq_ok_iff, Npy.ElementType.scalar.injEq, Bool.not_eq_true',
    decide_eq_false_iff_not, Decidable.not_not]
  refine and_congr_right fun _ => ?_
  cases hbytes : ArrayFile.elementBytes? _ type.size with
  | none => simp
  | some elements =>
      simp only [except_pure_eq_ok_iff, Option.some.injEq]
      constructor
      · rintro rfl
        exact ⟨rfl, rfl⟩
      · rintro ⟨rfl, h⟩
        exact h

/-- An array file is what a member is taken apart into. -/
theorem arrayFile?_eq_some_iff :
    archive.arrayFile? key = some file ↔
      ∃ member, archive.find? (memberName key) = some (.ok member) ∧
        ArrayFile.parse member.bytes = .ok file := by
  unfold arrayFile?
  cases hfind : archive.find? (memberName key) with
  | none => simp
  | some entry =>
      cases entry with
      | error fault => simp
      | ok member => cases hparse : ArrayFile.parse member.bytes <;> simp [hparse, Except.toOption]

theorem lt_of_mem_arrayFile? (h : archive.arrayFile? key = some file) :
    ∀ n ∈ file.shape, n < 2 ^ 64 := by
  obtain ⟨member, -, hparse⟩ := arrayFile?_eq_some_iff.mp h
  exact ArrayFile.lt_of_mem_shape hparse

/-- An array that is held is loaded with the bytes of its elements. -/
theorem HoldsArray.loadFile (h : archive.HoldsArray key type shape isColumnMajor elements) :
    archive.loadFile key type =
      .ok { elementType := .scalar type, isColumnMajor, shape, payload := elements } := by
  obtain ⟨raw, hraw, hstores⟩ := h
  have hbytes : raw.elementBytes? type.size = some elements := by
    rw [ArrayFile.elementBytes?_eq_some_iff, hstores.shape_eq, Nat.mod_eq_of_lt hstores.count_lt]
    exact ⟨hstores.size_eq, hstores.extract_eq⟩
  rw [loadFile_eq_ok_iff]
  refine ⟨raw, hraw, hstores.elementType_eq, hbytes, ?_⟩
  rw [← hstores.elementType_eq, ← hstores.isColumnMajor_eq, ← hstores.shape_eq]

/-- A file that is loaded is an array that is held, unless it has too many elements to count. -/
theorem holdsArray_of_loadFile (h : archive.loadFile key type = .ok file)
    (hcount : volume file.shape < 2 ^ 64) :
    archive.HoldsArray key type file.shape file.isColumnMajor file.payload := by
  obtain ⟨raw, hraw, htype, hbytes, hfile⟩ := loadFile_eq_ok_iff.mp h
  have hshape : raw.shape = file.shape := by rw [← hfile]
  have horder : raw.isColumnMajor = file.isColumnMajor := by rw [← hfile]
  obtain ⟨hsize, hextract⟩ := ArrayFile.elementBytes?_eq_some_iff.mp hbytes
  rw [hshape, Nat.mod_eq_of_lt hcount] at hsize
  exact ⟨raw, hraw, htype, hshape, horder, hcount, hsize, hextract⟩

/-! ## Members of bytes -/

/-- A member of bytes that is loaded with one axis has one. -/
theorem hasOneAxis_of_loadFile (h : archive.loadFile key .byte = .ok file)
    (hshape : file.shape.length = 1) : archive.HasOneAxis key := by
  obtain ⟨raw, hraw, -, -, hfile⟩ := loadFile_eq_ok_iff.mp h
  intro found hfound _ _
  obtain rfl : raw = found := Option.some.inj (hraw.symm.trans hfound)
  rwa [← hfile] at hshape

/-- The bytes that are held are those of the file that is loaded, whatever its shape. -/
theorem holdsPayload_iff :
    archive.HoldsPayload key bytes ↔
      ∃ file, archive.loadFile key .byte = .ok file ∧ file.payload = bytes := by
  simp only [loadFile_eq_ok_iff]
  constructor
  · rintro ⟨raw, hraw, htype, hbytes⟩
    exact ⟨{ raw with payload := bytes }, ⟨raw, hraw, htype, hbytes, rfl⟩, rfl⟩
  · rintro ⟨file, ⟨raw, hraw, htype, hbytes, -⟩, rfl⟩
    exact ⟨raw, hraw, htype, hbytes⟩

/-- Bytes with one axis are fewer than a count of 64 bits can tell, so they are all there. -/
theorem holdsBytes_iff (haxis : archive.HasOneAxis key) :
    archive.HoldsBytes key bytes ↔ archive.HoldsPayload key bytes := by
  constructor
  · rintro ⟨isColumnMajor, harray⟩
    exact holdsPayload_iff.mpr ⟨_, harray.loadFile, rfl⟩
  · intro h
    obtain ⟨file, hfile, rfl⟩ := holdsPayload_iff.mp h
    obtain ⟨raw, hraw, htype, hbytes⟩ := h
    obtain ⟨n, hn⟩ : ∃ n, raw.shape = [n] :=
      List.length_eq_one_iff.mp (haxis raw hraw htype (Option.isSome_of_eq_some hbytes))
    have hlt : n < 2 ^ 64 :=
      lt_of_mem_arrayFile? hraw n (by rw [hn]; exact List.mem_singleton_self n)
    have hshape : file.shape = [n] := by
      obtain ⟨found, hfound, -, -, hfile⟩ := loadFile_eq_ok_iff.mp hfile
      obtain rfl : raw = found := Option.some.inj (hraw.symm.trans hfound)
      rw [← hfile, ← hn]
    have hvolume : volume file.shape = n := by
      rw [hshape]
      exact Nat.mul_one n
    have harray := holdsArray_of_loadFile hfile (hvolume ▸ hlt)
    have hsize : file.payload.size = n := by
      obtain ⟨_, -, hstores⟩ := harray
      rw [hstores.size_eq, hvolume]
      exact Nat.mul_one n
    rw [hshape, ← hsize] at harray
    exact ⟨file.isColumnMajor, harray⟩

/-- The version that is loaded is the one that is held, in whatever shape. -/
theorem loadVersion_eq_ok_iff_holdsPayload :
    archive.loadVersion = .ok version ↔
      (version = "1.0.0" ∨ version = "1.1.0") ∧
        archive.HoldsPayload HeaderKey.fileFormatVersion.name version.toUTF8 := by
  have hsupported : ∀ text, text ∈ supportedVersions ↔ text = "1.0.0" ∨ text = "1.1.0" := by
    intro text
    rw [supportedVersions, legacyVersion, currentVersion, List.mem_pair]
  rw [loadVersion, except_bind_eq_ok_iff, holdsPayload_iff]
  constructor
  · rintro ⟨file, hfile, h⟩
    split at h
    · cases h
    next text htext =>
      split at h
      next hmem =>
        obtain rfl := Except.ok.inj h
        exact ⟨(hsupported text).mp hmem, file, hfile, fromUTF8?_eq_some_iff.mp htext⟩
      · cases h
  · rintro ⟨hversion, file, hfile, hpayload⟩
    have htext : String.fromUTF8? file.payload = some version :=
      fromUTF8?_eq_some_iff.mpr hpayload
    refine ⟨file, hfile, ?_⟩
    rw [htext]
    dsimp only
    rw [if_pos ((hsupported version).mpr hversion)]
    rfl

/-- The header that is loaded is that of the record that is held, in whatever shape. -/
theorem loadHeader_eq_ok_iff_holdsPayload :
    archive.loadHeader version = .ok m ↔
      (∃ record, archive.HoldsPayload headerMember record ∧
        Record.decode record.data.toList version = .ok m) ∧ m.validate = .ok () := by
  simp only [loadHeader, except_bind_eq_ok_iff, except_mapError_eq_ok_iff, headerOf_eq_ok_iff,
    Metadata.validate_eq_ok_iff, holdsPayload_iff]
  constructor
  · rintro ⟨file, hfile, hdecode, hm⟩
    exact ⟨⟨_, ⟨file, hfile, rfl⟩, hdecode⟩, hm⟩
  · rintro ⟨⟨_, ⟨file, hfile, rfl⟩, hdecode⟩, hm⟩
    exact ⟨file, hfile, hdecode, hm⟩

/-- The header that is loaded is that of the record that is held. -/
theorem loadHeader_eq_ok_iff (haxis : archive.HasOneAxis headerMember) :
    archive.loadHeader version = .ok m ↔
      (∃ record, archive.HoldsBytes headerMember record ∧
        Record.decode record.data.toList version = .ok m) ∧ m.validate = .ok () := by
  simp only [loadHeader_eq_ok_iff_holdsPayload, holdsBytes_iff haxis]

/-! ## Arrays -/

/-- An array is loaded if its file has the shape that the header says and as many cells. -/
theorem loadTensor_eq_ok_iff {key : DataKey} {t : Tensor (key.kind.Element Binary32 UInt32)} :
    archive.loadTensor m key = .ok t ↔
      ∃ file, archive.loadFile key.name key.kind.scalarType = .ok file ∧
        file.shape = m.expectedShape key ∧
        (if file.isColumnMajor then
          Tensor.ofColumnMajor? file.shape ((wordsOf file.payload).map key.kind.ofWord)
        else Tensor.ofCells? file.shape ((wordsOf file.payload).map key.kind.ofWord)) =
          some t := by
  unfold loadTensor
  simp only [except_bind_eq_ok_iff, except_refuse_eq_ok_iff, Decidable.not_not]
  refine exists_congr fun file => and_congr_right fun _ => and_congr_right fun _ => ?_
  split
  next found hfound => rw [hfound, except_pure_eq_ok_iff, Option.some.injEq]
  next hnone =>
    rw [hnone]
    exact iff_of_false except_throw_ne_ok (Option.some_ne_none t).symm

theorem size_scalarType (kind : ElementKind) : kind.scalarType.size = 4 := by
  cases kind <;> rfl

/-- A cell among the words of some bytes. -/
theorem getElem?_map_wordsOf {α : Type} (f : UInt32 → α) {i : Nat}
    (hi : i < (wordsOf elements).size) :
    ((wordsOf elements).map f)[i]? =
      some (f (UInt32.ofNat (LittleEndian.word32At elements (4 * i)))) := by
  rw [Array.getElem?_map, Array.getElem?_eq_getElem hi, Option.map_some]
  simp only [wordsOf, Array.getElem_ofFn]

/-- An array that is loaded is held, cell by cell, in the shape that the header says. -/
theorem holdsTensor_of_loadTensor {key : DataKey} {t : Tensor (key.kind.Element Binary32 UInt32)}
    (h : archive.loadTensor m key = .ok t) :
    t.shape = m.expectedShape key ∧ archive.HoldsTensor key t := by
  obtain ⟨file, hfile, hshape, htensor⟩ := loadTensor_eq_ok_iff.mp h
  obtain ⟨raw, -, -, hbytes, hraw⟩ := loadFile_eq_ok_iff.mp hfile
  have hrawShape : raw.shape = file.shape := by rw [← hraw]
  obtain ⟨hsize, -⟩ := ArrayFile.elementBytes?_eq_some_iff.mp hbytes
  have hwords : ((wordsOf file.payload).map key.kind.ofWord).size = volume file.shape % 2 ^ 64 := by
    rw [Array.size_map, wordsOf, Array.size_ofFn, hsize, size_scalarType, hrawShape,
      Nat.mul_div_cancel _ (by decide)]
  -- In either order there are as many words as the shape has index tuples, so none was cut off.
  cases horder : file.isColumnMajor with
  | true =>
      rw [horder, if_pos rfl] at htensor
      obtain ⟨ht, hcells, hget⟩ := Tensor.get?_of_ofColumnMajor? htensor
      have hcount : volume file.shape < 2 ^ 64 := by omega
      refine ⟨ht.trans hshape, true, file.payload, ?_, fun index position hposition => ?_⟩
      · have harray := holdsArray_of_loadFile hfile hcount
        rwa [horder, ← ht] at harray
      · rw [ht] at hposition
        have hlt : columnMajor file.shape index < (wordsOf file.payload).size := by
          rw [← Array.size_map (f := key.kind.ofWord), hcells,
            ← indexAt_of_rowMajor? hposition]
          exact columnMajor_indexAt_lt (rowMajor?_lt hposition)
        rw [hget index position hposition, getElem?_map_wordsOf _ hlt, ht, if_pos rfl]
  | false =>
      rw [horder, if_neg Bool.false_ne_true] at htensor
      obtain ⟨ht, hcells, hget⟩ := Tensor.get?_of_ofCells? htensor
      have hcount : volume file.shape < 2 ^ 64 := by omega
      refine ⟨ht.trans hshape, false, file.payload, ?_, fun index position hposition => ?_⟩
      · have harray := holdsArray_of_loadFile hfile hcount
        rwa [horder, ← ht] at harray
      · rw [ht] at hposition
        have hlt : position < (wordsOf file.payload).size := by
          rw [← Array.size_map (f := key.kind.ofWord), hcells]
          exact rowMajor?_lt hposition
        rw [hget index position hposition, getElem?_map_wordsOf _ hlt,
          if_neg Bool.false_ne_true]

/-- An array of the shape that the header says is loaded. -/
theorem exists_loadTensor {key : DataKey}
    (h : archive.HoldsArray key.name key.kind.scalarType (m.expectedShape key) isColumnMajor
      elements) :
    ∃ t, archive.loadTensor m key = .ok t := by
  have hcells : ((wordsOf elements).map key.kind.ofWord).size = volume (m.expectedShape key) := by
    obtain ⟨_, -, hstores⟩ := h
    rw [Array.size_map, wordsOf, Array.size_ofFn, hstores.size_eq, size_scalarType,
      Nat.mul_div_cancel _ (by decide)]
  obtain ⟨t, ht⟩ := Tensor.exists_of_size hcells isColumnMajor
  exact ⟨t, loadTensor_eq_ok_iff.mpr ⟨_, h.loadFile, rfl, ht⟩⟩

/-! ## Statistics -/

/-- The header and the arrays that are loaded always fit together. -/
theorem ofParts_of_load {d : Data} (hm : archive.loadHeader version = .ok m)
    (hd : StatArrays.ofFnM (archive.loadTensor m) = .ok d) :
    Statistics.ofParts m d = .ok ⟨m, d⟩ := by
  obtain ⟨_, -, hheader⟩ : ∃ file, archive.loadFile headerMember .byte = .ok file ∧
      (headerOf file.payload.data.toList version).mapError LoadError.format = .ok m := by
    rwa [loadHeader, except_bind_eq_ok_iff] at hm
  rw [except_mapError_eq_ok_iff, headerOf_eq_ok_iff] at hheader
  have hshapes : ∀ key, d.shapeOf key = m.expectedShape key := by
    intro key
    exact (holdsTensor_of_loadTensor (StatArrays.ofFnM_eq_ok_iff.mp hd key)).1
  exact Statistics.ofParts_eq_ok_iff.mpr
    ⟨Metadata.validate_eq_ok_iff.mpr hheader.2, StatArrays.validate_eq_ok_iff.mpr hshapes, rfl⟩

/-- Statistics are loaded part by part; that the parts fit together need not be checked again. -/
theorem load_eq_ok_iff :
    archive.load = .ok s ↔
      ∃ version, archive.loadVersion = .ok version ∧
        archive.loadHeader version = .ok s.metadata ∧
        ∀ key, archive.loadTensor s.metadata key = .ok (s.data.get key) := by
  unfold load
  simp only [except_bind_eq_ok_iff, except_mapError_eq_ok_iff]
  constructor
  · rintro ⟨version, hversion, m, hm, d, hd, hs⟩
    rw [ofParts_of_load hm hd] at hs
    obtain rfl := Except.ok.inj hs
    exact ⟨version, hversion, hm, StatArrays.ofFnM_eq_ok_iff.mp hd⟩
  · rintro ⟨version, hversion, hm, htensors⟩
    have hd := StatArrays.ofFnM_eq_ok_iff.mpr htensors
    exact ⟨version, hversion, s.metadata, hm, s.data, hd, ofParts_of_load hm hd⟩

/-- What is loaded is what the archive holds, whatever the shapes of its members of bytes. -/
theorem exists_load_iff_inAnyShape :
    (∃ d, archive.load = .ok ⟨m, d⟩) ↔ ∃ version, archive.DescribesInAnyShape version m := by
  constructor
  · rintro ⟨d, h⟩
    obtain ⟨version, hv, hm, htensors⟩ := load_eq_ok_iff.mp h
    obtain ⟨hsupported, hbytes⟩ := loadVersion_eq_ok_iff_holdsPayload.mp hv
    obtain ⟨hrecord, hvalid⟩ := loadHeader_eq_ok_iff_holdsPayload.mp hm
    refine ⟨version, hsupported, hbytes, hrecord, hvalid, fun key => ?_⟩
    obtain ⟨hshape, isColumnMajor, elements, harray, -⟩ :=
      holdsTensor_of_loadTensor (htensors key)
    rw [hshape] at harray
    exact ⟨isColumnMajor, elements, harray⟩
  · rintro ⟨version, h⟩
    have htensors : ∀ key, ∃ t, archive.loadTensor m key = .ok t := by
      intro key
      obtain ⟨isColumnMajor, elements, harray⟩ := h.array key
      exact exists_loadTensor harray
    choose tensor htensor using htensors
    refine ⟨.ofFn tensor, load_eq_ok_iff.mpr ⟨version, ?_, ?_, fun key => ?_⟩⟩
    · exact loadVersion_eq_ok_iff_holdsPayload.mpr ⟨h.version_eq, h.holds_version⟩
    · exact loadHeader_eq_ok_iff_holdsPayload.mpr ⟨h.header, h.valid⟩
    · rw [StatArrays.get_ofFn]
      exact htensor key

/-- With one axis each, the version and the record are held as they are documented. -/
theorem describes_iff (hversion : archive.HasOneAxis HeaderKey.fileFormatVersion.name)
    (hheader : archive.HasOneAxis headerMember) :
    archive.Describes version m ↔ archive.DescribesInAnyShape version m := by
  constructor
  · rintro ⟨hsupported, hbytes, ⟨record, hrecord, hdecode⟩, hvalid, harray⟩
    exact ⟨hsupported, (holdsBytes_iff hversion).mp hbytes,
      ⟨record, (holdsBytes_iff hheader).mp hrecord, hdecode⟩, hvalid, harray⟩
  · rintro ⟨hsupported, hbytes, ⟨record, hrecord, hdecode⟩, hvalid, harray⟩
    exact ⟨hsupported, (holdsBytes_iff hversion).mpr hbytes,
      ⟨record, (holdsBytes_iff hheader).mpr hrecord, hdecode⟩, hvalid, harray⟩

/-- What is loaded is what the archive holds. -/
theorem exists_load_iff (hversion : archive.HasOneAxis HeaderKey.fileFormatVersion.name)
    (hheader : archive.HasOneAxis headerMember) :
    (∃ d, archive.load = .ok ⟨m, d⟩) ↔ ∃ version, archive.Describes version m := by
  simp only [exists_load_iff_inAnyShape, describes_iff hversion hheader]

/-! ## Other members -/

theorem loadFile_congr (h : other.find? (memberName key) = archive.find? (memberName key)) :
    other.loadFile key type = archive.loadFile key type := by
  rw [loadFile, loadFile, h]

/-- Only the members that are looked for matter, and of them only what their names find. -/
theorem load_congr (h : ∀ name ∈ memberNames, other.find? name = archive.find? name) :
    other.load = archive.load := by
  have hversion : other.loadVersion = archive.loadVersion := by
    have hfile := h (memberName HeaderKey.fileFormatVersion.name) (by simp [memberNames])
    rw [loadVersion, loadVersion, loadFile_congr hfile]
  have hheader : other.loadHeader = archive.loadHeader := by
    have hfile := h (memberName headerMember) (by simp [memberNames])
    funext version
    rw [loadHeader, loadHeader, loadFile_congr hfile]
  have htensor : other.loadTensor = archive.loadTensor := by
    funext m key
    have hmem : memberName key.name ∈ memberNames :=
      List.mem_map_of_mem (List.mem_cons_of_mem _ (List.mem_cons_of_mem _
        (List.mem_map_of_mem key.mem_all)))
    rw [loadTensor, loadTensor, loadFile_congr (h _ hmem)]
  rw [load, load, hversion, hheader, htensor]

/-- A name finds the same if nothing but members of other names has been changed. -/
theorem find?_eq_of_filter {names : List String}
    (h : other.entries.filter (fun entry => entry.1 ∈ names) =
      archive.entries.filter fun entry => entry.1 ∈ names) {name : String} (hname : name ∈ names) :
    other.find? name = archive.find? name := by
  have hfilter : ∀ a : Archive, a.entries.reverse.find? (·.1 = name) =
      (a.entries.filter fun entry => entry.1 ∈ names).reverse.find? (·.1 = name) := by
    intro a
    rw [← List.filter_reverse, List.find?_filter]
    refine congrArg (fun p => a.entries.reverse.find? p) (funext fun entry => ?_)
    by_cases heq : entry.1 = name <;> simp [heq, hname]
  rw [find?, find?, hfilter other, hfilter archive, h]

end Archive

end VoltageStats
