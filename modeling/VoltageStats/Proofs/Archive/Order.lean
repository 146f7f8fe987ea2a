import VoltageStats.Proofs.Archive.Contents
import VoltageStats.Proofs.Archive.RoundTrip
import VoltageStats.Proofs.TensorOrder

/-!
# Either order of storage

The cells of an array may stand in a file in row-major or in column-major order, as the header of
the file says. From either the same array is loaded, whatever the lengths of its axes, and it is
saved in row-major order (`Archive.loadTensor_either_order`).
-/

namespace VoltageStats

open Npy (ArrayFile Literal)
open Npy.Literal (Entry dictionaryChars)

/-- The bytes of some elements of a kind, one after the other. -/
def elementBytes (kind : ElementKind) (elements : List (kind.Element Binary32 UInt32)) :
    ByteArray :=
  wordBytes (elements.toArray.map kind.toWord)

theorem elementBytes_byRows {kind : ElementKind} (t : Tensor (kind.Element Binary32 UInt32)) :
    elementBytes kind t.byRows = wordBytes (t.cells.map kind.toWord) := by
  rw [elementBytes, Tensor.byRows_eq, Array.toArray_toList]

namespace Archive

variable {archive : Archive} {m : Metadata} {d : Data} {key : DataKey}
  {t : Tensor (key.kind.Element Binary32 UInt32)}

/-- An array is loaded from what its elements make in the order of the file. -/
theorem HoldsArray.loadTensor {isColumnMajor : Bool}
    {elements : List (key.kind.Element Binary32 UInt32)}
    (h : archive.HoldsArray key.name key.kind.scalarType (m.expectedShape key) isColumnMajor
      (elementBytes key.kind elements))
    (ht : (if isColumnMajor then Tensor.ofColumnMajor? (m.expectedShape key) elements.toArray
      else Tensor.ofCells? (m.expectedShape key) elements.toArray) = some t) :
    archive.loadTensor m key = .ok t := by
  refine loadTensor_eq_ok_iff.mpr ⟨_, h.loadFile, rfl, ?_⟩
  rw [elementBytes, ofWord_wordsOf]
  exact ht

/-- A saved archive holds the cells of every array in row-major order. -/
theorem Storable.holdsArray (h : Storable m d) (key : DataKey) :
    (ofMembers (membersOf m d)).HoldsArray key.name key.kind.scalarType (d.get key).shape false
      (elementBytes key.kind (d.get key).byRows) := by
  have hfile := loadFile_tensorMember (nodup_membersOf m d) (tensorMember_mem m d key)
    (h.shape_eq key) (h.size_cells_lt key)
  rw [elementBytes_byRows]
  exact holdsArray_of_loadFile hfile ((d.get key).size_eq ▸ h.size_cells_lt key)

/-- The order in which the cells of an array are stored makes no difference. An archive that holds
them in row-major order and one that holds them in column-major order both have the array loaded, in
every shape that a header can say; and what is written of the array that was loaded is its cells in
row-major order. -/
theorem loadTensor_either_order (hshape : t.shape = m.expectedShape key) :
    (∀ archive : Archive, archive.HoldsArray key.name key.kind.scalarType t.shape false
        (elementBytes key.kind t.byRows) → archive.loadTensor m key = .ok t) ∧
    (∀ archive : Archive, archive.HoldsArray key.name key.kind.scalarType t.shape true
        (elementBytes key.kind t.byColumns) → archive.loadTensor m key = .ok t) ∧
    ∀ d : Data, d.get key = t →
      tensorMember d key = (memberName key.name, ArrayFile.encode key.kind.scalarType t.shape
        (elementBytes key.kind t.byRows)) ∧
      ∀ m' saved, save m' d = .ok saved →
        saved.HoldsArray key.name key.kind.scalarType t.shape false
          (elementBytes key.kind t.byRows) := by
  refine ⟨fun archive h => ?_, fun archive h => ?_, ?_⟩
  · rw [hshape] at h
    refine h.loadTensor ?_
    rw [if_neg Bool.false_ne_true, ← hshape]
    exact t.ofCells?_byRows
  · rw [hshape] at h
    refine h.loadTensor ?_
    rw [if_pos rfl, ← hshape]
    exact t.ofColumnMajor?_byColumns
  · rintro d rfl
    refine ⟨?_, fun m' saved hsave => ?_⟩
    · rw [elementBytes_byRows]
      rfl
    · obtain ⟨hstorable, rfl⟩ := save_eq_ok_iff.mp hsave
      exact hstorable.holdsArray key

/-- An archive of one file holds the elements of that file. -/
theorem holdsArray_of_parse {name : String} {type : Npy.ScalarType} {shape : List Nat}
    {isColumnMajor : Bool} {elements bytes : ByteArray}
    (hparse : ArrayFile.parse bytes =
      .ok { elementType := .scalar type, isColumnMajor, shape, payload := elements })
    (hcount : volume shape < 2 ^ 64) (hsize : elements.size = volume shape * type.size) :
    (ofMembers [(memberName name, bytes)]).HoldsArray name type shape isColumnMajor elements := by
  have hstores : ArrayFile.Stores
      { elementType := .scalar type, isColumnMajor, shape, payload := elements } type shape
      isColumnMajor elements :=
    ⟨rfl, rfl, rfl, hcount, hsize, ByteArray.extract_zero_size⟩
  refine ⟨_, ?_, hstores⟩
  have hfind : (ofMembers [(memberName name, bytes)]).find? (memberName name) =
      some (.ok ⟨bytes, true⟩) :=
    find?_ofMembers (List.nodup_singleton _) List.mem_cons_self
  rw [arrayFile?, hfind]
  dsimp only
  rw [hparse]
  rfl

/-- Four counts, in the shape of those of two polarisations and two components of one channel. -/
def fourCounts : Tensor UInt32 := .ofFn [2, 2, 1] UInt32.ofNat

/-- The entries of the header of a file of four counts in column-major order. -/
def columnMajorEntries : List (Entry 6) :=
  (ArrayFile.headerEntries Npy.ScalarType.readable_count32 [2, 2, 1]).modify 1 fun entry =>
    { entry with
      item := "True".toList
      literal := .boolean true
      reads := Literal.reads_true.mono (by decide) }

/-- The text of that header. -/
def columnMajorText : String :=
  "\x7b'descr': '<u4', 'fortran_order': True, 'shape': (2, 2, 1, ), \x7d\n"

theorem headerOf?_columnMajorText :
    ArrayFile.headerOf? columnMajorText.toByteArray =
      some (.dictionary (columnMajorEntries.map Entry.pair)) := by
  have hchars : ArrayFile.headerChars columnMajorText = dictionaryChars columnMajorEntries 0 := by
    decide
  rw [ArrayFile.headerOf?, fromUTF8?_eq_some_iff.mpr rfl, Option.bind_eq_bind, Option.bind_some,
    hchars]
  exact Literal.parse_dictionary _ (by decide)

theorem ofHeader?_columnMajorEntries (payload : ByteArray) :
    ArrayFile.ofHeader? (.dictionary (columnMajorEntries.map Entry.pair)) payload =
      some { elementType := .scalar .count32, isColumnMajor := true, shape := [2, 2, 1]
             payload } := by
  have htype := Npy.ScalarType.readable_count32.ofText_text
  have hshape : Npy.shapeOf? (.tuple [.integer 2, .integer 2, .integer 1]) = some [2, 2, 1] := rfl
  simp [ArrayFile.ofHeader?, columnMajorEntries, ArrayFile.headerEntries, ArrayFile.entry?,
    Entry.pair, Npy.ElementType.ofLiteral?, htype, hshape]

/-- The four counts are loaded from a file in row-major order and from one in column-major order,
where the second and the third trade places. -/
theorem loadTensor_fourCounts :
    fourCounts.shape = Metadata.single.expectedShape .numClippedSpectrum ∧
      fourCounts.byRows = [0, 1, 2, 3] ∧ fourCounts.byColumns = [0, 2, 1, 3] ∧
      (ofMembers [(memberName DataKey.numClippedSpectrum.name,
        ArrayFile.encode .count32 [2, 2, 1] (elementBytes .count [0, 1, 2, 3]))]).loadTensor
          .single .numClippedSpectrum = .ok fourCounts ∧
      (ofMembers [(memberName DataKey.numClippedSpectrum.name,
        ArrayFile.fileBytes columnMajorText.toByteArray
          (elementBytes .count [0, 2, 1, 3]))]).loadTensor
          .single .numClippedSpectrum = .ok fourCounts := by
  have hshape : fourCounts.shape = Metadata.single.expectedShape .numClippedSpectrum := rfl
  have hrows : fourCounts.byRows = [0, 1, 2, 3] := by decide
  have hcolumns : fourCounts.byColumns = [0, 2, 1, 3] := by decide
  obtain ⟨hrow, hcolumn, -⟩ :=
    @loadTensor_either_order .single .numClippedSpectrum fourCounts hshape
  have hsize : ∀ elements : List UInt32, elements.length = 4 →
      (elementBytes .count elements).size = volume [2, 2, 1] * Npy.ScalarType.count32.size := by
    intro elements hlength
    rw [elementBytes, size_wordBytes, Array.size_map, List.size_toArray, hlength]
    rfl
  have hrowFile : ArrayFile.parse
      (ArrayFile.encode .count32 [2, 2, 1] (elementBytes .count [0, 1, 2, 3])) =
        .ok { elementType := .scalar .count32, isColumnMajor := false, shape := [2, 2, 1]
              payload := elementBytes .count [0, 1, 2, 3] } :=
    ArrayFile.parse_encode Npy.ScalarType.readable_count32 (by decide) (by decide) _
  have hcolumnFile : ArrayFile.parse
      (ArrayFile.fileBytes columnMajorText.toByteArray (elementBytes .count [0, 2, 1, 3])) =
        .ok { elementType := .scalar .count32, isColumnMajor := true, shape := [2, 2, 1]
              payload := elementBytes .count [0, 2, 1, 3] } :=
    ArrayFile.parse_fileBytes (by decide) headerOf?_columnMajorText
      (ofHeader?_columnMajorEntries _)
  refine ⟨hshape, hrows, hcolumns, hrow _ ?_, hcolumn _ ?_⟩
  · show HoldsArray _ _ .count32 [2, 2, 1] false (elementBytes .count fourCounts.byRows)
    rw [hrows]
    exact holdsArray_of_parse hrowFile (by decide) (hsize _ rfl)
  · show HoldsArray _ _ .count32 [2, 2, 1] true (elementBytes .count fourCounts.byColumns)
    rw [hcolumns]
    exact holdsArray_of_parse hcolumnFile (by decide) (hsize _ rfl)

end Archive

end VoltageStats
