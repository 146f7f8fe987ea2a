import VoltageStats.Npy.File
import VoltageStats.Proofs.Bytes
import VoltageStats.Proofs.Checked
import VoltageStats.Proofs.Npy.Literal

/-!
# Array files read back

A file that was written for elements of a readable scalar type is taken apart into the type, the
shape and the bytes that it was written for (`parse_encode`). Its header is never longer than the
two bytes that its length is written in can tell, unless there are hundreds of axes
(`headerLine_fits`).
-/

namespace VoltageStats.Npy

open VoltageStats.Npy.Literal (isPlain quote tupled listed Entry dictionaryChars)

/-- A scalar type whose text is a few plain characters and is read as the type. -/
structure ScalarType.Readable (type : ScalarType) : Prop where
  text_ne_nil : type.text.toList ≠ []
  text_plain : ∀ c ∈ type.text.toList, isPlain c
  text_short : type.text.toList.length ≤ 16
  ofText_text : ofText? type.text = some type

theorem ScalarType.readable_byte : byte.Readable where
  text_ne_nil := by decide
  text_plain := List.all_eq_true.mp (by decide)
  text_short := by decide
  ofText_text := by decide

theorem ScalarType.readable_count32 : count32.Readable where
  text_ne_nil := by decide
  text_plain := List.all_eq_true.mp (by decide)
  text_short := by decide
  ofText_text := by decide

theorem ScalarType.readable_float32 : float32.Readable where
  text_ne_nil := by decide
  text_plain := List.all_eq_true.mp (by decide)
  text_short := by decide
  ofText_text := by decide

namespace ArrayFile

variable {type : ScalarType} {shape : List Nat}

/-! ## The header -/

/-- The entries of the header that is written for elements of a type. -/
def headerEntries (htype : type.Readable) (shape : List Nat) : List (Entry (shape.length + 3)) :=
  [{ key := "descr".toList
     item := quote type.text.toList
     literal := .text (String.ofList type.text.toList)
     key_ne_nil := by decide
     key_plain := List.all_eq_true.mp (by decide)
     reads := (Literal.reads_quote htype.text_ne_nil htype.text_plain).mono (by omega) },
    { key := "fortran_order".toList
      item := "False".toList
      literal := .boolean false
      key_ne_nil := by decide
      key_plain := List.all_eq_true.mp (by decide)
      reads := Literal.reads_false.mono (by omega) },
    { key := "shape".toList
      item := tupled shape
      literal := .tuple (shape.map fun n : Nat => .integer n)
      key_ne_nil := by decide
      key_plain := List.all_eq_true.mp (by decide)
      reads := Literal.reads_tupled shape }]

/-- The number of blanks that fill up the header that is written. -/
def headerBlanks (type : ScalarType) (shape : List Nat) : Nat :=
  (64 - ((headerText type shape).utf8ByteSize + 11) % 64) % 64

/-- The header that is written, with its blanks and its line end. -/
def headerLine (type : ScalarType) (shape : List Nat) : String :=
  headerText type shape ++ String.ofList (List.replicate (headerBlanks type shape) ' ') ++ "\n"

theorem toList_headerLine (htype : type.Readable) (shape : List Nat) :
    (headerLine type shape).toList =
      dictionaryChars (headerEntries htype shape) (headerBlanks type shape) ++ ['\n'] := by
  simp [headerLine, headerText, headerEntries, dictionaryChars, Entry.chars, quote, tupled,
    listed, List.flatMap_map]

theorem headerChars_headerLine (htype : type.Readable) (shape : List Nat) :
    headerChars (headerLine type shape) =
      dictionaryChars (headerEntries htype shape) (headerBlanks type shape) := by
  rw [headerChars, toList_headerLine htype]
  simp

theorem length_dictionaryChars (htype : type.Readable) (shape : List Nat) (blanks : Nat) :
    (dictionaryChars (headerEntries htype shape) blanks).length =
      type.text.toList.length + (listed shape).length + blanks + 52 := by
  simp [dictionaryChars, headerEntries, Entry.chars, quote, tupled]
  omega

/-- Every number of a shape takes a character of the header at least, and not many more. -/
theorem length_listed (hshape : ∀ n ∈ shape, n < 2 ^ 64) :
    shape.length ≤ (listed shape).length ∧ (listed shape).length ≤ 22 * shape.length := by
  induction shape with
  | nil => exact ⟨Nat.le_refl 0, Nat.le_refl 0⟩
  | cons n shape ih =>
      have hdigits : (Nat.toDigits 10 n).length ≤ 20 := by
        rw [Nat.length_toDigits_le_iff (by decide) (by decide)]
        have := hshape n List.mem_cons_self
        omega
      obtain ⟨hlow, hhigh⟩ := ih fun m hm => hshape m (List.mem_cons_of_mem n hm)
      rw [listed, List.flatMap_cons, List.length_append, ← listed, List.length_append]
      simp only [List.length_cons, List.length_nil]
      omega

theorem utf8ByteSize_ofList_le (chars : List Char) :
    (String.ofList chars).utf8ByteSize ≤ 4 * chars.length := by
  induction chars with
  | nil => exact Nat.le_refl 0
  | cons c chars ih =>
      have := c.utf8Size_le_four
      rw [← List.singleton_append, String.ofList_append, String.utf8ByteSize_append,
        ← String.singleton_eq_ofList, String.utf8ByteSize_singleton]
      simp only [List.singleton_append, List.length_cons]
      omega

theorem headerLine_fits (htype : type.Readable) (hshape : ∀ n ∈ shape, n < 2 ^ 64)
    (haxes : shape.length ≤ 256) : (headerLine type shape).utf8ByteSize < 2 ^ 16 := by
  -- No character takes more than four bytes, and a length of an axis has twenty digits at most.
  have hblanks : headerBlanks type shape < 64 := Nat.mod_lt _ (by decide)
  have hbytes := utf8ByteSize_ofList_le (headerLine type shape).toList
  rw [String.ofList_toList, toList_headerLine htype, List.length_append,
    length_dictionaryChars] at hbytes
  have := htype.text_short
  have := (length_listed hshape).2
  simp only [List.length_cons, List.length_nil] at hbytes
  omega

theorem headerOf_headerLine (htype : type.Readable) (hshape : ∀ n ∈ shape, n < 2 ^ 64) :
    headerOf? (headerLine type shape).toByteArray =
      some (.dictionary ((headerEntries htype shape).map Entry.pair)) := by
  rw [headerOf?, fromUTF8?_eq_some_iff.mpr rfl, Option.bind_eq_bind, Option.bind_some,
    headerChars_headerLine htype]
  refine Literal.parse_dictionary _ ?_
  have := (length_listed hshape).1
  rw [length_dictionaryChars, show (headerEntries htype shape).length = 3 from rfl]
  omega

/-- The lengths of axes are read if each of them is below `2 ^ 64`. -/
theorem shapeOf?_tuple {shape : List Nat} (hshape : ∀ n ∈ shape, n < 2 ^ 64) :
    shapeOf? (.tuple (shape.map fun n : Nat => .integer n)) = some shape := by
  rw [shapeOf?]
  induction shape with
  | nil => rfl
  | cons n shape ih =>
      have hn : (n : Int) < 18446744073709551616 := by
        have := hshape n List.mem_cons_self
        omega
      rw [List.map_cons, List.mapM_cons, ih fun m hm => hshape m (List.mem_cons_of_mem n hm)]
      simp [hn]

theorem ofHeader?_headerEntries (htype : type.Readable) (hshape : ∀ n ∈ shape, n < 2 ^ 64)
    (payload : ByteArray) :
    ofHeader? (.dictionary ((headerEntries htype shape).map Entry.pair)) payload =
      some { elementType := .scalar type, isColumnMajor := false, shape, payload } := by
  have hdescr : entry? ((headerEntries htype shape).map Entry.pair) "descr" =
      some (.text type.text) := by
    simp [headerEntries, entry?, Entry.pair]
  have horder : entry? ((headerEntries htype shape).map Entry.pair) "fortran_order" =
      some (.boolean false) := by
    simp [headerEntries, entry?, Entry.pair]
  have hlengths : entry? ((headerEntries htype shape).map Entry.pair) "shape" =
      some (.tuple (shape.map fun n : Nat => .integer n)) := by
    simp [headerEntries, entry?, Entry.pair]
  simp only [ofHeader?, hdescr, horder, hlengths, ElementType.ofLiteral?, htype.ofText_text,
    shapeOf?_tuple hshape, Option.bind_eq_bind, Option.bind_some, Option.map_some, Option.pure_def]
  rfl

/-! ## The file -/

/-- A file is its magic word, its version, the length of its header, its header and its
elements. -/
def fileBytes (header payload : ByteArray) : ByteArray :=
  ⟨(magic ++ ([1, 0] ++ (LittleEndian.encode 2 header.size ++
    (header.data.toList ++ payload.data.toList)))).toArray⟩

theorem encode_eq (type : ScalarType) (shape : List Nat) (payload : ByteArray) :
    encode type shape payload = fileBytes (headerLine type shape).toByteArray payload := by
  show ⟨(magic ++ [1, 0] ++
    LittleEndian.encode 2 (headerLine type shape).toByteArray.size).toArray⟩ ++
      (headerLine type shape).toByteArray ++ payload = _
  apply ByteArray.ext
  apply Array.toList_inj.mp
  simp only [fileBytes, ByteArray.data_append, Array.toList_append, List.append_assoc]

theorem size_fileBytes (header payload : ByteArray) :
    (fileBytes header payload).size = 10 + header.size + payload.size := by
  simp only [fileBytes, ByteArray.size, List.size_toArray, List.length_append,
    LittleEndian.length_encode, Array.length_toList]
  simp only [magic, List.length_cons, List.length_nil]
  omega

theorem payload_size_le (type : ScalarType) (shape : List Nat) (payload : ByteArray) :
    payload.size ≤ (encode type shape payload).size := by
  rw [encode_eq, size_fileBytes]
  omega

section

-- Each part of a file is found at the length of what comes before it.
variable (header payload : ByteArray)

theorem magic_fileBytes : ((fileBytes header payload).extract 0 6).data.toList = magic :=
  congrArg (fun bytes : ByteArray => bytes.data.toList) (@extract_toArray [] magic _ _ _ rfl rfl)

theorem version_fileBytes :
    LittleEndian.byteAt (fileBytes header payload) 6 = 1 ∧
      LittleEndian.byteAt (fileBytes header payload) 7 = 0 := by
  rw [fileBytes, LittleEndian.byteAt_toArray, LittleEndian.byteAt_toArray]
  exact ⟨rfl, rfl⟩

theorem headerSize_fileBytes (hheader : header.size < 2 ^ 16) :
    LittleEndian.word16At (fileBytes header payload) 8 = header.size := by
  rw [fileBytes, ← List.append_assoc]
  exact LittleEndian.word16At_eq hheader rfl

theorem header_fileBytes :
    (fileBytes header payload).extract 10 (10 + header.size) = header := by
  rw [fileBytes, ← List.append_assoc, ← List.append_assoc]
  refine (extract_toArray ?_ ?_).trans (by rw [Array.toArray_toList])
  · rfl
  · rw [Array.length_toList]
    rfl

theorem payload_fileBytes :
    (fileBytes header payload).extract (10 + header.size) (fileBytes header payload).size =
      payload := by
  rw [size_fileBytes, fileBytes, ← List.append_nil payload.data.toList, ← List.append_assoc,
    ← List.append_assoc, ← List.append_assoc]
  refine (extract_toArray ?_ ?_).trans (by rw [Array.toArray_toList])
  · rw [List.length_append, Array.length_toList]
    rfl
  · rw [List.length_append, Array.length_toList, Array.length_toList]
    rfl

end

theorem parse_fileBytes {header payload : ByteArray} {literal : Literal} {file : ArrayFile}
    (hheader : header.size < 2 ^ 16) (hliteral : headerOf? header = some literal)
    (hfile : ofHeader? literal payload = some file) :
    parse (fileBytes header payload) = .ok file := by
  have hsize := size_fileBytes header payload
  have hmagic := magic_fileBytes header payload
  obtain ⟨hmajor, hminor⟩ := version_fileBytes header payload
  have hlength := headerSize_fileBytes header payload hheader
  have htext := header_fileBytes header payload
  have helements := payload_fileBytes header payload
  generalize fileBytes header payload = bytes at *
  have hsix : ¬ bytes.size < 6 := by omega
  have height : ¬ bytes.size < 8 := by omega
  have hten : ¬ bytes.size < 8 + 2 := by omega
  have hend : ¬ bytes.size < 8 + 2 + header.size := by omega
  have hwidth : lengthWidth? 1 0 = some 2 := rfl
  simp only [parse, if_neg hsix, hmagic, ne_eq, not_true_eq_false, if_false, if_neg height, hmajor,
    hminor, hwidth, if_neg hten, if_true, hlength, if_neg hend, Nat.reduceAdd, htext, helements,
    hliteral, Option.bind_some, hfile, except_pure_eq_ok_iff]

theorem parse_encode (htype : type.Readable) (hshape : ∀ n ∈ shape, n < 2 ^ 64)
    (haxes : shape.length ≤ 256) (payload : ByteArray) :
    parse (encode type shape payload) =
      .ok { elementType := .scalar type, isColumnMajor := false, shape, payload } := by
  rw [encode_eq]
  exact parse_fileBytes (headerLine_fits htype hshape haxes) (headerOf_headerLine htype hshape)
    (ofHeader?_headerEntries htype hshape payload)

/-- All bytes of a file are those of its elements if there are as many. -/
theorem elementBytes?_eq_some {file : ArrayFile} {width : Nat}
    (hvolume : volume file.shape < 2 ^ 64)
    (hsize : file.payload.size = volume file.shape * width) :
    file.elementBytes? width = some file.payload := by
  rw [elementBytes?, elementCount, Nat.mod_eq_of_lt hvolume, ← hsize, if_neg (Nat.lt_irrefl _),
    ByteArray.extract_zero_size]

end ArrayFile

end VoltageStats.Npy
