import VoltageStats.Bytes.LittleEndian
import VoltageStats.Npy.ElementType
import VoltageStats.Tensor

/-!
# Array files

An array file starts with a magic word and a version, goes on with the length of a text and the
text, and ends with the elements. The text is a literal that gives the type of the elements, the
lengths of the axes and the order in which the elements follow each other. `ArrayFile.parse`
takes a file apart and `ArrayFile.encode` writes one.
-/

namespace VoltageStats.Npy

open LittleEndian

/-- Why some bytes are no array file. -/
inductive FileFault where
  /-- The bytes do not have the form. -/
  | malformed
  /-- The bytes end too early. -/
  | outOfBytes
  deriving DecidableEq, Repr

/-- An array file. -/
structure ArrayFile where
  elementType : ElementType
  /-- Whether the first axis runs fastest. -/
  isColumnMajor : Bool
  shape : List Nat
  /-- The bytes of the elements, and whatever follows them. -/
  payload : ByteArray

namespace ArrayFile

/-- The six bytes that a file starts with. -/
def magic : List UInt8 := [0x93, 0x4e, 0x55, 0x4d, 0x50, 0x59]

/-- The width in bytes of the length of the text, for the versions that are read. -/
def lengthWidth? (major minor : UInt8) : Option Nat :=
  if minor ≠ 0 then none
  else if major = 1 then some 2
  else if major = 2 || major = 3 then some 4
  else none

/-- The last value under a key of a dictionary whose keys are texts. -/
def entry? (entries : List (Literal × Literal)) (key : String) : Option Literal :=
  let matching := entries.filterMap fun
    | (.text name, value) => if name = key then some value else none
    | _ => none
  matching.getLast?

/-- The file with a header text and given bytes after it. -/
def ofHeader? (header : Literal) (payload : ByteArray) : Option ArrayFile := do
  match header with
  | .dictionary entries =>
    guard (entries.all fun | (.text _, _) => true | _ => false)
    let elementType ← ElementType.ofLiteral? (← entry? entries "descr")
    let isColumnMajor ← match ← entry? entries "fortran_order" with
      | .boolean value => some value
      | _ => none
    let shape ← shapeOf? (← entry? entries "shape")
    return { elementType, isColumnMajor, shape, payload }
  | _ => none

/-- The characters of a header text, without a line end after the last of them. -/
def headerChars (text : String) : List Char :=
  let chars := text.toList
  if chars.getLast? = some '\n' then chars.dropLast else chars

/-- The header that some bytes hold as UTF-8. -/
def headerOf? (bytes : ByteArray) : Option Literal := do
  Literal.parse? (headerChars (← String.fromUTF8? bytes))

/-- Takes a file apart. -/
def parse (bytes : ByteArray) : Except FileFault ArrayFile := do
  if bytes.size < 6 then throw .outOfBytes
  if (bytes.extract 0 6).data.toList ≠ magic then throw .malformed
  if bytes.size < 8 then throw .outOfBytes
  match lengthWidth? (byteAt bytes 6) (byteAt bytes 7) with
  | none => throw .malformed
  | some width =>
    let start := 8 + width
    if bytes.size < start then throw .outOfBytes
    let length := if width = 2 then word16At bytes 8 else word32At bytes 8
    if bytes.size < start + length then throw .outOfBytes
    let header := headerOf? (bytes.extract start (start + length))
    match header.bind (ofHeader? · (bytes.extract (start + length) bytes.size)) with
    | some file => return file
    | none => throw .malformed

/-- The number of elements, cut to 64 bits. -/
def elementCount (file : ArrayFile) : Nat := volume file.shape % 2 ^ 64

/-- The bytes of the elements, if there are enough for elements of a width. -/
def elementBytes? (file : ArrayFile) (width : Nat) : Option ByteArray :=
  let size := file.elementCount * width
  if file.payload.size < size then none else some (file.payload.extract 0 size)

/-- The header text for elements of a scalar type in row-major order, before it is filled up. -/
def headerText (type : ScalarType) (shape : List Nat) : String :=
  "\x7b'descr': '" ++ type.text ++ "', 'fortran_order': False, 'shape': (" ++
    String.join (shape.map fun n => toString n ++ ", ") ++ "), \x7d"

/-- The file of elements of a scalar type in row-major order. Blanks before the end of the header
text bring the elements to a multiple of 64 bytes. -/
def encode (type : ScalarType) (shape : List Nat) (payload : ByteArray) : ByteArray :=
  let text := headerText type shape
  let blanks := (64 - (text.utf8ByteSize + 11) % 64) % 64
  let header := (text ++ String.ofList (List.replicate blanks ' ') ++ "\n").toUTF8
  let start : ByteArray := ⟨(magic ++ [1, 0] ++ LittleEndian.encode 2 header.size).toArray⟩
  start ++ header ++ payload

end ArrayFile

end VoltageStats.Npy
