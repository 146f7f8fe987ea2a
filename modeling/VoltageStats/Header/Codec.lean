import VoltageStats.Bytes.LittleEndian
import VoltageStats.Metadata

/-!
# Fields of the header record

The header record is a sequence of fields. A `Codec` writes a field and reads it off the front
of some bytes. Integers are little-endian, a text is its length in bytes and its UTF-8 bytes,
and a vector is its length and its elements. Running out of bytes, and bytes that are not UTF-8,
are reported against the field that is read.
-/

namespace VoltageStats

/-- Why some bytes are no header record. -/
inductive RecordError where
  /-- The bytes end within a field. -/
  | truncated (field : HeaderKey)
  /-- Bytes are left after the last field. -/
  | trailing (count : Nat)
  /-- A text is not UTF-8. -/
  | invalidUtf8 (field : HeaderKey)
  deriving DecidableEq, Repr

/-- The message for bytes that are no header record. -/
def RecordError.message : RecordError → String
  | truncated field =>
    s!"The header record ended before the {field.name} field could be read"
  | trailing count => s!"The header record has {count} unexpected bytes after its last field"
  | invalidUtf8 field => s!"The {field.name} field is not valid UTF-8"

/-- A way to write a value, and to read it off the front of some bytes. -/
structure Codec (α : Type) where
  encode : α → List UInt8
  decode : List UInt8 → Except RecordError (α × List UInt8)

namespace Codec

variable {α β : Type}

/-- A number of `width` bytes, reported against a field if it is cut off. -/
def number (field : HeaderKey) (width : Nat) (bytes : List UInt8) :
    Except RecordError (Nat × List UInt8) :=
  match LittleEndian.decode? width bytes with
  | some result => .ok result
  | none => .error (.truncated field)

/-- A field of four bytes. -/
def word32 (field : HeaderKey) : Codec UInt32 where
  encode n := LittleEndian.encode 4 n.toNat
  decode bytes := do
    let (n, rest) ← number field 4 bytes
    return (UInt32.ofNat n, rest)

/-- A field of eight bytes. -/
def word64 (field : HeaderKey) : Codec UInt64 where
  encode n := LittleEndian.encode 8 n.toNat
  decode bytes := do
    let (n, rest) ← number field 8 bytes
    return (UInt64.ofNat n, rest)

/-- A field that holds a double. -/
def double (field : HeaderKey) : Codec Binary64 where
  encode x := (word64 field).encode x.bits
  decode bytes := do
    let (bits, rest) ← (word64 field).decode bytes
    return (⟨bits⟩, rest)

/-- A field that holds a text. -/
def text (field : HeaderKey) : Codec String where
  encode s := LittleEndian.encode 4 s.utf8ByteSize ++ s.toUTF8.data.toList
  decode bytes := do
    let (size, rest) ← number field 4 bytes
    if rest.length < size then throw (.truncated field)
    match String.fromUTF8? ⟨(rest.take size).toArray⟩ with
    | some s => return (s, rest.drop size)
    | none => throw (.invalidUtf8 field)

/-- A given number of elements, one after the other. -/
def elements (element : Codec α) : Nat → List UInt8 → Except RecordError (List α × List UInt8)
  | 0, bytes => .ok ([], bytes)
  | count + 1, bytes => do
    let (x, rest) ← element.decode bytes
    let (xs, rest) ← elements element count rest
    return (x :: xs, rest)

/-- A field that holds a vector. That there are enough bytes for all its elements is checked
before any of them is read. -/
def vector (field : HeaderKey) (width : Nat) (element : Codec α) : Codec (Array α) where
  encode xs := LittleEndian.encode 8 xs.size ++ xs.toList.flatMap element.encode
  decode bytes := do
    let (count, rest) ← number field 8 bytes
    if rest.length < count * width then throw (.truncated field)
    let (xs, rest) ← elements element count rest
    return (xs.toArray, rest)

/-- A field that holds a vector of doubles. -/
def doubles (field : HeaderKey) : Codec (Array Binary64) := vector field 8 (double field)

/-- A field that holds a vector of counts. -/
def counts (field : HeaderKey) : Codec (Array UInt32) := vector field 4 (word32 field)

/-- One value after the other. -/
def andThen (first : Codec α) (second : Codec β) : Codec (α × β) where
  encode x := first.encode x.1 ++ second.encode x.2
  decode bytes := do
    let (a, rest) ← first.decode bytes
    let (b, rest) ← second.decode rest
    return ((a, b), rest)

end Codec

end VoltageStats
