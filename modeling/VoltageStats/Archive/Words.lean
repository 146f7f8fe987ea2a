import VoltageStats.Bytes.LittleEndian
import VoltageStats.Npy.ElementType
import VoltageStats.Statistics

/-!
# Elements as words

Measured numbers and counts are both kept in four bytes, little-endian. `wordBytes` writes a
sequence of words and `wordsOf` reads one.
-/

namespace VoltageStats

namespace ElementKind

/-- The type that an array file gives for elements of a kind. -/
def scalarType : ElementKind → Npy.ScalarType
  | real => .float32
  | count => .count32

/-- The element with the bits of a word. -/
def ofWord : (kind : ElementKind) → UInt32 → kind.Element Binary32 UInt32
  | real, word => ⟨word⟩
  | count, word => word

/-- The bits of an element. -/
def toWord : (kind : ElementKind) → kind.Element Binary32 UInt32 → UInt32
  | real, x => x.bits
  | count, n => n

theorem ofWord_toWord (kind : ElementKind) (x : kind.Element Binary32 UInt32) :
    kind.ofWord (kind.toWord x) = x := by
  cases kind <;> rfl

end ElementKind

/-- The bytes of some words. -/
def wordBytes (words : Array UInt32) : ByteArray :=
  words.foldl LittleEndian.push32 (ByteArray.emptyWithCapacity (4 * words.size))

/-- The words that some bytes hold. -/
def wordsOf (bytes : ByteArray) : Array UInt32 :=
  Array.ofFn fun (i : Fin (bytes.size / 4)) => UInt32.ofNat (LittleEndian.word32At bytes (4 * i))

end VoltageStats
