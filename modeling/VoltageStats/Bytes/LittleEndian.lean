/-!
# Little-endian integers

Unsigned integers of a fixed number of bytes, least significant byte first.
-/

namespace VoltageStats.LittleEndian

/-- The `width` bytes of a number, which is cut to what fits. -/
def encode : (width : Nat) → Nat → List UInt8
  | 0, _ => []
  | width + 1, n => UInt8.ofNat n :: encode width (n / 256)

/-- A number of `width` bytes from the front of some bytes, and the bytes after it. -/
def decode? : (width : Nat) → List UInt8 → Option (Nat × List UInt8)
  | 0, bytes => some (0, bytes)
  | _ + 1, [] => none
  | width + 1, b :: bytes => (decode? width bytes).map fun (n, rest) => (b.toNat + 256 * n, rest)

/-- The number that a list of bytes writes. -/
def value : List UInt8 → Nat
  | [] => 0
  | b :: bytes => b.toNat + 256 * value bytes

/-- The byte at a position, zero past the end. -/
def byteAt (bytes : ByteArray) (position : Nat) : UInt8 :=
  if h : position < bytes.size then bytes[position] else 0

/-- The number of two bytes at a position. -/
def word16At (bytes : ByteArray) (position : Nat) : Nat :=
  (byteAt bytes position).toNat + 256 * (byteAt bytes (position + 1)).toNat

/-- The number of four bytes at a position. -/
def word32At (bytes : ByteArray) (position : Nat) : Nat :=
  word16At bytes position + 65536 * word16At bytes (position + 2)

/-- The number of eight bytes at a position. -/
def word64At (bytes : ByteArray) (position : Nat) : Nat :=
  word32At bytes position + 4294967296 * word32At bytes (position + 4)

/-- Four bytes put after some bytes. -/
def push32 (bytes : ByteArray) (word : UInt32) : ByteArray :=
  (((bytes.push word.toUInt8).push (word >>> 8).toUInt8).push (word >>> 16).toUInt8).push
    (word >>> 24).toUInt8

end VoltageStats.LittleEndian
