import VoltageStats.Archive
import VoltageStats.Binary.Format
import VoltageStats.Bytes.Inflate
import VoltageStats.Bytes.LittleEndian

/-!
# Reading zip containers

A zip container ends with a record that says where its directory is. The record is searched from
the end, so that a comment may follow it, and where it is found tells how far all offsets are
shifted by data in front. The directory lists the members; each is found behind a header of its
own and is stored as it is or deflated (`Archive.ofZip`).
-/

namespace VoltageStats.Crc32

/-! ## Checksums

The checksum of some bytes is the remainder of a division of polynomials over two elements. The
remainder is kept with its bits reversed, starts with all bits set, and all bits are inverted at
the end. -/

/-- The divisor, bits reversed. -/
def divisor : UInt32 := 0xedb88320

/-- Divides by one more bit. -/
def shift (remainder : UInt32) : UInt32 :=
  if remainder &&& 1 = 1 then (remainder >>> 1) ^^^ divisor else remainder >>> 1

/-- The remainder after one more byte. -/
def step (remainder : UInt32) (byte : UInt8) : UInt32 :=
  (List.range 8).foldl (fun r _ => shift r) (remainder ^^^ byte.toUInt32)

/-- The checksum of some bytes. -/
def checksum (bytes : ByteArray) : UInt32 :=
  bytes.foldl step 0xffffffff ^^^ 0xffffffff

end VoltageStats.Crc32

namespace VoltageStats.Zip

open LittleEndian

/-! ## The directory -/

/-- The number of bytes of the end record without its comment. -/
def endRecordSize : Nat := 22

/-- Fails unless there are bytes up to a position. -/
def requireBytes (bytes : ByteArray) (limit : Nat) : Except ContainerFault Unit :=
  if bytes.size < limit then throw .unreadable else return ()

/-- The last position, from `top` down through `steps` more, where four bytes are found. -/
def lastWord? (bytes : ByteArray) (word top : Nat) : (steps : Nat) → Option Nat
  | 0 => if word32At bytes top = word then some top else none
  | steps + 1 =>
    if word32At bytes top = word then some top
    else if top = 0 then none
    else lastWord? bytes word (top - 1) steps

/-- The first position, from `start` up through fewer than `steps` more, where four bytes are
found. -/
def firstWord? (bytes : ByteArray) (word start : Nat) : (steps : Nat) → Option Nat
  | 0 => none
  | steps + 1 =>
    if word32At bytes start = word then some start else firstWord? bytes word (start + 1) steps

/-- The position of the end record. -/
def endRecord (bytes : ByteArray) : Except ContainerFault Nat := do
  if bytes.size < endRecordSize then throw .malformed
  match lastWord? bytes 0x06054b50 (bytes.size - endRecordSize) 65535 with
  | some position =>
    requireBytes bytes (position + endRecordSize + word16At bytes (position + 20))
    return position
  | none => throw .malformed

/-- Where a directory starts, how many members it has, and how far offsets are shifted. -/
structure Extent where
  start : Nat
  count : Nat
  shift : Nat

/-- Whether a field of the end record is too small for its value. -/
def isEndRecordTooSmall (bytes : ByteArray) (record : Nat) : Bool :=
  [4, 6, 8, 10].any (fun field => word16At bytes (record + field) = 0xffff) ||
    [12, 16].any (fun field => word32At bytes (record + field) = 0xffffffff)

/-- The directory of a container with 64-bit offsets, from the position of the locator of its end
record. -/
def wideExtent (bytes : ByteArray) (record locator : Nat) : Except ContainerFault Extent := do
  if !isEndRecordTooSmall bytes record && word16At bytes (record + 4) ≠ word32At bytes (locator + 4)
  then throw .malformed
  let nominal := word64At bytes (locator + 8)
  if record < 60 then throw .malformed
  match firstWord? bytes 0x06064b50 nominal (record - 60 + 1 - nominal) with
  | none => throw .malformed
  | some position =>
    if word32At bytes (position + 16) ≠ word32At bytes (position + 20) then throw .malformed
    let shift := position - nominal
    let start := word64At bytes (position + 48) + shift
    if 2 ^ 64 ≤ start then throw .malformed
    return ⟨start, word64At bytes (position + 32), shift⟩

/-- The directory of a container. -/
def extent (bytes : ByteArray) : Except ContainerFault Extent := do
  let record ← endRecord bytes
  if !isEndRecordTooSmall bytes record &&
      word16At bytes (record + 4) ≠ word16At bytes (record + 6) then throw .malformed
  let behind := 20 + endRecordSize + word16At bytes (record + 20)
  let locator := bytes.size - behind
  if behind ≤ bytes.size && word32At bytes locator = 0x07064b50 then
    wideExtent bytes record locator
  else
    let size := word32At bytes (record + 12)
    let offset := word32At bytes (record + 16)
    if record < size + offset then throw .malformed
    return ⟨record - size, word16At bytes (record + 8), record - size - offset⟩

/-- A member as the directory lists it. -/
structure Listing where
  name : String
  isEncrypted : Bool
  method : Nat
  checksum : Nat
  compressedSize : Nat
  size : Nat
  /-- The position of the member's own header. -/
  start : Nat
  /-- Whether the listing says how the member is encrypted. -/
  hasCipher : Bool

/-- The wide values of a listing, for those of its fields that are too small for them. -/
def widen (extra : ByteArray) (position : Nat) (listing : Listing) : Listing × Nat × Bool :=
  let step (state : Listing × Nat × Bool) (field : Listing → Nat)
      (set : Listing → Nat → Listing) : Listing × Nat × Bool :=
    let (listing, position, isWhole) := state
    if !isWhole || field listing ≠ 0xffffffff then state
    else if extra.size < position + 8 then (listing, position, false)
    else (set listing (word64At extra position), position + 8, true)
  let state := step (listing, position, true) (·.size) fun l n => { l with size := n }
  let state := step state (·.compressedSize) fun l n => { l with compressedSize := n }
  step state (·.start) fun l n => { l with start := n }

/-- A listing with its extra fields. Fields that are cut off are ignored. -/
def readExtra (extra : ByteArray) : (fuel : Nat) → (position : Nat) → Listing →
    Except ContainerFault Listing
  | 0, _, listing => return listing
  | fuel + 1, position, listing => do
    if extra.size < position + 4 then return listing
    let length := word16At extra (position + 2)
    let start := position + 4
    match word16At extra position with
    | 0x0001 =>
      let (listing, next, isWhole) := widen extra start listing
      if isWhole then readExtra extra fuel (max next (start + length)) listing
      else return listing
    | 0x9901 =>
      if length ≠ 7 then throw .malformed
      if extra.size < start + 7 then return listing
      if word16At extra (start + 2) ≠ 0x4541 then throw .malformed
      if !([1, 2].contains (word16At extra start)) then throw .malformed
      if !([1, 2, 3].contains (byteAt extra (start + 4)).toNat) then throw .malformed
      let method := word16At extra (start + 5)
      readExtra extra fuel (start + 14) { listing with method, hasCipher := true }
    | _ => readExtra extra fuel (start + length) listing

/-- The characters of the bytes 128 to 255 in names that are not marked as UTF-8. -/
def highChars : List Char :=
  ("ÇüéâäàåçêëèïîìÄÅÉæÆôöòûùÿÖÜ¢£¥₧ƒáíóúñÑªº¿⌐¬½¼¡«»░▒▓│┤╡╢╖╕╣║╗╝╜╛┐└┴┬├─┼╞╟╚╔╩╦╠═╬╧╨╤╥╙╘╒╓╫╪┘┌█▄▌▐▀" ++
    "αßΓπΣσµτΦΘΩδ∞φε∩≡±≥≤⌠⌡÷≈°∙·√ⁿ²■\u00a0").toList

/-- The name that some bytes write. -/
def nameOf (isUtf8 : Bool) (bytes : ByteArray) : String :=
  let byteChars := bytes.data.toList.map fun b =>
    if b < 128 then Char.ofNat b.toNat else highChars.getD (b.toNat - 128) '?'
  if isUtf8 then (String.fromUTF8? bytes).getD (String.ofList byteChars)
  else String.ofList byteChars

/-- The member listed at a position, and the position after it. -/
def listingAt (bytes : ByteArray) (shift position : Nat) :
    Except ContainerFault (Listing × Nat) := do
  requireBytes bytes (position + 4)
  if word32At bytes position ≠ 0x02014b50 then throw .malformed
  requireBytes bytes (position + 46)
  let flags := word16At bytes (position + 8)
  let nameEnd := position + 46 + word16At bytes (position + 28)
  let extraEnd := nameEnd + word16At bytes (position + 30)
  let next := extraEnd + word16At bytes (position + 32)
  requireBytes bytes next
  let extra := bytes.extract nameEnd extraEnd
  let listing ← readExtra extra extra.size 0
    { name := nameOf (flags.testBit 11) (bytes.extract (position + 46) nameEnd)
      isEncrypted := flags.testBit 0
      method := word16At bytes (position + 10)
      checksum := word32At bytes (position + 16)
      compressedSize := word32At bytes (position + 20)
      size := word32At bytes (position + 24)
      start := word32At bytes (position + 42)
      hasCipher := false }
  if listing.method = 99 && !listing.hasCipher then throw .malformed
  if 2 ^ 64 ≤ listing.start + shift then throw .malformed
  return ({ listing with start := listing.start + shift }, next)

/-- A number of listed members, one after the other. -/
def listings (bytes : ByteArray) (shift : Nat) : (count : Nat) → (position : Nat) →
    Except ContainerFault (List Listing)
  | 0, _ => return []
  | count + 1, position => do
    let (listing, next) ← listingAt bytes shift position
    return listing :: (← listings bytes shift count next)

/-- The member that a listing names. -/
def memberOf (bytes : ByteArray) (listing : Listing) : Except ContainerFault Member := do
  if listing.isEncrypted then throw .malformed
  requireBytes bytes (listing.start + 4)
  if word32At bytes listing.start ≠ 0x04034b50 then throw .malformed
  requireBytes bytes (listing.start + 30)
  let start := listing.start + 30 + word16At bytes (listing.start + 26) +
    word16At bytes (listing.start + 28)
  let data := bytes.extract start (start + listing.compressedSize)
  let contents ← match listing.method with
    | 0 => pure data
    | 8 => match inflate data with
      | .whole contents | .cut contents => pure contents
      | .corrupt => throw .unreadable
    | 12 | 93 => throw .unreadable
    | _ => throw .malformed
  return ⟨contents, (Crc32.checksum contents).toNat = listing.checksum⟩

/-- The archive that some bytes hold. -/
def parse (bytes : ByteArray) : Except ContainerFault Archive := do
  let extent ← extent bytes
  if 2 ^ 63 ≤ extent.start then throw .malformed
  let listings ← listings bytes extent.shift extent.count extent.start
  return ⟨listings.map fun listing => (listing.name, memberOf bytes listing)⟩

end VoltageStats.Zip
