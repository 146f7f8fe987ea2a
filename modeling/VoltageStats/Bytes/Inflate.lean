/-!
# Deflated data

Deflated data is a sequence of blocks of bits. A block is stored, or it is a sequence of symbols
in a prefix code: bytes, copies of bytes that came before, and its end. The code is a fixed one,
or it is given by the lengths of its words at the start of the block. Data that ends within a
block yields what was decoded up to there (`Inflated.cut`).
-/

namespace VoltageStats.Inflate

/-- How far some deflated data could be decoded. -/
inductive Inflated where
  /-- To the end of the last block. -/
  | whole (bytes : ByteArray)
  /-- To the end of the data, which comes before the end of the last block. -/
  | cut (bytes : ByteArray)
  /-- The data breaks the rules. -/
  | corrupt

/-- Why decoding stops. -/
inductive Stop where
  | outOfBits
  | corrupt

/-- The data, the number of bits that were read, and the bytes that were decoded. -/
structure State where
  input : ByteArray
  position : Nat
  output : ByteArray

/-- A step of decoding. The state is kept where it stops. -/
abbrev Decoder := ExceptT Stop (StateM State)

/-- The next bit. -/
def bit : Decoder Nat := do
  let s ← get
  let index := s.position / 8
  if h : index < s.input.size then
    set { s with position := s.position + 1 }
    return (s.input[index].toNat >>> (s.position % 8)) % 2
  else throw .outOfBits

/-- A number of bits, least significant first. -/
def bits : Nat → Decoder Nat
  | 0 => return 0
  | count + 1 => do
    let low ← bit
    return low + 2 * (← bits count)

/-- Appends a byte. -/
def emit (byte : UInt8) : Decoder Unit :=
  modify fun s => { s with output := s.output.push byte }

/-- A prefix code: for each length of words, how many there are, and all symbols in the order of
their words. -/
structure PrefixCode where
  counts : List Nat
  symbols : Array Nat

namespace PrefixCode

/-- The code in which each symbol has a word of a length; a length of zero is no word. -/
def ofLengths (lengths : List Nat) : PrefixCode where
  counts := (List.range 15).map fun i => lengths.count (i + 1)
  symbols := ((List.range 15).flatMap fun i =>
    lengths.zipIdx.filterMap fun (length, symbol) =>
      if length = i + 1 then some symbol else none).toArray

/-- How many words of the greatest length are still free, negative if there are too many. -/
def slack (code : PrefixCode) : Int :=
  code.counts.foldl (fun (free : Int) (count : Nat) => 2 * free - count) 1

/-- Whether every sequence of bits starts with a word. -/
def isComplete (code : PrefixCode) : Bool := code.slack = 0

/-- Reads a word bit by bit. `word` are the bits so far, `first` is the first word of the next
length less one bit, and `index` the position of its symbol. -/
def symbolFrom (code : PrefixCode) : (counts : List Nat) → (word first index : Nat) → Decoder Nat
  | [], _, _, _ => throw .corrupt
  | count :: counts, word, first, index => do
    let word := 2 * word + (← bit)
    let first := 2 * first
    if word < first + count then
      match code.symbols[index + (word - first)]? with
      | some symbol => return symbol
      | none => throw .corrupt
    else symbolFrom code counts word (first + count) (index + count)

/-- The next symbol. -/
def symbol (code : PrefixCode) : Decoder Nat := code.symbolFrom code.counts 0 0 0

end PrefixCode

/-- The lengths of copies: the least one, and the number of bits that are added to it. -/
def lengthTable : List (Nat × Nat) :=
  [(3, 0), (4, 0), (5, 0), (6, 0), (7, 0), (8, 0), (9, 0), (10, 0), (11, 1), (13, 1), (15, 1),
    (17, 1), (19, 2), (23, 2), (27, 2), (31, 2), (35, 3), (43, 3), (51, 3), (59, 3), (67, 4),
    (83, 4), (99, 4), (115, 4), (131, 5), (163, 5), (195, 5), (227, 5), (258, 0)]

/-- The distances of copies: the least one, and the number of bits that are added to it. -/
def distanceTable : List (Nat × Nat) :=
  [(1, 0), (2, 0), (3, 0), (4, 0), (5, 1), (7, 1), (9, 2), (13, 2), (17, 3), (25, 3), (33, 4),
    (49, 4), (65, 5), (97, 5), (129, 6), (193, 6), (257, 7), (385, 7), (513, 8), (769, 8),
    (1025, 9), (1537, 9), (2049, 10), (3073, 10), (4097, 11), (6145, 11), (8193, 12),
    (12289, 12), (16385, 13), (24577, 13)]

/-- An entry of a table with its bits added. -/
def tableValue (table : List (Nat × Nat)) (index : Nat) : Decoder Nat := do
  match table[index]? with
  | some (base, extra) => return base + (← bits extra)
  | none => throw .corrupt

/-- Copies bytes from a distance back. -/
def copy (distance : Nat) : Nat → Decoder Unit
  | 0 => return ()
  | length + 1 => do
    let output := (← get).output
    if output.size < distance then throw .corrupt
    match output[output.size - distance]? with
    | some byte =>
      emit byte
      copy distance length
    | none => throw .corrupt

/-- The symbols of a block up to its end. Every symbol takes a bit at least. -/
def symbols (literals distances : PrefixCode) : (fuel : Nat) → Decoder Unit
  | 0 => throw .outOfBits
  | fuel + 1 => do
    let symbol ← literals.symbol
    if symbol < 256 then
      emit (UInt8.ofNat symbol)
      symbols literals distances fuel
    else if symbol = 256 then return ()
    else
      let length ← tableValue lengthTable (symbol - 257)
      let distance ← tableValue distanceTable (← distances.symbol)
      copy distance length
      symbols literals distances fuel

/-- The fixed code for bytes and lengths. -/
def fixedLiterals : PrefixCode :=
  .ofLengths (List.replicate 144 8 ++ List.replicate 112 9 ++ List.replicate 24 7 ++
    List.replicate 8 8)

/-- The fixed code for distances. -/
def fixedDistances : PrefixCode := .ofLengths (List.replicate 32 5)

/-- Bytes that are taken as they are. -/
def plain : Nat → Decoder Unit
  | 0 => return ()
  | count + 1 => do
    emit (UInt8.ofNat (← bits 8))
    plain count

/-- A stored block: from the next whole byte on, its length, the inverted length, its bytes. -/
def stored : Decoder Unit := do
  modify fun s => { s with position := (s.position + 7) / 8 * 8 }
  let length ← bits 16
  let inverted ← bits 16
  if length + inverted ≠ 65535 then throw .corrupt
  plain length

/-- The order in which the lengths of the code for lengths are given. -/
def lengthOrder : List Nat := [16, 17, 18, 0, 8, 7, 9, 6, 10, 5, 11, 4, 12, 3, 13, 2, 14, 1, 15]

/-- Lengths of words up to a number of them, given in a code that has symbols for repetitions.
`done` holds the lengths so far, last first. -/
def wordLengths (code : PrefixCode) (total : Nat) : (fuel : Nat) → (done : List Nat) →
    Decoder (List Nat)
  | 0, done => if done.length = total then return done.reverse else throw .corrupt
  | fuel + 1, done => do
    if done.length = total then return done.reverse
    else if total < done.length then throw .corrupt
    else
      match ← code.symbol with
      | 16 =>
        match done with
        | [] => throw .corrupt
        | last :: _ =>
          wordLengths code total fuel (List.replicate (3 + (← bits 2)) last ++ done)
      | 17 => wordLengths code total fuel (List.replicate (3 + (← bits 3)) 0 ++ done)
      | 18 => wordLengths code total fuel (List.replicate (11 + (← bits 7)) 0 ++ done)
      | length => wordLengths code total fuel (length :: done)

/-- Three bits for each of a number of lengths. -/
def shortLengths : Nat → Decoder (List Nat)
  | 0 => return []
  | count + 1 => return (← bits 3) :: (← shortLengths count)

/-- Whether a code may be used: it is complete, or has at most one word. -/
def isUsable (lengths : List Nat) : Bool :=
  (PrefixCode.ofLengths lengths).isComplete || (lengths.filter (· ≠ 0)).length ≤ 1

/-- The two codes that are given at the start of a block. -/
def givenCodes : Decoder (PrefixCode × PrefixCode) := do
  let literalCount := 257 + (← bits 5)
  let distanceCount := 1 + (← bits 5)
  let lengthCount := 4 + (← bits 4)
  let short ← shortLengths lengthCount
  let pairs := lengthOrder.zip short
  let codeLengths := (List.range 19).map fun i => (pairs.lookup i).getD 0
  if !isUsable codeLengths then throw .corrupt
  let lengths ← wordLengths (.ofLengths codeLengths) (literalCount + distanceCount) 320 []
  let literals := lengths.take literalCount
  let distances := lengths.drop literalCount
  if !isUsable literals || !isUsable distances then throw .corrupt
  return (.ofLengths literals, .ofLengths distances)

/-- Blocks up to the last one. Every block takes three bits at least. -/
def blocks : (fuel : Nat) → Decoder Unit
  | 0 => throw .outOfBits
  | fuel + 1 => do
    let isLast ← bit
    let size := 8 * (← get).input.size
    match ← bits 2 with
    | 0 => stored
    | 1 => symbols fixedLiterals fixedDistances (size + 1)
    | 2 => do
      let (literals, distances) ← givenCodes
      symbols literals distances (size + 1)
    | _ => throw .corrupt
    if isLast = 1 then return () else blocks fuel

end Inflate

/-- Decodes deflated data. -/
def inflate (data : ByteArray) : Inflate.Inflated :=
  let (result, final) :=
    ((Inflate.blocks (8 * data.size + 1)).run).run ⟨data, 0, ByteArray.empty⟩
  match result with
  | .ok () => .whole final.output
  | .error .outOfBits => .cut final.output
  | .error .corrupt => .corrupt

end VoltageStats
