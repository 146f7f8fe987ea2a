import VoltageStats.Binary.Arithmetic
import VoltageStats.Decimal.Literal

/-!
# Reading JSON

A JSON text is read to a value. Integers that fit into 64 bits are kept as they are. All other
numbers become doubles: their first nineteen or twenty digits, scaled by a power of ten. A number
that is too large for a double, and a text with half of a surrogate pair, have the right form but
stand for nothing; they only matter where they are looked at.
-/

namespace VoltageStats

/-- A JSON value. -/
inductive Json where
  | null
  | boolean (value : Bool)
  | integer (value : Int)
  | real (value : Binary64)
  | text (value : String)
  | array (items : List Json)
  /-- Members in order; a name may stand for nothing. -/
  | object (members : List (Option String × Json))
  /-- A value of the right form that stands for nothing. -/
  | meaningless

namespace Json

open Literal (digitValue digitsIn? digitsValue splitSign)

/-- Blanks between the parts of a text. -/
def isBlank (c : Char) : Bool := c = ' ' || c = '\n' || c = '\t' || c = '\r'

/-- The characters after any blanks. -/
def skipBlanks (input : List Char) : List Char := input.dropWhile isBlank

/-- Four hexadecimal digits, and what follows them. -/
def hexWord? (input : List Char) : Option (Nat × List Char) :=
  let digits := input.take 4
  if digits.length < 4 then none else (digitsIn? 16 digits).map fun code => (code, input.drop 4)

/-- A unit of a text: a character, or half of a surrogate pair. -/
inductive TextUnit where
  | char (c : Char)
  | half (code : Nat)
  deriving DecidableEq

/-- The unit that an escape sequence stands for. The backslash has been read. -/
def escapeUnit? : List Char → Option (TextUnit × List Char)
  | 'u' :: rest => do
    let (code, rest) ← hexWord? rest
    let unit := if 0xd800 ≤ code && code < 0xe000 then .half code else .char (Char.ofNat code)
    return (unit, rest)
  | c :: rest =>
    let plain := [('"', '"'), ('\\', '\\'), ('/', '/'), ('b', '\x08'), ('f', '\x0c'), ('n', '\n'),
      ('r', '\r'), ('t', '\t')]
    (plain.lookup c).map fun c => (.char c, rest)
  | [] => none

/-- The units of a text up to its closing quote, and what follows it. -/
def textUnits? : (fuel : Nat) → List Char → Option (List TextUnit × List Char)
  | 0, _ => none
  | _, [] => none
  | fuel + 1, c :: rest =>
    if c = '"' then some ([], rest)
    else if c = '\\' then do
      let (unit, rest) ← escapeUnit? rest
      let (units, rest) ← textUnits? fuel rest
      return (unit :: units, rest)
    else if c.toNat < 0x20 then none
    else (textUnits? fuel rest).map fun (units, rest) => (.char c :: units, rest)

/-- The characters of a text, if every half of a surrogate pair has its other half. -/
def joinUnits? : List TextUnit → Option (List Char)
  | [] => some []
  | .char c :: units => (joinUnits? units).map (c :: ·)
  | .half high :: .half low :: units =>
    if high < 0xdc00 && 0xdc00 ≤ low then
      (joinUnits? units).map
        (Char.ofNat (0x10000 + (high - 0xd800) * 0x400 + (low - 0xdc00)) :: ·)
    else none
  | .half _ :: _ => none

/-- A text after its opening quote, if it stands for one, and what follows it. -/
def text? (input : List Char) : Option (Option String × List Char) :=
  (textUnits? (input.length + 1) input).map fun (units, rest) =>
    ((joinUnits? units).map String.ofList, rest)

/-- The largest significand that is kept. -/
def significandLimit : Nat := 2 ^ 64

/-- Takes digits into a significand as long as it fits. Yields it, the number of digits taken, and
the digits that are left. -/
def takeDigits (significand : Nat) : List Char → Nat × Nat × List Char
  | [] => (significand, 0, [])
  | c :: digits =>
    let next := 10 * significand + digitValue c
    if next < significandLimit then
      let (significand, taken, rest) := takeDigits next digits
      (significand, taken + 1, rest)
    else (significand, 0, c :: digits)

/-- A number divided by ten to the power of 308 until the exponent that is left is at least
`-308`. -/
def scaleDown (x : Binary64) (exponent : Int) : (fuel : Nat) → Binary64 × Int
  | 0 => (x, exponent)
  | fuel + 1 =>
    if exponent < -308 && x ≠ .zero then
      scaleDown (x / Binary64.ofDecimal false 1 308) (exponent + 308) fuel
    else (x, exponent)

/-- A significand times a power of ten, rounded after each step; none if it is too large. -/
def scaled? (negative : Bool) (significand : Nat) (exponent : Int) : Option Binary64 := do
  let signed (x : Binary64) := if negative then x.negate else x
  let (x, exponent) := scaleDown (Binary64.ofNat significand) exponent 5
  if x = .zero then return signed x
  if 308 < exponent then none
  let power := Binary64.ofDecimal false 1 exponent.natAbs
  let result := if 0 ≤ exponent then x * power else x / power
  if result.isFinite then return signed result else none

/-- The value of a number from its parts. An integer has neither a point nor an exponent. -/
def numberOf (negative : Bool) (whole : List Char) (fraction : Option (List Char))
    (exponent : Option (Bool × List Char)) : Json :=
  let (significand, _, left) := takeDigits 0 whole
  let isInteger := fraction.isNone && exponent.isNone && left = []
  if isInteger && !negative then .integer significand
  else if isInteger && 0 < significand && significand ≤ 2 ^ 63 then .integer (-(significand : Int))
  else
    let digits := fraction.getD []
    let (significand, taken, _) := takeDigits significand digits
    let (isDown, power) := match exponent with
      | some (isDown, digits) => (isDown, digitsValue digits)
      | none => (false, 0)
    let signed (x : Binary64) := if negative then x.negate else x
    if 2 ^ 31 ≤ power then
      if isDown || significand = 0 then .real (signed .zero) else .meaningless
    else
      let shift : Int := (left.length : Int) - taken + if isDown then -(power : Int) else power
      match scaled? negative significand shift with
      | some x => .real x
      | none => .meaningless

/-- Digits, at least one, and what follows them. -/
def digits? (input : List Char) : Option (List Char × List Char) :=
  let (digits, rest) := input.span Char.isDigit
  if digits = [] then none else some (digits, rest)

/-- A number, and what follows it. -/
def number? (input : List Char) : Option (Json × List Char) := do
  let (negative, rest) := match input with
    | '-' :: rest => (true, rest)
    | _ => (false, input)
  let (whole, rest) ← digits? rest
  if whole.head? = some '0' && 1 < whole.length then none
  let (fraction, rest) ← match rest with
    | '.' :: rest => (digits? rest).map fun (digits, rest) => (some digits, rest)
    | _ => some (none, rest)
  let (exponent, rest) ← match rest with
    | c :: after =>
      if c = 'e' || c = 'E' then
        let (isDown, after) := splitSign after
        (digits? after).map fun (digits, rest) => (some (isDown, digits), rest)
      else some (none, rest)
    | [] => some (none, rest)
  return (numberOf negative whole fraction exponent, rest)

/-- What follows a word at the front of some characters. -/
def afterWord? (word : String) (input : List Char) : Option (List Char) :=
  let chars := word.toList
  if input.take chars.length = chars then some (input.drop chars.length) else none

mutual

/-- A value at the front of some characters, and what follows it. -/
def value? : (fuel : Nat) → List Char → Option (Json × List Char)
  | 0, _ => none
  | fuel + 1, input =>
    match skipBlanks input with
    | '"' :: rest =>
      (text? rest).map fun (content, rest) =>
        ((content.map Json.text).getD .meaningless, rest)
    | '[' :: rest =>
      match skipBlanks rest with
      | ']' :: rest => some (.array [], rest)
      | rest => (items? fuel rest).map fun (items, rest) => (.array items, rest)
    | '\x7b' :: rest =>
      match skipBlanks rest with
      | '\x7d' :: rest => some (.object [], rest)
      | rest => (members? fuel rest).map fun (members, rest) => (.object members, rest)
    | input =>
      match afterWord? "null" input, afterWord? "true" input, afterWord? "false" input with
      | some rest, _, _ => some (.null, rest)
      | _, some rest, _ => some (.boolean true, rest)
      | _, _, some rest => some (.boolean false, rest)
      | _, _, _ => number? input

/-- The items of an array up to its closing bracket, at least one. -/
def items? : (fuel : Nat) → List Char → Option (List Json × List Char)
  | 0, _ => none
  | fuel + 1, input => do
    let (item, rest) ← value? fuel input
    match skipBlanks rest with
    | ',' :: rest => (items? fuel rest).map fun (items, rest) => (item :: items, rest)
    | ']' :: rest => return ([item], rest)
    | _ => none

/-- The members of an object up to its closing brace, at least one. -/
def members? : (fuel : Nat) → List Char → Option (List (Option String × Json) × List Char)
  | 0, _ => none
  | fuel + 1, input => do
    match skipBlanks input with
    | '"' :: rest =>
      let (name, rest) ← text? rest
      match skipBlanks rest with
      | ':' :: rest =>
        let (value, rest) ← value? fuel rest
        match skipBlanks rest with
        | ',' :: rest =>
          (members? fuel rest).map fun (members, rest) => ((name, value) :: members, rest)
        | '\x7d' :: rest => return ([(name, value)], rest)
        | _ => none
      | _ => none
    | _ => none

end

/-- The value that a text holds, with nothing but blanks around it. -/
def parse? (text : String) : Option Json := do
  let input := text.toList
  let (value, rest) ← value? (input.length + 1) input
  if skipBlanks rest = [] then some value else none

end Json

end VoltageStats
