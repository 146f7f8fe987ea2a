import VoltageStats.Binary.Format

/-!
# Literals

What digits stand for: numbers in some base, and characters given by their codes. On top of that,
numbers as they are typed on a command line: unsigned integers with an optional plus sign, and
floating-point numbers, which are rounded to the nearest double. Those are read whole: no blank
and no other character may stand before or after the number.
-/

namespace VoltageStats.Literal

/-- The value of an ASCII decimal digit. -/
def digitValue (c : Char) : Nat := c.toNat - '0'.toNat

/-- The number that a list of ASCII decimal digits writes. -/
def digitsValue (digits : List Char) : Nat :=
  digits.foldl (fun value c => 10 * value + digitValue c) 0

/-- The value of a digit in bases up to sixteen. -/
def digit? (c : Char) : Option Nat :=
  if c.isDigit then some (c.toNat - '0'.toNat)
  else if 'a' ≤ c && c ≤ 'f' then some (c.toNat - 'a'.toNat + 10)
  else if 'A' ≤ c && c ≤ 'F' then some (c.toNat - 'A'.toNat + 10)
  else none

/-- The value of a nonempty list of digits in a base. -/
def digitsIn? (base : Nat) (digits : List Char) : Option Nat :=
  if digits = [] then none
  else digits.foldlM (fun value c => do
    let digit ← digit? c
    if digit < base then some (value * base + digit) else none) 0

/-- Digits with single underscores between them, and what follows them. -/
def digitRun (isDigit : Char → Bool) : List Char → List Char × List Char
  | c :: '_' :: d :: rest =>
    if isDigit c && isDigit d then
      let (digits, rest) := digitRun isDigit (d :: rest)
      (c :: digits, rest)
    else if isDigit c then ([c], '_' :: d :: rest) else ([], c :: '_' :: d :: rest)
  | c :: rest =>
    if isDigit c then
      let (digits, rest) := digitRun isDigit rest
      (c :: digits, rest)
    else ([], c :: rest)
  | [] => ([], [])

/-- The character with a code, if there is one. -/
def charOf? (code : Nat) : Option Char :=
  if h : code.isValidChar then some (Char.ofNatAux code h) else none

/-- A character given by a fixed number of hexadecimal digits. -/
def hexChar? (count : Nat) (input : List Char) : Option (Char × List Char) := do
  let digits := input.take count
  if digits.length < count then none
  else return (← charOf? (← digitsIn? 16 digits), input.drop count)

/-- The natural number that a nonempty list of ASCII decimal digits writes. -/
def natural? (text : List Char) : Option Nat :=
  if text ≠ [] && text.all Char.isDigit then some (digitsValue text) else none

/-- An unsigned integer below `2 ^ width`. -/
def unsigned? (width : Nat) (text : List Char) : Option Nat :=
  let digits := match text with
    | '+' :: rest => rest
    | _ => text
  match natural? digits with
  | some value => if value < 2 ^ width then some value else none
  | none => none

/-- A sign, if there is one, and what follows it. -/
def splitSign : List Char → Bool × List Char
  | '-' :: rest => (true, rest)
  | '+' :: rest => (false, rest)
  | text => (false, text)

/-- The exponent part of a number, which may be empty. -/
def exponent? : List Char → Option Int
  | [] => some 0
  | c :: rest =>
    if c = 'e' || c = 'E' then
      let (negative, digits) := splitSign rest
      (natural? digits).map fun value => if negative then -(value : Int) else value
    else none

/-- The digits before and after the point, and what follows them. -/
def splitPoint (text : List Char) : List Char × List Char × List Char :=
  let (whole, rest) := text.span Char.isDigit
  match rest with
  | '.' :: rest =>
    let (fraction, rest) := rest.span Char.isDigit
    (whole, fraction, rest)
  | _ => (whole, [], rest)

/-- The double nearest to a decimal number without a sign: digits with or without a point, at
least one, and an optional exponent. -/
def unsignedDouble? (negative : Bool) (text : List Char) : Option Binary64 :=
  let (whole, fraction, rest) := splitPoint text
  if whole = [] && fraction = [] then none
  else (exponent? rest).map fun e =>
    Binary64.ofDecimal negative (digitsValue (whole ++ fraction)) (e - fraction.length)

/-- A floating-point number: a decimal number, `inf`, `infinity` or `nan` in any case, with an
optional sign. -/
def double? (text : List Char) : Option Binary64 :=
  let (negative, rest) := splitSign text
  let word := String.ofList (rest.map Char.toLower)
  let signed (x : Binary64) := if negative then x.negate else x
  if word = "inf" || word = "infinity" then some (signed Binary64.infinity)
  else if word = "nan" then some (signed Binary64.nan)
  else unsignedDouble? negative rest

/-- The words for the two truth values. -/
def boolean? (text : String) : Option Bool :=
  if text = "true" then some true else if text = "false" then some false else none

end VoltageStats.Literal
