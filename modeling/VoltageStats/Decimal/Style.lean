import VoltageStats.Decimal.Shortest

/-!
# Number styles

A floating-point number is written with its shortest digits. A `NumberStyle` fixes the rest: which
of two equally near decimals is taken, for which exponents the digits are written positionally,
whether an integer is followed by `.0`, and how the values without digits are written. The
notations of messages, lists, JSON and TOML documents are the values of this type below.
`fixedPlaces` is the other way to write a number: rounded to a given number of places.
-/

namespace VoltageStats

/-- How floating-point numbers are written. The exponent meant is that of the first digit. -/
structure NumberStyle where
  /-- Which of two equally near decimals is taken. -/
  tie : TieRule
  /-- Whether digits with this exponent are written positionally. -/
  positional : Int → Bool
  /-- Whether a positional integer is followed by `.0`. -/
  pointZero : Bool
  /-- Whether a positive exponent has a sign. -/
  plusSign : Bool
  /-- The text of a pattern that is no number. -/
  nanText : Bool → String
  /-- The text of an infinity. -/
  infinityText : Bool → String

namespace NumberStyle

/-- Single numbers in messages and tables: always positional. -/
def plain : NumberStyle where
  tie := .up
  positional _ := true
  pointZero := false
  plusSign := false
  nanText _ := "NaN"
  infinityText negative := if negative then "-inf" else "inf"

/-- Elements of lists in messages. -/
def listed : NumberStyle where
  tie := .up
  positional e := -4 ≤ e && e < 16
  pointZero := true
  plusSign := false
  nanText _ := "NaN"
  infinityText negative := if negative then "-inf" else "inf"

/-- Numbers in JSON documents, where only finite numbers have a text of their own. -/
def json : NumberStyle where
  tie := .even
  positional e := -5 ≤ e && e < 16
  pointZero := true
  plusSign := true
  nanText _ := "null"
  infinityText _ := "null"

/-- Numbers in TOML documents: always positional. -/
def toml : NumberStyle where
  tie := .up
  positional _ := true
  pointZero := true
  plusSign := false
  nanText negative := if negative then "-nan" else "nan"
  infinityText negative := if negative then "-inf" else "inf"

/-- Digits with the point after the first `exponent + 1` of them, filled up with zeros. -/
def positionalChars (n : NumberStyle) (digits : List Char) (exponent : Int) : List Char :=
  if exponent < 0 then
    ['0', '.'] ++ List.replicate (-exponent - 1).toNat '0' ++ digits
  else
    let whole := exponent.toNat + 1
    if digits.length ≤ whole then
      digits ++ List.replicate (whole - digits.length) '0' ++ if n.pointZero then ['.', '0'] else []
    else digits.take whole ++ ['.'] ++ digits.drop whole

/-- Digits with the point after the first, and the exponent. -/
def scientificChars (n : NumberStyle) (digits : List Char) (exponent : Int) : List Char :=
  let point := if digits.length ≤ 1 then digits else digits.take 1 ++ ['.'] ++ digits.drop 1
  let sign := if exponent < 0 then ['-'] else if n.plusSign then ['+'] else []
  point ++ ['e'] ++ sign ++ Nat.toDigits 10 exponent.natAbs

/-- The text of a positive decimal. -/
def decimalChars (n : NumberStyle) (d : Decimal) : List Char :=
  let digits := d.digitChars
  let exponent := d.exponent + digits.length - 1
  if n.positional exponent then n.positionalChars digits exponent
  else n.scientificChars digits exponent

/-- The text of a number in some format. -/
def write (n : NumberStyle) (f : BinaryFormat) : BinaryValue → String
  | .nan negative => n.nanText negative
  | .infinite negative => n.infinityText negative
  | .finite negative magnitude exponent =>
    let text :=
      if magnitude = 0 then n.positionalChars ['0'] 0
      else n.decimalChars (Decimal.shortest f n.tie magnitude exponent)
    String.ofList (if negative then '-' :: text else text)

/-- The text of a double. -/
def write64 (n : NumberStyle) (x : Binary64) : String := n.write .double x.value

/-- The text of a single-precision number. -/
def write32 (n : NumberStyle) (x : Binary32) : String := n.write .single x.value

end NumberStyle

/-- A number rounded to `places` digits after the point, a tie going to the even neighbour. -/
def fixedPlaces (places : Nat) : BinaryValue → String
  | .nan _ => "NaN"
  | .infinite negative => if negative then "-inf" else "inf"
  | .finite negative magnitude exponent =>
    let scaled := magnitude * 10 ^ places
    let units :=
      if 0 ≤ exponent then scaled * 2 ^ exponent.toNat
      else roundHalfEven scaled (2 ^ (-exponent).toNat)
    let digits := Nat.toDigits 10 units
    let padded := List.replicate (places + 1 - digits.length) '0' ++ digits
    let whole := padded.length - places
    let text := padded.take whole ++ if places = 0 then [] else '.' :: padded.drop whole
    String.ofList (if negative then '-' :: text else text)

end VoltageStats
