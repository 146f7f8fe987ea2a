/-!
# Binary floating-point formats

A binary interchange format is fixed by the widths of its exponent and fraction fields. A bit
pattern of the format is split into the number it stands for (`BinaryFormat.decode`), and a
quotient of natural numbers is rounded to the nearest bit pattern (`BinaryFormat.ofRatio`), a
tie going to the pattern with an even fraction. `Binary32` and `Binary64` are the two formats
that statistics are kept in; their values are bit patterns, so that a value that is stored and
loaded again is the same value even if it is not a number.
-/

namespace VoltageStats

/-! ## Whole numbers -/

-- Powers of whole numbers are those of the core library, whatever other powers are known.

@[default_instance 20000]
instance (priority := 20000) naturalPower : Pow Nat Nat := instPowNat

@[default_instance 20000]
instance (priority := 20000) integerPower : Pow Int Nat := instPowNat

/-- The quotient of two natural numbers, rounded to the nearest integer. A tie goes to the even
neighbour. -/
def roundHalfEven (numerator denominator : Nat) : Nat :=
  let quotient := numerator / denominator
  let remainder := numerator % denominator
  if 2 * remainder < denominator then quotient
  else if denominator < 2 * remainder then quotient + 1
  else if quotient % 2 = 0 then quotient else quotient + 1

/-! ## Formats -/

/-- The widths of the fields of a binary floating-point format. -/
structure BinaryFormat where
  exponentBits : Nat
  fractionBits : Nat

/-- What a bit pattern stands for. A finite number is `magnitude * 2 ^ exponent`, with its
sign. -/
inductive BinaryValue where
  | nan (negative : Bool)
  | infinite (negative : Bool)
  | finite (negative : Bool) (magnitude : Nat) (exponent : Int)
  deriving DecidableEq, Repr

namespace BinaryFormat

/-- Single precision. -/
def single : BinaryFormat := ⟨8, 23⟩

/-- Double precision. -/
def double : BinaryFormat := ⟨11, 52⟩

/-- The exponent of the last fraction bit of the smallest numbers. -/
def leastExponent (f : BinaryFormat) : Int :=
  2 - 2 ^ (f.exponentBits - 1) - f.fractionBits

/-- The exponent field of infinities and of patterns that are not numbers. -/
def topExponentField (f : BinaryFormat) : Nat := 2 ^ f.exponentBits - 1

/-- The pattern of positive infinity. -/
def infinityBits (f : BinaryFormat) : Nat := f.topExponentField * 2 ^ f.fractionBits

/-- The sign bit alone. -/
def signBit (f : BinaryFormat) : Nat := 2 ^ (f.exponentBits + f.fractionBits)

/-- The number that a bit pattern stands for. -/
def decode (f : BinaryFormat) (bits : Nat) : BinaryValue :=
  let negative := decide (f.signBit ≤ bits)
  let field := bits / 2 ^ f.fractionBits % 2 ^ f.exponentBits
  let fraction := bits % 2 ^ f.fractionBits
  if field = f.topExponentField then
    if fraction = 0 then .infinite negative else .nan negative
  else if field = 0 then .finite negative fraction f.leastExponent
  else .finite negative (fraction + 2 ^ f.fractionBits) (f.leastExponent + field - 1)

/-- The largest `e` with `2 ^ e ≤ numerator / denominator`, for positive arguments. -/
def floorLog2 (numerator denominator : Nat) : Int :=
  let guess : Int := (numerator.log2 : Int) - denominator.log2
  let reached :=
    if 0 ≤ guess then denominator * 2 ^ guess.toNat ≤ numerator
    else denominator ≤ numerator * 2 ^ (-guess).toNat
  if reached then guess else guess - 1

/-- The magnitude bits of the number nearest to a quotient; too large a quotient gives
infinity. -/
def magnitudeOfRatio (f : BinaryFormat) (numerator denominator : Nat) : Nat :=
  if numerator = 0 then 0
  else
    let exponent := max (floorLog2 numerator denominator - f.fractionBits) f.leastExponent
    let significand :=
      if 0 ≤ exponent then roundHalfEven numerator (denominator * 2 ^ exponent.toNat)
      else roundHalfEven (numerator * 2 ^ (-exponent).toNat) denominator
    min ((exponent - f.leastExponent).toNat * 2 ^ f.fractionBits + significand) f.infinityBits

/-- The bit pattern nearest to a quotient, with its sign. -/
def ofRatio (f : BinaryFormat) (negative : Bool) (numerator denominator : Nat) : Nat :=
  (if negative then f.signBit else 0) + f.magnitudeOfRatio numerator denominator

/-- The bit pattern nearest to `magnitude * 2 ^ exponent`. -/
def ofScaled (f : BinaryFormat) (negative : Bool) (magnitude : Nat) (exponent : Int) : Nat :=
  if 0 ≤ exponent then f.ofRatio negative (magnitude * 2 ^ exponent.toNat) 1
  else f.ofRatio negative magnitude (2 ^ (-exponent).toNat)

/-- The bit pattern nearest to `digits * 10 ^ exponent`. Exponents far outside the range of the
double format are settled without computing the power. -/
def ofDecimal (f : BinaryFormat) (negative : Bool) (digits : Nat) (exponent : Int) : Nat :=
  let leading : Int := digits.log2 / 3 + 1 + exponent
  let trailing : Int := digits.log2 / 4 + exponent
  if digits = 0 || leading < -400 then f.ofRatio negative 0 1
  else if 400 < trailing then (if negative then f.signBit else 0) + f.infinityBits
  else if 0 ≤ exponent then f.ofRatio negative (digits * 10 ^ exponent.toNat) 1
  else f.ofRatio negative digits (10 ^ (-exponent).toNat)

end BinaryFormat

/-- A single-precision number, kept as its bit pattern. -/
structure Binary32 where
  bits : UInt32
  deriving DecidableEq, Repr, Inhabited

/-- A double-precision number, kept as its bit pattern. -/
structure Binary64 where
  bits : UInt64
  deriving DecidableEq, Repr, Inhabited

namespace Binary32

/-- The number that a single-precision pattern stands for. -/
def value (x : Binary32) : BinaryValue := BinaryFormat.single.decode x.bits.toNat

end Binary32

namespace Binary64

/-- The number that a double-precision pattern stands for. -/
def value (x : Binary64) : BinaryValue := BinaryFormat.double.decode x.bits.toNat

/-- Positive zero. -/
def zero : Binary64 := ⟨0⟩

/-- The pattern that stands for "no number" where there is nothing to take a mean or a variance
of. -/
def nan : Binary64 := ⟨0x7ff8000000000000⟩

/-- Positive infinity. -/
def infinity : Binary64 := ⟨0x7ff0000000000000⟩

/-- Whether a pattern is no number. -/
def isNaN (x : Binary64) : Bool := x.bits &&& 0x7fffffffffffffff > 0x7ff0000000000000

/-- Whether a pattern is a finite number. -/
def isFinite (x : Binary64) : Bool := x.bits &&& 0x7ff0000000000000 != 0x7ff0000000000000

/-- Whether a pattern is a finite number above zero. -/
def isPositive (x : Binary64) : Bool := 0 < x.bits && x.bits < 0x7ff0000000000000

/-- The pattern with the opposite sign bit. -/
def negate (x : Binary64) : Binary64 := ⟨x.bits ^^^ 0x8000000000000000⟩

/-- The double nearest to `digits * 10 ^ exponent`. -/
def ofDecimal (negative : Bool) (digits : Nat) (exponent : Int) : Binary64 :=
  ⟨UInt64.ofNat (BinaryFormat.double.ofDecimal negative digits exponent)⟩

/-- The double nearest to a natural number. -/
def ofNat (n : Nat) : Binary64 := ⟨UInt64.ofNat (BinaryFormat.double.ofRatio false n 1)⟩

/-- The double nearest to an integer. -/
def ofInt (n : Int) : Binary64 :=
  ⟨UInt64.ofNat (BinaryFormat.double.ofRatio (n < 0) n.natAbs 1)⟩

/-- The single-precision number nearest to a double. A pattern that is no number keeps its sign
and the leading bits of its fraction, and is made quiet. -/
def toBinary32 (x : Binary64) : Binary32 :=
  match x.value with
  | .nan negative =>
    let quiet : UInt32 := if negative then 0xffc00000 else 0x7fc00000
    ⟨quiet ||| ((x.bits >>> 29).toUInt32 &&& 0x003fffff)⟩
  | .infinite negative => ⟨if negative then 0xff800000 else 0x7f800000⟩
  | .finite negative magnitude exponent =>
    ⟨UInt32.ofNat (BinaryFormat.single.ofScaled negative magnitude exponent)⟩

end Binary64

end VoltageStats
