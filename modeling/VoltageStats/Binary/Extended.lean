import VoltageStats.Binary.Arithmetic

/-!
# Numbers with infinities

A double stands for a rational number, for an infinity with its sign, or for no number
(`Extended`). An arithmetic whose operands are known to stand for these is `Numeric`: what it
computes can be rounded to an integer, brought between limits and kept in a word, each of which
says what becomes of the infinities and of what is no number.
-/

namespace VoltageStats

/-- A number, an infinity with its sign, or what is no number. -/
inductive Extended (α : Type) where
  | nan
  | infinite (negative : Bool)
  | finite (x : α)
  deriving DecidableEq, Repr

namespace Extended

variable {α β : Type}

/-- A number changed. What is none stays as it is. -/
def map (f : α → β) : Extended α → Extended β
  | nan => nan
  | infinite negative => infinite negative
  | finite x => finite (f x)

/-- An integer brought between two limits. An infinity goes to the limit on its side, and what is no
number stays none. -/
def clamp (low high : Int) : Extended Int → Extended Int
  | nan => nan
  | infinite negative => finite (if negative then low else high)
  | finite n => finite (min (max n low) high)

/-- The signed word of 16 bits that is nearest to an integer, and zero for what is no number. -/
def toWord16 : Extended Int → Int
  | nan => 0
  | infinite negative => if negative then -2 ^ 15 else 2 ^ 15 - 1
  | finite n => min (max n (-2 ^ 15)) (2 ^ 15 - 1)

end Extended

/-- The integer nearest to a number. A tie goes to the even neighbour. -/
def nearestInteger (x : Rat) : Int :=
  let magnitude : Int := roundHalfEven x.num.natAbs x.den
  if x.num < 0 then -magnitude else magnitude

/-- The number that a value is, without its sign if it is zero. -/
def BinaryValue.toExtended : BinaryValue → Extended Rat
  | .nan _ => .nan
  | .infinite negative => .infinite negative
  | .finite negative magnitude exponent =>
    let signed : Int := if negative then -magnitude else magnitude
    .finite <|
      if 0 ≤ exponent then (signed * 2 ^ exponent.toNat : Int)
      else mkRat signed (2 ^ (-exponent).toNat)

/-- Arithmetic whose operands stand for numbers. -/
class Numeric (R : Type) extends Arithmetic R where
  /-- The number that is stood for. -/
  number : R → Extended Rat

instance : Numeric Binary64 where
  number x := x.value.toExtended

end VoltageStats
