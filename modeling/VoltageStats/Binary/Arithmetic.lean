import VoltageStats.Binary.Format

/-!
# Arithmetic of samples

The statistics of a set of samples are computed by the same formulas over any `Arithmetic`: over
doubles when the program runs, and over an exact field when a law of the formulas is stated.
For doubles the four operations round to nearest; an operand that is no number is passed on,
the first of two, and an operation without a result (such as `∞ - ∞`) gives the pattern that is
no number with the sign bit set.
-/

namespace VoltageStats

/-- The operations that the statistics are computed with. -/
class Arithmetic (R : Type) extends Add R, Sub R, Mul R, Div R, Max R, Min R where
  /-- A count. -/
  ofCount : Nat → R
  /-- A raw sample. -/
  ofSample : Int → R
  /-- A setting or a deviate, which is given in double precision. -/
  ofDouble : Binary64 → R
  /-- The result where there is nothing to take a mean or a variance of. -/
  undefined : R

namespace Binary64

/-- The machine's double with the same bit pattern. -/
def toFloat (x : Binary64) : Float := Float.ofBits x.bits

/-- The pattern that an operation without a result gives. -/
def invalid : Binary64 := ⟨0xfff8000000000000⟩

/-- The same pattern, marked as no number that may be passed on. -/
def quiet (x : Binary64) : Binary64 := ⟨x.bits ||| 0x0008000000000000⟩

/-- An operation of the machine on two patterns. -/
def operate (operation : Float → Float → Float) (a b : Binary64) : Binary64 :=
  if a.isNaN then a.quiet
  else if b.isNaN then b.quiet
  else
    let result := operation a.toFloat b.toFloat
    if result.isNaN then invalid else ⟨result.toBits⟩

instance : Add Binary64 := ⟨operate (· + ·)⟩
instance : Sub Binary64 := ⟨operate (· - ·)⟩
instance : Mul Binary64 := ⟨operate (· * ·)⟩
instance : Div Binary64 := ⟨operate (· / ·)⟩

/-- Whether one number is below another; never if either is no number. -/
def below (a b : Binary64) : Bool := a.toFloat < b.toFloat

/-- The larger of two; one that is no number is ignored. -/
instance : Max Binary64 :=
  ⟨fun a b => if a.isNaN then b else if b.isNaN then a else if a.below b then b else a⟩

/-- The smaller of two; one that is no number is ignored. -/
instance : Min Binary64 :=
  ⟨fun a b => if a.isNaN then b else if b.isNaN then a else if b.below a then b else a⟩

instance : Arithmetic Binary64 where
  ofCount := Binary64.ofNat
  ofSample := Binary64.ofInt
  ofDouble := id
  undefined := Binary64.nan

end Binary64

end VoltageStats
