import VoltageStats.Binary.Format

/-!
# The shortest decimal that reads back

A binary floating-point number is written with the fewest decimal digits that are still nearer
to it than to its neighbours. The reals that round to a number `magnitude * 2 ^ exponent` form
an interval, its ends included if the magnitude is even. Of the decimal grids `10 ^ k` the
coarsest one with a point in the interval is taken, and of its points the one nearest to the
number.
-/

namespace VoltageStats

/-- A positive decimal number, `digits * 10 ^ exponent`. -/
structure Decimal where
  digits : Nat
  exponent : Int
  deriving DecidableEq, Repr

/-- Which of two equally near decimals is taken. -/
inductive TieRule where
  | up
  | even
  deriving DecidableEq, Repr

namespace Decimal

/-- A positive number with the interval of the reals that round to it, over one denominator. -/
structure Neighbourhood where
  low : Nat
  middle : Nat
  high : Nat
  denominator : Nat
  closed : Bool

/-- The reals that round to `magnitude * 2 ^ exponent` in a format. Below a power of two the
gap to the next number is half as wide, except among the smallest numbers. -/
def neighbourhood (f : BinaryFormat) (magnitude : Nat) (exponent : Int) : Neighbourhood :=
  let narrow := magnitude = 2 ^ f.fractionBits ∧ f.leastExponent < exponent
  let scale := if 2 ≤ exponent then 2 ^ (exponent - 2).toNat else 1
  { low := (4 * magnitude - if narrow then 1 else 2) * scale
    middle := 4 * magnitude * scale
    high := (4 * magnitude + 2) * scale
    denominator := if 2 ≤ exponent then 1 else 2 ^ (2 - exponent).toNat
    closed := magnitude % 2 = 0 }

/-- The point of the grid `10 ^ k` in a neighbourhood that is nearest to its middle. -/
def gridPoint? (tie : TieRule) (n : Neighbourhood) (k : Int) : Option Decimal :=
  let up := if 0 ≤ k then 1 else 10 ^ (-k).toNat
  let unit := if 0 ≤ k then n.denominator * 10 ^ k.toNat else n.denominator
  let below := n.middle * up / unit
  let remainder := n.middle * up % unit
  let lowHit := if n.closed then n.low * up ≤ below * unit else n.low * up < below * unit
  let highHit :=
    if n.closed then (below + 1) * unit ≤ n.high * up else (below + 1) * unit < n.high * up
  if lowHit ∧ 0 < below then
    if highHit then
      if 2 * remainder < unit then some ⟨below, k⟩
      else if unit < 2 * remainder then some ⟨below + 1, k⟩
      else match tie with
        | .up => some ⟨below + 1, k⟩
        | .even => some ⟨if below % 2 = 0 then below else below + 1, k⟩
    else some ⟨below, k⟩
  else if highHit then some ⟨below + 1, k⟩
  else none

/-- The first grid with a point in the neighbourhood, from `10 ^ k` down through at most `steps`
finer ones. -/
def firstGridPoint (tie : TieRule) (n : Neighbourhood) : (steps : Nat) → (k : Int) → Decimal
  | 0, k => ⟨n.middle / n.denominator, max k 0⟩
  | steps + 1, k =>
    match gridPoint? tie n k with
    | some d => d
    | none => firstGridPoint tie n steps (k - 1)

/-- The shortest decimal that rounds to `magnitude * 2 ^ exponent`, for a positive magnitude. -/
def shortest (f : BinaryFormat) (tie : TieRule) (magnitude : Nat) (exponent : Int) : Decimal :=
  let top := ((magnitude.log2 : Int) + exponent + 1) * 30103 / 100000 + 1
  firstGridPoint tie (neighbourhood f magnitude exponent) (f.fractionBits + 10) top

/-- The decimal digits, most significant first. -/
def digitChars (d : Decimal) : List Char := Nat.toDigits 10 d.digits

end Decimal

end VoltageStats
