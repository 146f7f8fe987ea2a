import VoltageStats.Binary.Arithmetic

/-!
# Moments

Sums, means, variances and extremes of lists of numbers, over any arithmetic. Numbers are added
in order, except in `laneSum`, which adds them in eight interleaved parts first.
-/

namespace VoltageStats

open Arithmetic

variable {R : Type} [Arithmetic R]

/-- The sum of some numbers, in order. -/
def sum (xs : List R) : R := xs.foldl (· + ·) (ofCount 0)

/-- The mean of some numbers, undefined for none. -/
def mean (xs : List R) : R := if xs.isEmpty then undefined else sum xs / ofCount xs.length

/-- The unbiased variance of some numbers, undefined for fewer than two. -/
def sampleVariance (xs : List R) : R :=
  if xs.length < 2 then undefined
  else
    let center := mean xs
    sum (xs.map fun x => (x - center) * (x - center)) / ofCount (xs.length - 1)

/-- The largest of some numbers, undefined for none. -/
def largest : List R → R
  | [] => undefined
  | x :: xs => xs.foldl max x

/-- The smallest of some numbers, undefined for none. -/
def smallest : List R → R
  | [] => undefined
  | x :: xs => xs.foldl min x

/-- The sum of some numbers and of eight partial sums, to which the numbers are added in turn. The
partial sums are then added in pairs, and the numbers left over last. -/
def laneSumFrom (p₀ p₁ p₂ p₃ p₄ p₅ p₆ p₇ : R) : List R → R
  | x₀ :: x₁ :: x₂ :: x₃ :: x₄ :: x₅ :: x₆ :: x₇ :: xs =>
    laneSumFrom (p₀ + x₀) (p₁ + x₁) (p₂ + x₂) (p₃ + x₃) (p₄ + x₄) (p₅ + x₅) (p₆ + x₆) (p₇ + x₇) xs
  | xs => xs.foldl (· + ·)
      (ofCount 0 + (p₀ + p₄) + (p₁ + p₅) + (p₂ + p₆) + (p₃ + p₇))

/-- The sum of some numbers that lie one after the other. -/
def laneSum (xs : List R) : R :=
  let zero : R := ofCount 0
  laneSumFrom zero zero zero zero zero zero zero zero xs

/-- The centres of bins of one width that fill a span. -/
def binCentres (start width : R) (count : Nat) : Array R :=
  let step := width / ofCount count
  Array.ofFn fun (i : Fin count) => start + step * (ofCount i + ofCount 1 / ofCount 2)

end VoltageStats
