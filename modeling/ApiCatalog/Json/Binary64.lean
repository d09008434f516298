/-!
# Binary64 numbers

A number of a JSON text that is no integer becomes a finite binary64 number: a sign and a
magnitude `significand · 2 ^ exponent`. Every rounding goes through `Binary64.ofRatio`, which
takes an exact fraction to the nearest representable magnitude, a tie to the even significand, so
that the arithmetic below is exact natural-number arithmetic followed by one rounding.
-/

namespace ApiCatalog

/-- A finite binary64 number. The magnitude is `significand · 2 ^ exponent`, where the significand
has 53 bits, or fewer if the exponent is the least one, -1074. -/
structure Binary64 where
  negative : Bool
  significand : Nat
  exponent : Int
deriving DecidableEq, Repr, Inhabited

namespace Binary64

/-- The significands of normal numbers lie between this power of two and its double. -/
def leastNormal : Nat := Nat.pow 2 52

/-- The exponent of the smallest magnitudes. -/
def leastExponent : Int := -1074

/-- The exponent of the greatest magnitudes. -/
def greatestExponent : Int := 971

/-- The zero with a given sign. -/
def zero (negative : Bool) : Binary64 := ⟨negative, 0, leastExponent⟩

/-- The same magnitude with a given sign. -/
def withSign (negative : Bool) (x : Binary64) : Binary64 := { x with negative }

/-- The quotient of two natural numbers, rounded to the nearest one, a tie to the even one. -/
def roundDiv (numerator denominator : Nat) : Nat :=
  let quotient := numerator / denominator
  let remainder := numerator % denominator
  if 2 * remainder < denominator then quotient
  else if denominator < 2 * remainder then quotient + 1
  else if quotient % 2 = 0 then quotient
  else quotient + 1

/-- The fraction `numerator / denominator` divided by `2 ^ exponent`. -/
def scaled (numerator denominator : Nat) (exponent : Int) : Nat × Nat :=
  if 0 ≤ exponent then (numerator, denominator * Nat.pow 2 exponent.toNat)
  else (numerator * Nat.pow 2 (-exponent).toNat, denominator)

/-- The exponent under which the fraction has a significand of 53 bits, unless that is less than
the least exponent. -/
def exponentFor (numerator denominator : Nat) : Int :=
  let estimate : Int := numerator.log2 - denominator.log2 - 52
  let (n, d) := scaled numerator denominator estimate
  max leastExponent (if n / d < leastNormal then estimate - 1 else estimate)

/-- The representable number nearest to a positive or negative fraction, or nothing if its
magnitude is too great. -/
def ofRatio (negative : Bool) (numerator denominator : Nat) : Option Binary64 :=
  if numerator = 0 then some (zero negative)
  else
    let exponent := exponentFor numerator denominator
    let (n, d) := scaled numerator denominator exponent
    let significand := roundDiv n d
    let (significand, exponent) :=
      if significand = 2 * leastNormal then (leastNormal, exponent + 1)
      else (significand, exponent)
    if greatestExponent < exponent then none else some ⟨negative, significand, exponent⟩

/-- The magnitude as a fraction. -/
def magnitude (x : Binary64) : Nat × Nat :=
  if 0 ≤ x.exponent then (x.significand * Nat.pow 2 x.exponent.toNat, 1)
  else (x.significand, Nat.pow 2 (-x.exponent).toNat)

/-- The rounded product. -/
def mul (x y : Binary64) : Option Binary64 :=
  let (a, b) := x.magnitude
  let (c, d) := y.magnitude
  ofRatio (x.negative != y.negative) (a * c) (b * d)

/-- The rounded quotient by a number that is not zero. -/
def div (x y : Binary64) : Option Binary64 :=
  let (a, b) := x.magnitude
  let (c, d) := y.magnitude
  ofRatio (x.negative != y.negative) (a * d) (b * c)

/-- The number nearest to a natural number, or nothing if that is too great. -/
def ofNat (n : Nat) : Option Binary64 := ofRatio false n 1

/-- `significand · 10 ^ exponent`, for a significand of at most 64 bits. The significand and the
power of ten are rounded first, and their product or quotient afterwards. Powers of ten go up to
308: a greater one makes the number too great, unless it is zero, and a lesser one is reached by
dividing by `10 ^ 308` first. -/
def ofParts (significand : Nat) (exponent : Int) : Option Binary64 :=
  if significand = 0 then some (zero false)
  else if 308 < exponent then none
  else do
    let base ← ofNat significand
    let power (n : Nat) : Option Binary64 := ofNat (Nat.pow 10 n)
    if 0 ≤ exponent then base.mul (← power exponent.toNat)
    else if -308 ≤ exponent then base.div (← power (-exponent).toNat)
    else if -616 ≤ exponent then
      (← base.div (← power 308)).div (← power (-exponent - 308).toNat)
    else pure (zero false)

end Binary64

end ApiCatalog
