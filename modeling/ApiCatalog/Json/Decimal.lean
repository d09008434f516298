import ApiCatalog.Json.Binary64
import ApiCatalog.Text.Digits

/-!
# Decimal text of numbers

`Binary64.shortest` finds the fewest decimal digits that still name a binary64 number among all its
neighbours: it looks at the two decimals of one digit around the number, then at those of two
digits, and so on, and stops at the first that lies in the interval of reals that round to the
number. `NumberLayout` then says where the point goes.
-/

namespace ApiCatalog.Binary64

/-- The decimal `coefficient · 10 ^ exponent`. -/
structure Scientific where
  coefficient : Nat
  exponent : Int
deriving DecidableEq, Repr

/-- Compare a decimal with a fraction. -/
def Scientific.le (s : Scientific) (fraction : Nat × Nat) : Bool :=
  if 0 ≤ s.exponent then s.coefficient * Nat.pow 10 s.exponent.toNat * fraction.2 ≤ fraction.1
  else s.coefficient * fraction.2 ≤ fraction.1 * Nat.pow 10 (-s.exponent).toNat

/-- Compare a fraction with a decimal. -/
def Scientific.ge (s : Scientific) (fraction : Nat × Nat) : Bool :=
  if 0 ≤ s.exponent then fraction.1 ≤ s.coefficient * Nat.pow 10 s.exponent.toNat * fraction.2
  else fraction.1 * Nat.pow 10 (-s.exponent).toNat ≤ s.coefficient * fraction.2

/-- A number of quarters of the unit in the last place, as a fraction. -/
def quarters (x : Binary64) (count : Nat) : Nat × Nat :=
  let exponent := x.exponent - 2
  if 0 ≤ exponent then (count * Nat.pow 2 exponent.toNat, 1)
  else (count, Nat.pow 2 (-exponent).toNat)

/-- The lower end of the interval of reals that round to the magnitude. Below a power of two the
neighbour is closer. -/
def lowerEnd (x : Binary64) : Nat × Nat :=
  if x.significand = leastNormal ∧ leastExponent < x.exponent then
    x.quarters (4 * x.significand - 1)
  else x.quarters (4 * x.significand - 2)

/-- The upper end of the interval of reals that round to the magnitude. -/
def upperEnd (x : Binary64) : Nat × Nat := x.quarters (4 * x.significand + 2)

/-- The decimal rounds to the magnitude. The ends of the interval do so if the significand is
even, since a tie goes to the even one. -/
def roundsTo (x : Binary64) (s : Scientific) : Bool :=
  if x.significand % 2 = 0 then s.ge x.lowerEnd && s.le x.upperEnd
  else !s.le x.lowerEnd && !s.ge x.upperEnd

/-- The greatest power of ten that is at most a positive fraction. -/
def tenfold (fraction : Nat × Nat) : Int :=
  if fraction.2 ≤ fraction.1 then (Text.digits (fraction.1 / fraction.2)).length - 1
  else -((Text.digits ((fraction.2 - 1) / fraction.1)).length : Int)

/-- Twice the fraction is less than the sum of two neighbouring decimals, of which the lower one
is given, so that the lower one is nearer. -/
def nearerBelow (fraction : Nat × Nat) (below : Scientific) : Bool :=
  !(Scientific.mk (2 * below.coefficient + 1) below.exponent).le (2 * fraction.1, fraction.2)

/-- The two decimals lie equally far from the fraction. -/
def halfway (fraction : Nat × Nat) (below : Scientific) : Bool :=
  let middle : Scientific := ⟨2 * below.coefficient + 1, below.exponent⟩
  let doubled := (2 * fraction.1, fraction.2)
  middle.le doubled && middle.ge doubled

/-- The decimal with a given number of digits that rounds to the magnitude and lies nearest to
it, if one of the two around the magnitude does. -/
def withDigits? (x : Binary64) (count : Nat) : Option Scientific :=
  let fraction := x.magnitude
  let exponent := tenfold fraction - count + 1
  let coefficient :=
    if 0 ≤ exponent then fraction.1 / (fraction.2 * Nat.pow 10 exponent.toNat)
    else fraction.1 * Nat.pow 10 (-exponent).toNat / fraction.2
  let below : Scientific := ⟨coefficient, exponent⟩
  let above : Scientific := ⟨coefficient + 1, exponent⟩
  match x.roundsTo below, x.roundsTo above with
  | true, false => some below
  | false, true => some above
  | false, false => none
  | true, true =>
    if nearerBelow fraction below then some below
    else if halfway fraction below && coefficient % 2 = 0 then some below
    else some above

/-- The fewest digits that round to the magnitude. Seventeen always do. -/
def shortest (x : Binary64) : Scientific :=
  ((List.range 17).findSome? fun count => x.withDigits? (count + 1)).getD ⟨0, 0⟩

end ApiCatalog.Binary64

namespace ApiCatalog

/-- Where the decimal point of a number stands. A number whose leading digit has an exponent from
`positionalFrom` on and below `positionalBelow` is written in full, with at least one digit after
the point; every other number is written with an exponent. -/
structure NumberLayout where
  positionalFrom : Int
  positionalBelow : Int

namespace NumberLayout

/-- Digits `d₀d₁…` with the point after the first one, and an exponent with its sign. -/
def withExponent (digits : List Char) (leading : Int) : List Char :=
  let mantissa := match digits with
    | first :: second :: rest => first :: '.' :: second :: rest
    | _ => digits
  mantissa ++ 'e' :: (if leading < 0 then '-' else '+') :: Text.digits leading.natAbs

/-- Digits in full, where the first one has the weight `10 ^ leading`. -/
def positional (digits : List Char) (leading : Int) : List Char :=
  if leading < 0 then
    '0' :: '.' :: List.replicate (-leading - 1).toNat '0' ++ digits
  else
    let whole := leading.toNat + 1
    if digits.length ≤ whole then
      digits ++ List.replicate (whole - digits.length) '0' ++ ['.', '0']
    else digits.take whole ++ '.' :: digits.drop whole

/-- The text of a number. -/
def write (layout : NumberLayout) (x : Binary64) : List Char :=
  let sign := if x.negative then ['-'] else []
  if x.significand = 0 then sign ++ ['0', '.', '0']
  else
    let decimal := x.shortest
    let all := Text.digits decimal.coefficient
    let leading := decimal.exponent + all.length - 1
    let digits := (all.reverse.dropWhile (· = '0')).reverse
    sign ++ (if layout.positionalFrom ≤ leading ∧ leading < layout.positionalBelow then
      positional digits leading else withExponent digits leading)

end NumberLayout

end ApiCatalog
