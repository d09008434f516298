import ApiCatalog.Text.Digits

/-!
# Plain texts that are no texts

A YAML text without quotes may stand for something else: for nothing at all, for a truth value or
for a number. `isResolved` says whether it does, so that a text like it has to be quoted.
-/

namespace ApiCatalog.Yaml

/-- The texts that stand for nothing. -/
def nulls : List String := ["", "~", "null", "Null", "NULL"]

/-- The texts that stand for truth values. -/
def booleans : List String := ["true", "True", "TRUE", "false", "False", "FALSE"]

/-- Infinity, without a sign. -/
def infinities : List String := [".inf", ".Inf", ".INF"]

/-- The texts that stand for what is no number among numbers. -/
def notNumbers : List String := [".nan", ".NaN", ".NAN"]

/-- The base that the second character of a number names. -/
def base? : Char → Option Nat
  | 'x' => some 16
  | 'o' => some 8
  | 'b' => some 2
  | _ => none

/-- The number that digits of a base spell, at least one. -/
def digitsValue? (base : Nat) : List Char → Option Nat
  | [] => none
  | text => (text.mapM (Text.digitIn? base)).map (Text.ofDigits base)

/-- A number in base sixteen, eight or two that 128 bits can hold, with its base in front and
perhaps a sign before that. -/
def isRadixInteger (text : List Char) : Bool :=
  let within (limit : Nat) : List Char → Bool
    | '0' :: mark :: digits =>
      ((base? mark).bind (digitsValue? · digits)).any (· < limit)
    | _ => false
  match text with
  | '-' :: text => within (Nat.pow 2 127 + 1) text
  | '+' :: text => within (Nat.pow 2 128) text
  | text => within (Nat.pow 2 128) text

/-- Digits with a needless zero in front, perhaps behind a sign. -/
def isZeroPadded (text : List Char) : Bool :=
  let padded : List Char → Bool
    | '0' :: c :: rest => (c :: rest).all fun c => (Text.digit? c).isSome
    | _ => false
  match text with
  | '-' :: text => padded text
  | '+' :: text => padded text
  | text => padded text

/-- The least number that is too great for a binary64 number: half a unit in the last place above
the greatest of them. -/
def tooGreat : Nat := Nat.pow 2 1024 - Nat.pow 2 970

/-- The number with these digits, times a power of ten, is not too great. Where the number of its
places decides that, the power is not computed. -/
def isFinite (digits : List Nat) (exponent : Int) : Bool :=
  let digits := digits.dropWhile (· = 0)
  let places := digits.length + exponent
  digits = [] || places < 309 ||
    (places = 309 &&
      Text.ofDigits 10 digits * Nat.pow 10 exponent.toNat <
        tooGreat * Nat.pow 10 (-exponent).toNat)

/-- The digits of an exponent, at least one and nothing else. -/
def exponentDigits? (text : List Char) : Option Nat :=
  match Text.leadingDigits text with
  | ([], _) => none
  | (digits, []) => some (Text.ofDigits 10 digits)
  | _ => none

/-- The exponent that ends a number, or zero where the number ends without one. -/
def exponent? : List Char → Option Int
  | [] => some 0
  | mark :: text =>
    if mark = 'e' ∨ mark = 'E' then
      match text with
      | '-' :: text => (exponentDigits? text).map fun n => -(n : Int)
      | '+' :: text => (exponentDigits? text).map Int.ofNat
      | text => (exponentDigits? text).map Int.ofNat
    else none

/-- The digits after a point, if there is one, and what follows them. -/
def fractionDigits : List Char → List Nat × List Char
  | '.' :: text => Text.leadingDigits text
  | text => ([], text)

/-- A decimal number without sign that is not too great. There is a digit before or after the
point. -/
def isUnsignedDecimal (text : List Char) : Bool :=
  let (whole, rest) := Text.leadingDigits text
  let (fraction, rest) := fractionDigits rest
  whole ++ fraction ≠ [] &&
    (exponent? rest).any fun exponent => isFinite (whole ++ fraction) (exponent - fraction.length)

/-- A decimal number that is not too great. -/
def isDecimal : List Char → Bool
  | '-' :: text => isUnsignedDecimal text
  | '+' :: text => isUnsignedDecimal text
  | text => isUnsignedDecimal text

/-- Infinity, perhaps with a sign. -/
def isInfinity : List Char → Bool
  | '-' :: text => String.ofList text ∈ infinities
  | '+' :: text => String.ofList text ∈ infinities
  | text => String.ofList text ∈ infinities

/-- Without quotes the text would not stand for itself. -/
def isResolved (text : String) : Bool :=
  text ∈ nulls || text ∈ booleans || text ∈ notNumbers || isInfinity text.toList ||
    isRadixInteger text.toList || isZeroPadded text.toList || isDecimal text.toList

end ApiCatalog.Yaml
