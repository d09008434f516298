import ApiCatalog.Json.Basic
import ApiCatalog.Text.Digits

/-!
# JSON texts as written

Between a text and its value stands the tree of what is written: `Written` keeps the members of an
object in the order of the text, repeated keys included, and leaves numbers and strings as they
are spelled. A reader of a known format looks at it member by member, may refuse a repeated key,
and passes over members that it does not know without asking what their numbers and strings mean.
`Written.value?` gives the value of the whole tree. It fails on a number that is too great, on half
of a surrogate pair, and where arrays and objects stand more than `depthLimit` deep.
-/

namespace ApiCatalog

/-- A number as it is spelled: the digits before the point, those after it, and the digits of the
exponent with its sign, where one is written. -/
structure NumberLiteral where
  negative : Bool
  whole : List Nat
  fraction : Option (List Nat)
  exponent : Option (Bool × List Nat)
deriving DecidableEq, Repr

/-- A piece of a string as it is spelled: a character, or a UTF-16 unit given by its number. -/
inductive StringPiece where
  | plain (c : Char)
  | unit (code : Nat)
deriving DecidableEq, Repr

/-- A JSON text as it is written. -/
inductive Written where
  | null
  | bool (value : Bool)
  | number (literal : NumberLiteral)
  | string (pieces : List StringPiece)
  | array (items : List Written)
  | object (members : List (List StringPiece × Written))
deriving Repr

namespace NumberLiteral

/-- The least number that 64 bits cannot hold. -/
def wordLimit : Nat := Nat.pow 2 64

/-- Append the digits before the point to a significand as long as it fits 64 bits. The second
component counts the digits that are dropped from there on. -/
def takeWhole (significand : Nat) : List Nat → Nat × Nat
  | [] => (significand, 0)
  | digit :: digits =>
    if significand * 10 + digit < wordLimit then takeWhole (significand * 10 + digit) digits
    else (significand, digits.length + 1)

/-- Append the digits after the point to a significand as long as it fits 64 bits. The second
component counts the digits taken, and those after them are ignored. -/
def takeFraction (significand : Nat) : List Nat → Nat × Nat
  | [] => (significand, 0)
  | digit :: digits =>
    if significand * 10 + digit < wordLimit then
      let (result, count) := takeFraction (significand * 10 + digit) digits
      (result, count + 1)
    else (significand, 0)

/-- An integer literal that fits 64 bits is that integer, except for a negative zero, which is a
binary64 number like all the rest. -/
def value? (literal : NumberLiteral) : Option Number :=
  let (whole, dropped) := takeWhole 0 literal.whole
  if literal.fraction = none ∧ literal.exponent = none ∧ dropped = 0 then
    if !literal.negative then some (.int whole)
    else if 0 < whole ∧ whole ≤ Nat.pow 2 63 then some (.int (-whole))
    else (Binary64.ofNat whole).map fun x => .float (x.withSign true)
  else
    let (significand, taken) := takeFraction whole (literal.fraction.getD [])
    let written : Int := match literal.exponent with
      | none => 0
      | some (negative, digits) =>
        let magnitude : Int := Text.ofDigits 10 digits
        if negative then -magnitude else magnitude
    (Binary64.ofParts significand (dropped - taken + written)).map fun x =>
      .float (x.withSign literal.negative)

end NumberLiteral

namespace StringPiece

/-- The number is that of the first half of a surrogate pair. -/
def isHigh (code : Nat) : Bool := 0xD800 ≤ code && code < 0xDC00

/-- The number is that of the second half of a surrogate pair. -/
def isLow (code : Nat) : Bool := 0xDC00 ≤ code && code < 0xE000

/-- The characters that the pieces name. Two units that form a surrogate pair are one character,
and half of a pair names none. -/
def characters? : List StringPiece → Option (List Char)
  | [] => some []
  | .plain c :: rest => (characters? rest).map (c :: ·)
  | .unit high :: .unit low :: rest =>
    if isHigh high then
      if isLow low then
        (characters? rest).map
          (Char.ofNat (0x10000 + (high - 0xD800) * 0x400 + (low - 0xDC00)) :: ·)
      else none
    else if isLow high then none
    else (characters? (.unit low :: rest)).map (Char.ofNat high :: ·)
  | .unit code :: rest =>
    if isHigh code || isLow code then none
    else (characters? rest).map (Char.ofNat code :: ·)

/-- The text that the pieces name. -/
def text? (pieces : List StringPiece) : Option String := (characters? pieces).map String.ofList

end StringPiece

namespace Written

/-- Arrays and objects of a value may stand this deep. -/
def depthLimit : Nat := 127

mutual

/-- The value of a tree in which arrays and objects stand at most `depth` deep. Of several members
with one key the last one counts. -/
def value? (depth : Nat) : Written → Option Json
  | .null => some .null
  | .bool value => some (.bool value)
  | .number literal => literal.value?.map .number
  | .string pieces => (StringPiece.text? pieces).map .string
  | .array items => if depth = 0 then none else (itemValues? (depth - 1) items).map .array
  | .object members =>
    if depth = 0 then none
    else (memberValues? (depth - 1) members).map Json.ofMembers

/-- The values of the items of an array. -/
def itemValues? (depth : Nat) : List Written → Option (List Json)
  | [] => some []
  | item :: items => do
    let value ← value? depth item
    let values ← itemValues? depth items
    some (value :: values)

/-- The keys and values of the members of an object. -/
def memberValues? (depth : Nat) : List (List StringPiece × Written) →
    Option (List (String × Json))
  | [] => some []
  | (key, member) :: members => do
    let key ← StringPiece.text? key
    let value ← value? depth member
    let values ← memberValues? depth members
    some ((key, value) :: values)

end

end Written

end ApiCatalog
