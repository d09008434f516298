/-!
# Digits

Numbers are written and read in base ten, and here and there in base two, eight or sixteen.
`digits` writes a number in a base up to sixteen, `digit?` reads one digit, `leadingDigits` reads as
many decimal digits as there are, and `ofDigits` puts digits together to a number.
-/

namespace ApiCatalog.Text

/-- The character of a digit below sixteen. -/
def digitChar (digit : Nat) : Char :=
  if digit < 10 then Char.ofNat ('0'.toNat + digit) else Char.ofNat ('a'.toNat + (digit - 10))

/-- A number in a base. -/
def digitsIn (base n : Nat) : List Char :=
  if n < base ∨ base < 2 then [digitChar n]
  else digitsIn base (n / base) ++ [digitChar (n % base)]
termination_by n
decreasing_by exact Nat.div_lt_self (by omega) (by omega)

/-- A number in base ten. -/
def digits (n : Nat) : List Char := digitsIn 10 n

/-- An integer in base ten, with a sign if it is negative. -/
def integerDigits : Int → List Char
  | .ofNat n => digits n
  | .negSucc n => '-' :: digits (n + 1)

/-- The value of a digit in base sixteen. -/
def hexDigit? (c : Char) : Option Nat :=
  if '0' ≤ c ∧ c ≤ '9' then some (c.toNat - '0'.toNat)
  else if 'a' ≤ c ∧ c ≤ 'f' then some (c.toNat - 'a'.toNat + 10)
  else if 'A' ≤ c ∧ c ≤ 'F' then some (c.toNat - 'A'.toNat + 10)
  else none

/-- The value of a digit in a base up to sixteen. -/
def digitIn? (base : Nat) (c : Char) : Option Nat := (hexDigit? c).filter (· < base)

/-- The value of a digit in base ten. -/
def digit? (c : Char) : Option Nat := digitIn? 10 c

/-- The decimal digits at the start of a text, and what follows them. -/
def leadingDigits : List Char → List Nat × List Char
  | [] => ([], [])
  | c :: rest =>
    match digit? c with
    | some digit => let (digits, rest) := leadingDigits rest; (digit :: digits, rest)
    | none => ([], c :: rest)

/-- The number that a list of digits names in a base. -/
def ofDigits (base : Nat) (digits : List Nat) : Nat :=
  digits.foldl (fun n digit => n * base + digit) 0

end ApiCatalog.Text
