import ApiCatalog.Json.Written
import ApiCatalog.Text.Digits

/-!
# Reading JSON texts

`Written.read` takes a text to the tree of what is written in it, or to nothing if the text is not
exactly one JSON value with blanks around it. `Json.read` gives the value of that tree, and
`Written.readBytes` reads a text that is given by its bytes. The scanners below work on the
characters that remain and return those behind what they have read.
Arrays and objects nest, so the reader of a value carries a bound on the steps it may take, which
`Written.read` computes from the length of the text.
-/

namespace ApiCatalog.Written

/-- The characters that may stand between the parts of a JSON text. -/
def isBlank (c : Char) : Bool := c = ' ' || c = '\n' || c = '\t' || c = '\r'

/-- The characters after any blanks. -/
def skipBlanks (text : List Char) : List Char := text.dropWhile isBlank

/-- The digits before the point: a single zero, or digits that do not begin with one. -/
def scanWhole (text : List Char) : Option (List Nat × List Char) :=
  match Text.leadingDigits text with
  | ([], _) => none
  | (0 :: _ :: _, _) => none
  | scanned => some scanned

/-- A point with at least one digit after it, if there is a point. -/
def scanFraction : List Char → Option (Option (List Nat) × List Char)
  | '.' :: text =>
    match Text.leadingDigits text with
    | ([], _) => none
    | (digits, rest) => some (some digits, rest)
  | text => some (none, text)

/-- The digits of an exponent, at least one, behind its sign. -/
def scanExponentDigits (negative : Bool) (text : List Char) :
    Option (Option (Bool × List Nat) × List Char) :=
  match Text.leadingDigits text with
  | ([], _) => none
  | (digits, rest) => some (some (negative, digits), rest)

/-- An exponent, if its mark stands here. -/
def scanExponent : List Char → Option (Option (Bool × List Nat) × List Char)
  | c :: text =>
    if c = 'e' ∨ c = 'E' then
      match text with
      | '+' :: text => scanExponentDigits false text
      | '-' :: text => scanExponentDigits true text
      | text => scanExponentDigits false text
    else some (none, c :: text)
  | [] => some (none, [])

/-- A number behind its sign. -/
def scanUnsigned (negative : Bool) (text : List Char) : Option (NumberLiteral × List Char) := do
  let (whole, text) ← scanWhole text
  let (fraction, text) ← scanFraction text
  let (exponent, text) ← scanExponent text
  some (⟨negative, whole, fraction, exponent⟩, text)

/-- A number. -/
def scanNumber : List Char → Option (NumberLiteral × List Char)
  | '-' :: text => scanUnsigned true text
  | text => scanUnsigned false text

/-- The character that a one-letter escape names. -/
def escaped? : Char → Option Char
  | '"' => some '"'
  | '\\' => some '\\'
  | '/' => some '/'
  | 'b' => some '\x08'
  | 'f' => some '\x0c'
  | 'n' => some '\n'
  | 'r' => some '\r'
  | 't' => some '\t'
  | _ => none

/-- The UTF-16 unit that four hexadecimal digits name. -/
def unit? (a b c d : Char) : Option Nat := do
  let a ← Text.hexDigit? a
  let b ← Text.hexDigit? b
  let c ← Text.hexDigit? c
  let d ← Text.hexDigit? d
  some (((a * 16 + b) * 16 + c) * 16 + d)

/-- The pieces of a string behind its opening quote, and what follows its closing quote. Control
characters must be escaped. -/
def scanString : List Char → Option (List StringPiece × List Char)
  | [] => none
  | '"' :: rest => some ([], rest)
  | '\\' :: 'u' :: a :: b :: c :: d :: rest => do
    let code ← unit? a b c d
    let (pieces, rest) ← scanString rest
    some (.unit code :: pieces, rest)
  | '\\' :: letter :: rest => do
    let c ← escaped? letter
    let (pieces, rest) ← scanString rest
    some (.plain c :: pieces, rest)
  | c :: rest =>
    if c = '\\' ∨ c < ' ' then none
    else do
      let (pieces, rest) ← scanString rest
      some (.plain c :: pieces, rest)

mutual

/-- A value and what follows it, within a number of steps. -/
def scanValue : Nat → List Char → Option (Written × List Char)
  | 0, _ => none
  | steps + 1, text =>
    match skipBlanks text with
    | 'n' :: 'u' :: 'l' :: 'l' :: rest => some (.null, rest)
    | 't' :: 'r' :: 'u' :: 'e' :: rest => some (.bool true, rest)
    | 'f' :: 'a' :: 'l' :: 's' :: 'e' :: rest => some (.bool false, rest)
    | '"' :: rest => (scanString rest).map fun (pieces, rest) => (.string pieces, rest)
    | '[' :: rest =>
      match skipBlanks rest with
      | ']' :: rest => some (.array [], rest)
      | rest => (scanItems steps rest).map fun (items, rest) => (.array items, rest)
    | '{' :: rest =>
      match skipBlanks rest with
      | '}' :: rest => some (.object [], rest)
      | rest => (scanMembers steps rest).map fun (members, rest) => (.object members, rest)
    | rest => (scanNumber rest).map fun (literal, rest) => (.number literal, rest)

/-- The items of an array, at least one, and what follows its closing bracket. -/
def scanItems : Nat → List Char → Option (List Written × List Char)
  | 0, _ => none
  | steps + 1, text => do
    let (item, rest) ← scanValue steps text
    match skipBlanks rest with
    | ',' :: rest => (scanItems steps rest).map fun (items, rest) => (item :: items, rest)
    | ']' :: rest => some ([item], rest)
    | _ => none

/-- The members of an object, at least one, and what follows its closing brace. -/
def scanMembers : Nat → List Char → Option (List (List StringPiece × Written) × List Char)
  | 0, _ => none
  | steps + 1, text =>
    match skipBlanks text with
    | '"' :: rest => do
      let (key, rest) ← scanString rest
      match skipBlanks rest with
      | ':' :: rest => do
        let (member, rest) ← scanValue steps rest
        match skipBlanks rest with
        | ',' :: rest =>
          (scanMembers steps rest).map fun (members, rest) => ((key, member) :: members, rest)
        | '}' :: rest => some ([(key, member)], rest)
        | _ => none
      | _ => none
    | _ => none

end

/-- The tree of a text that is exactly one JSON value with blanks around it. Each step of the
scanners but the first is paid for by half a character. -/
def read (text : String) : Option Written :=
  match scanValue (2 * text.toList.length + 2) text.toList with
  | some (written, rest) => if skipBlanks rest = [] then some written else none
  | none => none

/-- What a byte that belongs to no character is read as. A string with it can be passed over, but it
names no text, and it can stand nowhere else. -/
def strayByte : List Char := ['x', '\\', 'u', 'd', 'c', '0', '0']

/-- The characters that bytes spell, from a position on. -/
def charactersFrom (content : ByteArray) (position : Nat) : List Char :=
  if position < content.size then
    match content.utf8DecodeChar? position with
    | some c => c :: charactersFrom content (position + c.utf8Size)
    | none => strayByte ++ charactersFrom content (position + 1)
  else []
termination_by content.size - position
decreasing_by
  all_goals
    have := Char.utf8Size_pos
    grind

/-- The tree of a text that is given by its bytes. Those that belong to no character may stand in
strings that are passed over. -/
def readBytes (content : ByteArray) : Option Written :=
  match String.fromUTF8? content with
  | some text => read text
  | none => read (String.ofList (charactersFrom content 0))

end ApiCatalog.Written

namespace ApiCatalog.Json

/-- The value of a JSON text. -/
def read (text : String) : Option Json :=
  (Written.read text).bind (Written.value? Written.depthLimit)

end ApiCatalog.Json
