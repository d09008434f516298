import ApiCatalog.Json.Basic
import ApiCatalog.Json.Decimal

/-!
# Writing JSON texts

`Json.compact` writes a value without any blanks, `Json.pretty` over several lines, two spaces to
a level. Strings are quoted by `quote`, which escapes quotes, backslashes and control characters
and leaves all else as it is.
-/

namespace ApiCatalog.Json

/-- A number is written in full from `0.00001` up to below `1e+16`. -/
def numberLayout : NumberLayout where
  positionalFrom := -5
  positionalBelow := 16

/-- A character inside quotes. -/
def escape (c : Char) : List Char :=
  if c = '"' then ['\\', '"']
  else if c = '\\' then ['\\', '\\']
  else if c = '\n' then ['\\', 'n']
  else if c = '\r' then ['\\', 'r']
  else if c = '\t' then ['\\', 't']
  else if c = '\x08' then ['\\', 'b']
  else if c = '\x0c' then ['\\', 'f']
  else if c < ' ' then
    ['\\', 'u', '0', '0', Text.digitChar (c.toNat / 16), Text.digitChar (c.toNat % 16)]
  else [c]

/-- A text in quotes. -/
def quote (text : String) : List Char := '"' :: text.toList.flatMap escape ++ ['"']

/-- A number: an integer in base ten, any other number with a point or an exponent. -/
def writeNumber : Number → List Char
  | .int value => Text.integerDigits value
  | .float value => numberLayout.write value

mutual

/-- A value without blanks. -/
def write : Json → List Char
  | .null => ['n', 'u', 'l', 'l']
  | .bool true => ['t', 'r', 'u', 'e']
  | .bool false => ['f', 'a', 'l', 's', 'e']
  | .number value => writeNumber value
  | .string value => quote value
  | .array items => '[' :: writeItems items ++ [']']
  | .object members => '{' :: writeMembers members ++ ['}']

/-- Items with commas between them. -/
def writeItems : List Json → List Char
  | [] => []
  | [item] => write item
  | item :: items => write item ++ ',' :: writeItems items

/-- Members with commas between them. -/
def writeMembers : List (String × Json) → List Char
  | [] => []
  | [(key, member)] => quote key ++ ':' :: write member
  | (key, member) :: members => quote key ++ ':' :: write member ++ ',' :: writeMembers members

end

/-- The text of a value without blanks. -/
def compact (value : Json) : String := String.ofList value.write

/-- A new line that is indented to a level. -/
def newLine (level : Nat) : List Char := '\n' :: List.replicate (2 * level) ' '

mutual

/-- A value over several lines, of which all but the first are indented to a level or deeper. -/
def layOut (level : Nat) : Json → List Char
  | .array [] => ['[', ']']
  | .array items => '[' :: layOutItems (level + 1) items ++ newLine level ++ [']']
  | .object [] => ['{', '}']
  | .object members => '{' :: layOutMembers (level + 1) members ++ newLine level ++ ['}']
  | .null => ['n', 'u', 'l', 'l']
  | .bool true => ['t', 'r', 'u', 'e']
  | .bool false => ['f', 'a', 'l', 's', 'e']
  | .number value => writeNumber value
  | .string value => quote value

/-- Items, each on lines of its own. -/
def layOutItems (level : Nat) : List Json → List Char
  | [] => []
  | [item] => newLine level ++ layOut level item
  | item :: items => newLine level ++ layOut level item ++ ',' :: layOutItems level items

/-- Members, each on lines of its own. -/
def layOutMembers (level : Nat) : List (String × Json) → List Char
  | [] => []
  | [(key, member)] => newLine level ++ quote key ++ ':' :: ' ' :: layOut level member
  | (key, member) :: members =>
    newLine level ++ quote key ++ ':' :: ' ' :: layOut level member ++
      ',' :: layOutMembers level members

end

/-- The text of a value over several lines. -/
def pretty (value : Json) : String := String.ofList (value.layOut 0)

end ApiCatalog.Json
