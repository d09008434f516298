import ApiCatalog.Text.Digits
import ApiCatalog.Text.Extending

/-!
# Quoted paths

Messages name a file by its path in quotes. Inside the quotes, what could be taken for something
else is escaped: quotes and backslashes, control characters, and characters that would be displayed
with the one before them or not at all.
-/

namespace ApiCatalog.Text

/-- A character inside quotes. -/
def quotedChar (c : Char) : List Char :=
  if c = '"' ∨ c = '\\' then ['\\', c]
  else if c = '\x00' then ['\\', '0']
  else if c = '\t' then ['\\', 't']
  else if c = '\r' then ['\\', 'r']
  else if c = '\n' then ['\\', 'n']
  else if c < ' ' ∨ c.toNat = 0x7F ∨ isExtending c ∨ isIgnorable c then
    '\\' :: 'u' :: '{' :: digitsIn 16 c.toNat ++ ['}']
  else [c]

/-- A path in quotes. -/
def quoted (path : String) : String :=
  String.ofList ('"' :: path.toList.flatMap quotedChar ++ ['"'])

end ApiCatalog.Text
