import ApiCatalog.Yaml.Resolution

/-!
# Texts in YAML

A text is written plain where that is possible, else in single quotes, else in double quotes; a
text of several lines is written as a block of lines. `Style.of` chooses among these, and
`writeScalar` writes. Continuation lines are indented by `blockIndent`.
-/

namespace ApiCatalog.Yaml

/-- How a text is written. -/
inductive Style where
  | plain
  | singleQuoted
  | doubleQuoted
  | literal
deriving DecidableEq, Repr

/-- The character ends a line. -/
def isBreak (c : Char) : Bool :=
  c = '\n' || c = '\r' || c = '\u0085' || c = '\u2028' || c = '\u2029'

/-- The character separates words. -/
def isSeparator (c : Char) : Bool := c = ' ' || c = '\t' || c = '\x00' || isBreak c

/-- The character can be written as it is. -/
def isPrintable (c : Char) : Bool :=
  let n := c.toNat
  c = '\n' || (0x20 ≤ n && n ≤ 0x7E) || (0xA0 ≤ n && n < 0xFFFE && n ≠ 0xFEFF) || 0x10000 ≤ n

/-- A character of one class is followed by one of another class somewhere in the text. -/
def hasPair (first second : Char → Bool) : List Char → Bool
  | [] => false
  | [_] => false
  | c :: d :: rest => (first c && second d) || hasPair first second (d :: rest)

/-- The text begins with a separator or is at its end. -/
def atSeparator : List Char → Bool
  | [] => true
  | c :: _ => isSeparator c

/-- The characters that mean something of their own at the start of a text. -/
def indicators : List Char :=
  [',', '[', ']', '{', '}', '#', '&', '*', '!', '|', '>', '\'', '"', '%', '@', '\x60']

/-- The characters that mean something of their own at the start of a text and before a
separator. -/
def looseIndicators : List Char := ['-', '?', ':']

/-- A colon before a separator, or a number sign behind one, somewhere in the text behind a
character. -/
def hasInnerIndicator (previous : Char) : List Char → Bool
  | [] => false
  | c :: rest =>
    (c = ':' && atSeparator rest) || (c = '#' && isSeparator previous) ||
      hasInnerIndicator c rest

/-- Something in the text would be taken for more than text if it was not quoted. -/
def hasIndicator : List Char → Bool
  | [] => false
  | c :: rest =>
    "---".toList.isPrefixOf (c :: rest) || "...".toList.isPrefixOf (c :: rest) ||
      c ∈ indicators || (c ∈ looseIndicators && atSeparator rest) || hasInnerIndicator c rest

/-- A break or a space stands at one of the ends of the text. -/
def hasLooseEnd (text : List Char) : Bool :=
  (text.head?.toList ++ text.getLast?.toList).any fun c => c = ' ' || isBreak c

/-- Only double quotes keep the text: some character must be escaped, or a line would end in a
space. -/
def needsEscapes (text : List Char) : Bool :=
  text.any (!isPrintable ·) || hasPair (· = ' ') isBreak text

/-- The text can stand without quotes. -/
def allowsPlain (text : List Char) : Bool :=
  !needsEscapes text && !text.any isBreak && !hasLooseEnd text && !hasIndicator text

/-- The text can stand in single quotes. -/
def allowsSingleQuotes (text : List Char) : Bool :=
  !needsEscapes text && !hasPair isBreak (· = ' ') text

/-- The text can stand as a block of lines. -/
def allowsLiteral (text : List Char) : Bool :=
  !needsEscapes text && text.getLast? ≠ some ' '

/-- The way in which a text is written. -/
def Style.of (text : String) : Style :=
  let characters := text.toList
  if '\n' ∈ characters then
    if allowsLiteral characters then .literal else .doubleQuoted
  else if !isResolved text && allowsPlain characters then .plain
  else if allowsSingleQuotes characters then .singleQuoted
  else .doubleQuoted

/-- How far the lines of a text are indented. -/
def blockIndent : List Char := List.replicate 4 ' '

/-- The text between single quotes. A quote is written twice, and what follows a break is
indented. -/
def quoteSingle : List Char → List Char
  | [] => []
  | c :: rest =>
    if c = '\'' then c :: c :: quoteSingle rest
    else if isBreak c ∧ !(rest.head?.any isBreak) then c :: blockIndent ++ quoteSingle rest
    else c :: quoteSingle rest

/-- A number in base sixteen with a number of digits, in upper case. -/
def hexDigits : (count : Nat) → Nat → List Char
  | 0, _ => []
  | count + 1, n => hexDigits count (n / 16) ++ [(Text.digitChar (n % 16)).toUpper]

/-- The letters that name characters behind a backslash. -/
def namedEscape? : Char → Option Char
  | '"' => some '"'
  | '\\' => some '\\'
  | '\x00' => some '0'
  | '\x07' => some 'a'
  | '\x08' => some 'b'
  | '\t' => some 't'
  | '\n' => some 'n'
  | '\x0b' => some 'v'
  | '\x0c' => some 'f'
  | '\r' => some 'r'
  | '\x1b' => some 'e'
  | '\u0085' => some 'N'
  | '\u2028' => some 'L'
  | '\u2029' => some 'P'
  | _ => none

/-- A character between double quotes. -/
def escapeDouble (c : Char) : List Char :=
  match namedEscape? c with
  | some letter => ['\\', letter]
  | none =>
    if isPrintable c then [c]
    else if c.toNat < 0x100 then '\\' :: 'x' :: hexDigits 2 c.toNat
    else if c.toNat < 0x10000 then '\\' :: 'u' :: hexDigits 4 c.toNat
    else '\\' :: 'U' :: hexDigits 8 c.toNat

/-- The lines of a block. Those that are not empty are indented; `fresh` says whether a line begins
here. -/
def indentLines (fresh : Bool) : List Char → List Char
  | [] => []
  | c :: rest =>
    if isBreak c then c :: indentLines true rest
    else if fresh then blockIndent ++ c :: indentLines false rest
    else c :: indentLines false rest

/-- What follows the mark of a block: how far it is indented, where its first line does not show
that, and whether the text ends with no break, one break or several. -/
def blockHints (text : List Char) : List Char :=
  let indentation := if text.head?.any fun c => c = ' ' || isBreak c then ['2'] else []
  let ending := match text.reverse with
    | [] => ['-']
    | last :: before =>
      if !isBreak last then ['-']
      else match before with
        | [] => ['+']
        | c :: _ => if isBreak c then ['+'] else []
  indentation ++ ending

/-- A text. -/
def writeScalar (text : String) : List Char :=
  let characters := text.toList
  match Style.of text with
  | .plain => characters
  | .singleQuoted => '\'' :: quoteSingle characters ++ ['\'']
  | .doubleQuoted => '"' :: characters.flatMap escapeDouble ++ ['"']
  | .literal => '|' :: blockHints characters ++ '\n' :: indentLines true characters

end ApiCatalog.Yaml
