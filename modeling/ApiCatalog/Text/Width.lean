import ApiCatalog.Text.Ligature

/-!
# Display widths

A text takes up as many columns on a display as its characters do together, but characters that are
displayed as one count as one: emoji of several characters, flags, and ligatures. A text is read
from its end, and what a character adds depends on its `Context`, that is on what stands after it.
`width` is the sum.
-/

namespace ApiCatalog.Text

/-- What stands after a character, as far as it can be displayed together with it. -/
inductive Follower where
  /-- Nothing that matters. -/
  | other
  /-- The later part of a ligature. -/
  | ligature (part : Ligature)
  /-- A picture. -/
  | picture
  /-- A skin tone. -/
  | skinTone
  /-- A flag letter. -/
  | flagLetter
  /-- Several flag letters. -/
  | flagLetters
  /-- A joiner and a picture. -/
  | joinedPicture
  /-- The sign for a key, a joiner and a picture. -/
  | joinedKey
  /-- A flag letter, a joiner and a picture. -/
  | joinedLetter
  /-- Several flag letters, an even or odd number, a joiner and a picture. -/
  | joinedLetters (even : Bool)
  /-- The last letters of a row of tags and the digits before them, the end of the row, a joiner and
  a picture. -/
  | tags (letters digits : Nat)
deriving DecidableEq, Repr

/-- A sign that chooses a style for the character before it. -/
inductive StyleSign where
  | text
  | emoji
  | wideQuote
deriving DecidableEq, Repr

namespace StyleSign

/-- The style that a character chooses. -/
def ofChar? (c : Char) : Option StyleSign :=
  if c = emojiStyleSign then some emoji
  else if c = textStyleSign then some text
  else if c = '\uFE01' then some wideQuote
  else none

/-- The columns of a character in a style, if it has the style. -/
def columns? : StyleSign → Char → Option Nat
  | text, c => if takesTextStyle c then some 1 else none
  | emoji, c => if takesEmojiStyle c then some 2 else none
  | wideQuote, c => if inRanges c [(0x2018, 0x2019), (0x201C, 0x201D)] then some 2 else none

end StyleSign

namespace Follower

/-- What a character is for the one before it, by itself. -/
def ofChar (c : Char) : Follower :=
  if isFlagLetter c then flagLetter
  else if isSkinTone c then skinTone
  else if isPicture c then picture
  else match Ligature.ofChar? c with
    | some part => ligature part
    | none => other

/-- What is left of it when something stands before it that is only displayed inside a ligature. -/
def onlyLigature : Follower → Follower
  | ligature part => ligature part
  | _ => other

/-- What is left of it when a sign for a style stands before it. A picture can be joined to a
character that becomes one by the sign. -/
def afterSign : StyleSign → Follower → Follower
  | .emoji, joinedPicture => joinedPicture
  | .emoji, joinedKey => joinedKey
  | _, follower => follower.onlyLigature

/-- A picture before it becomes part of the picture that it ends with. -/
def isJoined : Follower → Bool
  | joinedPicture | joinedKey => true
  | _ => false

/-- What a character adds to the columns before a picture to which it is joined. -/
def joinPicture? (c : Char) : Option (Int × Follower) :=
  if c = keySign then some (0, joinedKey)
  else if isFlagLetter c then some (1, joinedLetter)
  else if isSkinTone c then some (0, skinTone)
  else if c = tagEnd then some (0, tags 0 0)
  else if isPicture c then some (0, picture)
  else none

/-- What a character adds to the columns before a row of tags. A row has three to six letters, or
three digits and then up to four letters. -/
def joinTags? (letters digits : Nat) (c : Char) : Option (Int × Follower) :=
  if isTagLetter c ∧ letters < 6 ∧ digits = 0 then some (0, tags (letters + 1) 0)
  else if isTagDigit c ∧ letters ≤ 4 ∧ digits < 3 then some (0, tags letters (digits + 1))
  else if c = tagFlag ∧ (digits = 3 ∨ digits = 0 ∧ 3 ≤ letters) then some (0, picture)
  else none

/-- What a character adds to the columns when it is displayed together with what stands after it,
and what both are for the character before them. Flag letters are taken in pairs from the first
one, so another letter before an even number of them splits all pairs. -/
def before? : Follower → Char → Option (Int × Follower)
  | other, _ => none
  | ligature part, c =>
    (part.before? c).map fun (columns, part) => (columns, (part.map ligature).getD other)
  | picture, c => if c = joiner then some (0, joinedPicture) else none
  | skinTone, c =>
    if isPerson c then some (0, picture)
    else if c = joiner then some (0, joinedPicture)
    else none
  | flagLetter, c => if isFlagLetter c then some (1, flagLetters) else none
  | flagLetters, c =>
    if isFlagLetter c then some (1, flagLetters)
    else if c = joiner then some (0, joinedPicture)
    else none
  | joinedPicture, c => joinPicture? c
  | joinedKey, _ => none
  | joinedLetter, c => if isFlagLetter c then some (-1, joinedLetters true) else none
  | joinedLetters even, c =>
    if isFlagLetter c then some (if even then 3 else -1, joinedLetters (!even))
    else if c = joiner then some (0, joinedPicture)
    else none
  | tags letters digits, c => joinTags? letters digits c

end Follower

/-- What stands after a character: perhaps a sign for its style, and then something else. -/
structure Context where
  sign : Option StyleSign := none
  follower : Follower := .other
deriving DecidableEq, Repr

namespace Context

/-- What is left of the context of a character that does not have the style of the sign. -/
def withoutSign (next : Context) : Follower :=
  if next.sign.isSome then next.follower.onlyLigature else next.follower

/-- What a character by itself adds to the columns, and the context that it makes. -/
def alone (c : Char) : Int × Context :=
  (if isFlagLetter c then 1 else charWidth c, { follower := .ofChar c })

/-- What a character without a style of its own adds to the columns, and the context that it
makes. -/
def plain (follower : Follower) (c : Char) : Int × Context :=
  match StyleSign.ofChar? c with
  | some sign => (0, { sign := some sign, follower := follower.afterSign sign })
  | none =>
    match follower.before? c with
    | some (columns, follower) => (columns, { follower })
    | none => alone c

/-- What a character adds to the columns before a context, and the context that both make. -/
def before (next : Context) (c : Char) : Int × Context :=
  match next.sign.bind fun sign => sign.columns? c with
  | some columns =>
    if next.sign = some .emoji then
      (if next.follower.isJoined then 0 else columns, { follower := .picture })
    else (columns, {})
  | none => if c.toNat ≤ 0xA0 then (1, {}) else plain next.withoutSign c

end Context

/-- Read one more character, towards the beginning of a text. -/
def readBefore (c : Char) (read : Int × Context) : Int × Context :=
  let (columns, context) := read.2.before c
  (read.1 + columns, context)

/-- The number of columns that a list of characters takes up. -/
def width (text : List Char) : Nat := (text.foldr readBefore (0, {})).1.toNat

end ApiCatalog.Text
