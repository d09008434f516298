import ApiCatalog.Text.Columns
import ApiCatalog.Text.Emoji

/-!
# Ligatures

In some scripts letters merge with what stands before them, so that together they take up less room
than each by itself. A text is read from its end for this: a `Ligature` is the later part of one,
and `Ligature.before?` says what a character before it adds.
-/

namespace ApiCatalog.Text

/-- The later part of a ligature. Some ligatures need a joiner: `joined` is true when it has been
read. -/
inductive Ligature where
  /-- The Arabic letter alef, which merges with a lam. -/
  | alef
  /-- The Hebrew letter lamed, which a joiner merges with an alef. -/
  | lamed (joined : Bool)
  /-- A Khmer letter, which is put below the one before it by the sign coeng. -/
  | khmer
  /-- The Buginese letter ya, which a joiner merges with a vowel and a letter. -/
  | ya (joined : Bool)
  /-- The vowel of a Buginese ligature. -/
  | yaVowel
  /-- A Tifinagh consonant, which a joiner merges with another. -/
  | tifinagh (joined : Bool)
  /-- A Tifinagh consonant with the sign that joins consonants. -/
  | tifinaghJoined
  /-- One of the Lisu tones that merge with another. -/
  | lisuTone
  /-- The Old Turkic letter i, which a joiner merges with an nt. -/
  | turkicI (joined : Bool)
  /-- The Kirat Rai vowel e, which is a part of other vowels. -/
  | kiratE
  /-- The Kirat Rai vowel ai, which is a part of another vowel. -/
  | kiratAi
deriving DecidableEq, Repr

/-- Ranges of extending characters that take up room next to the character before them, or part it
from the next. -/
def spacing : List (Nat × Nat) :=
  [(0x9BE, 0x9BE), (0x9D7, 0x9D7), (0xB3E, 0xB3E), (0xB57, 0xB57), (0xBBE, 0xBBE),
   (0xBD7, 0xBD7), (0xCC0, 0xCC0), (0xCC2, 0xCC2), (0xCC7, 0xCC8), (0xCCA, 0xCCB),
   (0xCD5, 0xCD6), (0xD3E, 0xD3E), (0xD57, 0xD57), (0xDCF, 0xDCF), (0xDDF, 0xDDF),
   (0x1715, 0x1715), (0x1734, 0x1734), (0x1B35, 0x1B35), (0x1B3B, 0x1B3B), (0x1B3D, 0x1B3D),
   (0x1B43, 0x1B44), (0x1BAA, 0x1BAA), (0x1BF2, 0x1BF3), (0x200C, 0x200C), (0x2D7F, 0x2D7F),
   (0x302E, 0x302F), (0xA953, 0xA953), (0xA9C0, 0xA9C0), (0x111C0, 0x111C0), (0x11235, 0x11235),
   (0x1133E, 0x1133E), (0x1134D, 0x1134D), (0x11357, 0x11357), (0x113B8, 0x113B8),
   (0x113C2, 0x113C2), (0x113C5, 0x113C5), (0x113C7, 0x113C9), (0x113CF, 0x113CF),
   (0x114B0, 0x114B0), (0x114BD, 0x114BD), (0x115AF, 0x115AF), (0x116B6, 0x116B6),
   (0x11930, 0x11930), (0x1193D, 0x1193D), (0x11F41, 0x11F41), (0x16FF0, 0x16FF1),
   (0x1D165, 0x1D166), (0x1D16D, 0x1D172)]

/-- Ranges of ignorable characters that steer the layout. -/
def steering : List (Nat × Nat) :=
  [(0xAD, 0xAD), (0x61C, 0x61C), (0x70F, 0x70F), (0x200B, 0x200B), (0x200E, 0x200F),
   (0x202A, 0x202E), (0x2060, 0x2064), (0x206A, 0x206F), (0xFEFF, 0xFEFF), (0x1BCA0, 0x1BCA3),
   (0x1D173, 0x1D17A), (0xE0001, 0xE0001)]

/-- Arabic letters join across the character as if it was not there. -/
def isTransparent (c : Char) : Bool :=
  isExtending c && !inRanges c spacing || inRanges c steering

/-- The character is an invisible mark, which has no effect on a ligature. -/
def isInvisibleMark (c : Char) : Bool :=
  inRanges c [(0x34F, 0x34F), (0x17B4, 0x17B5), (0x180B, 0x180D), (0x180F, 0x180F),
    (0xFE00, 0xFE0F), (0xE0100, 0xE01EF)]

/-- The character is one of the Arabic letters lam. -/
def isLam (c : Char) : Bool :=
  inRanges c [(0x644, 0x644), (0x6B5, 0x6B8), (0x76A, 0x76A), (0x8A6, 0x8A6), (0x8C7, 0x8C7)]

/-- The character is one of the Arabic letters alef. -/
def isAlef (c : Char) : Bool :=
  inRanges c [(0x622, 0x623), (0x625, 0x625), (0x627, 0x627), (0x671, 0x673), (0x675, 0x675),
    (0x773, 0x774), (0x870, 0x882)]

/-- The character is a Khmer letter that can be put below another one. -/
def isKhmerLetter (c : Char) : Bool :=
  inRanges c [(0x1780, 0x1782), (0x1784, 0x1787), (0x1789, 0x178C), (0x178E, 0x1793),
    (0x1795, 0x1798), (0x179B, 0x179D), (0x17A0, 0x17A0), (0x17A2, 0x17A2), (0x17A7, 0x17A7),
    (0x17AB, 0x17AC), (0x17AF, 0x17AF)]

/-- The character is a Tifinagh consonant. -/
def isTifinagh (c : Char) : Bool := inRanges c [(0x2D31, 0x2D65), (0x2D6F, 0x2D6F)]

namespace Ligature

/-- The later part of a ligature that a character is by itself. -/
def ofChar? (c : Char) : Option Ligature :=
  if isAlef c then some .alef
  else if c = '\u05DC' then some (.lamed false)
  else if isKhmerLetter c then some .khmer
  else if c = '\u1A10' then some (.ya false)
  else if isTifinagh c then some (.tifinagh false)
  else if inRanges c [(0xA4FC, 0xA4FD)] then some .lisuTone
  else if c = Char.ofNat 0x10C03 then some (.turkicI false)
  else if c = Char.ofNat 0x16D67 then some .kiratE
  else if c = Char.ofNat 0x16D68 then some .kiratAi
  else none

/-- What is read when a joiner stands before the rest of a ligature. -/
def join : Ligature → Ligature
  | lamed _ => lamed true
  | ya _ => ya true
  | tifinagh _ => tifinagh true
  | turkicI _ => turkicI true
  | part => part

/-- What a character adds to the columns when it merges with what is read of a ligature, and the
ligature that may go on before it. -/
def merge? : Ligature → Char → Option (Int × Option Ligature)
  | alef, c => if isLam c then some (0, none) else none
  | lamed joined, c => if joined ∧ c = '\u05D0' then some (0, none) else none
  | khmer, c => if c = '\u17D2' then some (-1, none) else none
  | ya joined, c => if joined ∧ c = '\u1A17' then some (0, some yaVowel) else none
  | yaVowel, c => if c = '\u1A15' then some (0, none) else none
  | tifinagh joined, c =>
    if c = consonantJoiner then some (1, some tifinaghJoined)
    else if joined ∧ isTifinagh c then some (0, none)
    else none
  | tifinaghJoined, c => if isTifinagh c then some (-1, none) else none
  | lisuTone, c => if inRanges c [(0xA4F8, 0xA4FB)] then some (0, none) else none
  | turkicI joined, c => if joined ∧ c = Char.ofNat 0x10C32 then some (0, none) else none
  | kiratE, c =>
    if c = Char.ofNat 0x16D67 then some (0, some kiratAi)
    else if c = Char.ofNat 0x16D63 ∨ c = Char.ofNat 0x16D69 then some (0, none)
    else none
  | kiratAi, c => if c = Char.ofNat 0x16D63 then some (0, none) else none

/-- The character may stand inside the ligature. A joiner is read as such by all but the Arabic
one. -/
def admits (part : Ligature) (c : Char) : Bool :=
  if part = alef then isTransparent c else c = joiner || isInvisibleMark c

/-- What a character adds to the columns when it stands before a part of a ligature, and what is
read of the ligature then. -/
def before? (part : Ligature) (c : Char) : Option (Int × Option Ligature) :=
  if part.admits c then some (0, some (if c = joiner then part.join else part))
  else part.merge? c

end Ligature

end ApiCatalog.Text
