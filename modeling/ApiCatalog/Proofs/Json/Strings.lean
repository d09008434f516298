import ApiCatalog.Json.Printer
import ApiCatalog.Json.Reader
import ApiCatalog.Proofs.Text.Digits

/-!
# Strings read back

Each character of a text is quoted so that it is read as one piece of a string (`scanString_escape`)
which names this character again. So a quoted text is read up to its closing quote
(`scanString_quoted`), and what is read names the text (`text?_map_of`).
-/

namespace ApiCatalog

/-- The control characters that are spelled by a letter. -/
def lettered : List Char := ['\n', '\r', '\t', '\x08', '\x0c']

/-- The piece by which a character is spelled inside quotes: control characters that have no letter
are given by their numbers. -/
def StringPiece.of (c : Char) : StringPiece :=
  if c < ' ' ∧ c ∉ lettered then .unit c.toNat else .plain c

namespace Written

variable {c : Char} (rest : List Char)

/-- A piece in front of the pieces of a string. -/
def addPiece (piece : StringPiece) (scanned : List StringPiece × List Char) :
    List StringPiece × List Char :=
  (piece :: scanned.1, scanned.2)

/-- A letter behind a backslash is read as the character that it stands for. -/
theorem scanString_letter {letter : Char} (hletter : letter ≠ 'u')
    (hescaped : escaped? letter = some c) :
    scanString ('\\' :: letter :: rest) = (scanString rest).map (addPiece (.plain c)) := by
  rw [scanString]
  · rw [hescaped]
    cases scanString rest <;> rfl
  · intro _ _ _ _ _ hu _
    exact hletter hu

/-- Two hexadecimal digits behind zeros are read as the number that they name. -/
theorem scanString_unit {code : Nat} (hcode : code < 256) :
    scanString ('\\' :: 'u' :: '0' :: '0' :: Text.digitChar (code / 16) ::
        Text.digitChar (code % 16) :: rest) =
      (scanString rest).map (addPiece (.unit code)) := by
  have hzero : Text.hexDigit? '0' = some 0 := by decide
  have hhigh := Text.hexDigit?_digitChar (code / 16) (by omega)
  have hlow := Text.hexDigit?_digitChar (code % 16) (by omega)
  have hunit : unit? '0' '0' (Text.digitChar (code / 16)) (Text.digitChar (code % 16)) =
      some code := by
    simp only [unit?, hzero, hhigh, hlow, Option.bind_eq_bind, Option.bind_some]
    congr 1
    omega
  rw [scanString, hunit]
  cases scanString rest <;> rfl

/-- A character that needs no backslash is read as itself. -/
theorem scanString_plain (hquote : c ≠ '"') (hslash : c ≠ '\\') (hcontrol : ¬ c < ' ') :
    scanString (c :: rest) = (scanString rest).map (addPiece (.plain c)) := by
  rw [scanString]
  · rw [if_neg (not_or.2 ⟨hslash, hcontrol⟩)]
    cases scanString rest <;> rfl
  · exact hquote
  · intro _ _ _ _ _ h _
    exact hslash h
  · intro _ _ h _
    exact hslash h

/-- A quoted character is read as one piece. -/
theorem scanString_escape (c : Char) (rest : List Char) :
    scanString (Json.escape c ++ rest) = (scanString rest).map (addPiece (.of c)) := by
  by_cases hquote : c = '"'
  · subst hquote
    exact scanString_letter rest (by decide) rfl
  by_cases hslash : c = '\\'
  · subst hslash
    exact scanString_letter rest (by decide) rfl
  by_cases hlettered : c ∈ lettered
  · have hpiece : StringPiece.of c = .plain c := if_neg fun h => h.2 hlettered
    rw [hpiece]
    simp only [lettered, List.mem_cons, List.not_mem_nil, or_false] at hlettered
    rcases hlettered with rfl | rfl | rfl | rfl | rfl
    all_goals exact scanString_letter rest (by decide) rfl
  · have hnone := hlettered
    simp only [lettered, List.mem_cons, List.not_mem_nil, or_false, not_or] at hnone
    obtain ⟨hn, hr, ht, hb, hf⟩ := hnone
    by_cases hcontrol : c < ' '
    · have hescape : Json.escape c = ['\\', 'u', '0', '0', Text.digitChar (c.toNat / 16),
          Text.digitChar (c.toNat % 16)] := by
        simp only [Json.escape, hquote, hslash, hn, hr, ht, hb, hf, hcontrol, if_false, if_true]
      have hpiece : StringPiece.of c = .unit c.toNat := if_pos ⟨hcontrol, hlettered⟩
      have hcode : c.toNat < 32 := hcontrol
      rw [hescape, hpiece]
      exact scanString_unit rest (by omega)
    · have hescape : Json.escape c = [c] := by
        simp only [Json.escape, hquote, hslash, hn, hr, ht, hb, hf, hcontrol, if_false]
      have hpiece : StringPiece.of c = .plain c := if_neg fun h => hcontrol h.1
      rw [hescape, hpiece]
      exact scanString_plain rest hquote hslash hcontrol

/-- A quoted text is read up to its closing quote. -/
theorem scanString_quoted (text rest : List Char) :
    scanString (text.flatMap Json.escape ++ '"' :: rest) =
      some (text.map StringPiece.of, rest) := by
  induction text with
  | nil => rw [List.flatMap_nil, List.nil_append, scanString, List.map_nil]
  | cons c text ih =>
      rw [List.flatMap_cons, List.append_assoc, scanString_escape, ih]
      rfl

end Written

namespace StringPiece

/-- A plain piece stands for its character. -/
theorem characters?_plain (c : Char) (pieces : List StringPiece) :
    characters? (.plain c :: pieces) = (characters? pieces).map (c :: ·) := by
  rw [characters?]

/-- A number that is none of half a surrogate pair names its character, whatever follows. -/
theorem characters?_unit {code : Nat} (hhigh : isHigh code = false) (hlow : isLow code = false)
    (pieces : List StringPiece) :
    characters? (.unit code :: pieces) = (characters? pieces).map (Char.ofNat code :: ·) := by
  cases pieces with
  | nil => simp [characters?, hhigh, hlow]
  | cons piece pieces =>
      cases piece with
      | plain c => simp [characters?, hhigh, hlow]
      | unit low =>
          rw [characters?, if_neg (by simp [hhigh]), if_neg (by simp [hlow])]

/-- The piece by which a character is spelled stands for it. -/
theorem characters?_of (c : Char) (pieces : List StringPiece) :
    characters? (of c :: pieces) = (characters? pieces).map (c :: ·) := by
  by_cases h : c < ' ' ∧ c ∉ lettered
  · have hcode : c.toNat < 32 := h.1
    have hhigh : isHigh c.toNat = false := by
      rw [isHigh, Bool.and_eq_false_iff, decide_eq_false_iff_not]
      exact .inl (by omega)
    have hlow : isLow c.toNat = false := by
      rw [isLow, Bool.and_eq_false_iff, decide_eq_false_iff_not]
      exact .inl (by omega)
    rw [of, if_pos h, characters?_unit hhigh hlow, Char.ofNat_toNat]
  · rw [of, if_neg h, characters?_plain]

/-- The pieces by which a text is spelled name the text. -/
theorem text?_map_of (text : String) : text? (text.toList.map of) = some text := by
  have hcharacters : ∀ chars : List Char, characters? (chars.map of) = some chars := by
    intro chars
    induction chars with
    | nil => rw [List.map_nil, characters?]
    | cons c chars ih => rw [List.map_cons, characters?_of, ih, Option.map_some]
  rw [text?, hcharacters, Option.map_some, String.ofList_toList]

end StringPiece

end ApiCatalog
