import Mathlib.Data.List.Sort
import Mathlib.Tactic.SplitIfs

/-!
# Texts as bytes

The bytes of a text in UTF-8, from which it is read back. Texts are compared character by character
in this library, and `bytes_lt_iff` says that this is how their bytes compare.
-/

namespace ApiCatalog.Text

/-- The bytes of a text in UTF-8. -/
def bytes (text : String) : List UInt8 := text.toUTF8.data.toList

/-- A text is read back from its bytes. -/
theorem fromUTF8?_toUTF8 (text : String) : String.fromUTF8? text.toUTF8 = some text :=
  dif_pos text.isValidUTF8

/-- The bytes are those of the characters, one after the other. -/
theorem bytes_eq_flatMap (text : String) :
    bytes text = text.toList.flatMap String.utf8EncodeChar := by
  conv_lhs => rw [← String.ofList_toList (s := text)]
  rw [bytes, String.toUTF8_eq_toByteArray, String.toByteArray_ofList, List.utf8Encode,
    List.data_toByteArray]

/-- Smaller numbers have smaller digits of six bits from the first place on where they differ. -/
theorem sixBits_of_lt {m n : Nat} (h : m < n) :
    m / 262144 < n / 262144 ∨ m / 262144 = n / 262144 ∧
      (m / 4096 % 64 < n / 4096 % 64 ∨ m / 4096 % 64 = n / 4096 % 64 ∧
        (m / 64 % 64 < n / 64 % 64 ∨ m / 64 % 64 = n / 64 % 64 ∧ m % 64 < n % 64)) := by
  have hm : m = 262144 * (m / 262144) + 4096 * (m / 4096 % 64) + 64 * (m / 64 % 64) + m % 64 := by
    omega
  have hn : n = 262144 * (n / 262144) + 4096 * (n / 4096 % 64) + 64 * (n / 64 % 64) + n % 64 := by
    omega
  omega

/-- Of two characters the smaller one has the smaller bytes, whatever follows. -/
theorem utf8EncodeChar_append_lt {c d : Char} (h : c < d) (x y : List UInt8) :
    String.utf8EncodeChar c ++ x < String.utf8EncodeChar d ++ y := by
  have hless : c.val.toNat < d.val.toNat := h
  have hlast : d.val.toNat < 0x110000 := by
    have hvalid := d.valid
    simp only [UInt32.isValidChar, Nat.isValidChar] at hvalid
    omega
  have hdigits := sixBits_of_lt hless
  unfold String.utf8EncodeChar
  simp only [apply_ite (· ++ x), apply_ite (· ++ y), List.cons_append, List.nil_append]
  -- The first byte tells how many follow, and more bytes go with greater first ones.
  split_ifs <;>
    simp (disch := omega) only [List.cons_lt_cons_iff, UInt8.lt_iff_toNat_lt, ← UInt8.toNat_inj,
      UInt8.toNat_ofNat', Nat.mod_eq_of_lt] <;>
    omega

/-- Characters in order are encoded by bytes in order. -/
theorem flatMap_utf8EncodeChar_lt {text other : List Char} (h : text < other) :
    text.flatMap String.utf8EncodeChar < other.flatMap String.utf8EncodeChar := by
  induction other generalizing text with
  | nil => exact absurd h (List.not_lt_nil text)
  | cons d other ih =>
      cases text with
      | nil =>
          have hnonempty := String.utf8EncodeChar_ne_nil (c := d)
          obtain ⟨byte, rest, hd⟩ := List.exists_cons_of_ne_nil hnonempty
          rw [List.flatMap_nil, List.flatMap_cons, hd]
          exact List.nil_lt_cons _ _
      | cons c text =>
          rw [List.flatMap_cons, List.flatMap_cons]
          rcases List.cons_lt_cons_iff.1 h with hless | ⟨rfl, hrest⟩
          · exact utf8EncodeChar_append_lt hless _ _
          · exact List.append_left_lt (ih hrest)

/-- Texts compare as their bytes do. -/
theorem bytes_lt_iff {text other : String} : bytes text < bytes other ↔ text < other := by
  have hless : ∀ {a b : String}, a < b → bytes a < bytes b := by
    intro a b h
    rw [bytes_eq_flatMap, bytes_eq_flatMap]
    exact flatMap_utf8EncodeChar_lt (String.lt_iff.1 h)
  refine ⟨fun h => ?_, hless⟩
  refine String.not_le.1 fun hle => ?_
  by_cases hsame : text = other
  · exact List.lt_irrefl _ (hsame ▸ h)
  · have hgreater : other < text := Std.lt_of_le_of_ne hle (Ne.symm hsame)
    exact List.lt_asymm h (hless hgreater)

/-- Texts are in order exactly if their bytes are. -/
theorem bytes_le_iff {text other : String} : bytes text ≤ bytes other ↔ text ≤ other := by
  rw [← List.not_lt, bytes_lt_iff, String.not_lt]

end ApiCatalog.Text
