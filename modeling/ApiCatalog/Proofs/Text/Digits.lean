import ApiCatalog.Text.Digits
import Mathlib.Data.List.Basic

/-!
# Digits read back

What `Text.digits` writes (`exists_digits`), `Text.leadingDigits` reads up to what follows
(`leadingDigits_map_digitChar`), and `Text.ofDigits` puts it together again. The digits of a number
are not led by a zero unless there is only one of them.
-/

namespace ApiCatalog.Text

/-- The text does not go on with a digit. -/
def NoDigit (text : List Char) : Prop := ∀ c ∈ text.head?, digit? c = none

/-- The end of a text is no digit. -/
theorem noDigit_nil : NoDigit [] := fun _ hc => nomatch hc

/-- A digit is read back from its character. -/
theorem digit?_digitChar : ∀ d < 10, digit? (digitChar d) = some d := by decide

/-- A hexadecimal digit is read back from its character. -/
theorem hexDigit?_digitChar : ∀ d < 16, hexDigit? (digitChar d) = some d := by decide

/-- No digits lead a text that does not go on with one. -/
theorem leadingDigits_of_noDigit {text : List Char} (h : NoDigit text) :
    leadingDigits text = ([], text) := by
  cases text with
  | nil => rfl
  | cons c rest =>
      have hc : digit? c = none := h c rfl
      simp [leadingDigits, hc]

/-- Digits are read up to where the text goes on with something else. -/
theorem leadingDigits_map_digitChar {ds : List Nat} (hds : ∀ d ∈ ds, d < 10) {rest : List Char}
    (hrest : NoDigit rest) : leadingDigits (ds.map digitChar ++ rest) = (ds, rest) := by
  induction ds with
  | nil => exact leadingDigits_of_noDigit hrest
  | cons d ds ih =>
      have hd := digit?_digitChar d (hds d List.mem_cons_self)
      have htail := ih fun e he => hds e (List.mem_cons_of_mem d he)
      rw [List.map_cons, List.cons_append, leadingDigits, hd, htail]

/-- A text that follows what is left behind the digits is left as well, unless it brings more
digits. -/
theorem leadingDigits_append {text left rest : List Char} {ds : List Nat}
    (h : leadingDigits text = (ds, left)) (hrest : left = [] → NoDigit rest) :
    leadingDigits (text ++ rest) = (ds, left ++ rest) := by
  induction text generalizing ds with
  | nil =>
      obtain ⟨rfl, rfl⟩ := Prod.mk.inj h
      exact leadingDigits_of_noDigit (hrest rfl)
  | cons c text ih =>
      rw [leadingDigits] at h
      rw [List.cons_append, leadingDigits]
      cases hc : digit? c with
      | none =>
          rw [hc] at h
          obtain ⟨rfl, rfl⟩ := Prod.mk.inj h
          rfl
      | some d =>
          rw [hc] at h
          obtain ⟨rfl, rfl⟩ := Prod.mk.inj h
          rw [ih rfl]

/-- Digits are written as the library writes them. -/
theorem digitChar_eq : ∀ d < 10, digitChar d = Nat.digitChar d := by decide

/-- Numbers are written as the library writes them. -/
theorem digits_eq_toDigits (n : Nat) : digits n = Nat.toDigits 10 n := by
  induction n using Nat.strongRecOn with
  | ind n ih =>
      rw [digits, digitsIn, Nat.toDigits_eq_if (by decide)]
      by_cases hsmall : n < 10
      · rw [if_pos (.inl hsmall), if_pos hsmall, digitChar_eq n hsmall]
      · rw [if_neg (by omega), if_neg hsmall, digitChar_eq _ (by omega),
          ← ih (n / 10) (by omega), digits]

/-- One digit more counts once, and those before it count the base times as much. -/
theorem ofDigits_append_singleton (base : Nat) (ds : List Nat) (d : Nat) :
    ofDigits base (ds ++ [d]) = ofDigits base ds * base + d := by
  rw [ofDigits, List.foldl_append, List.foldl_cons, List.foldl_nil]
  rfl

/-- The digits of a number: at least one, with no zero in front of others, and they name the
number. -/
structure Names (ds : List Nat) (n : Nat) : Prop where
  nonempty : ds ≠ []
  digit : ∀ d ∈ ds, d < 10
  value : ofDigits 10 ds = n
  leading : ∀ rest, ds = 0 :: rest → rest = []

/-- A number is written by its digits. -/
theorem exists_digits (n : Nat) : ∃ ds, digits n = ds.map digitChar ∧ Names ds n := by
  induction n using Nat.strongRecOn with
  | ind n ih =>
      rw [digits, digitsIn]
      by_cases hsmall : n < 10
      · refine ⟨[n], by rw [if_pos (.inl hsmall)]; rfl, List.cons_ne_nil n [], ?_, ?_, ?_⟩
        · intro d hd
          rwa [List.mem_singleton.1 hd]
        · exact Nat.zero_add n
        · rintro rest hrest
          exact (List.cons.inj hrest).2.symm
      · obtain ⟨ds, hds, hnonempty, hdigit, hvalue, hleading⟩ :=
          ih (n / 10) (Nat.div_lt_self (by omega) (by omega))
        refine ⟨ds ++ [n % 10], ?_, by simp, ?_, ?_, ?_⟩
        · rw [if_neg (by omega), List.map_append, ← hds]
          rfl
        · intro d hd
          rcases List.mem_append.1 hd with hd | hd
          · exact hdigit d hd
          · rw [List.mem_singleton.1 hd]
            omega
        · rw [ofDigits_append_singleton, hvalue]
          omega
        · -- A leading zero would be the only digit of `n / 10`, which is no zero.
          intro rest hrest
          cases ds with
          | nil => exact absurd rfl hnonempty
          | cons d ds =>
              obtain ⟨rfl, -⟩ := List.cons.inj hrest
              obtain rfl := hleading ds rfl
              have hzero : n / 10 = 0 := by rw [← hvalue]; rfl
              omega

end ApiCatalog.Text
