import ApiCatalog.Json.Printer
import ApiCatalog.Json.Reader
import ApiCatalog.Proofs.Text.Digits

/-!
# Numbers read back

A number reads back if the text that is written for it spells it. Integers that fit 64 bits do
(`readsBack_int`). A number is read in the same way in the middle of a text, up to a character
that cannot go on with it (`scanNumber_append`).
-/

namespace ApiCatalog

open Written

/-- The spelling of a number: what is read of the text that is written for it. -/
def Number.literal (value : Number) : NumberLiteral :=
  ((scanNumber (Json.writeNumber value)).map (·.1)).getD ⟨false, [], none, none⟩

/-- The text that is written for the number spells this number. -/
def Number.ReadsBack (value : Number) : Prop :=
  scanNumber (Json.writeNumber value) = some (value.literal, []) ∧
    value.literal.value? = some value

/-- The text does not go on with a number. -/
structure Ends (text : List Char) : Prop where
  noDigit : Text.NoDigit text
  noMark : ∀ c ∈ text.head?, c ≠ '.' ∧ c ≠ 'e' ∧ c ≠ 'E'

/-- The end of the text ends a number. -/
theorem ends_nil : Ends [] := ⟨Text.noDigit_nil, fun _ hc => nomatch hc⟩

/-- A character that is no part of numbers ends a number. -/
theorem ends_cons {c : Char} (hdigit : Text.digit? c = none)
    (hmark : c ≠ '.' ∧ c ≠ 'e' ∧ c ≠ 'E') (text : List Char) : Ends (c :: text) := by
  constructor
  · intro d hd
    cases hd
    exact hdigit
  · intro d hd
    cases hd
    exact hmark

namespace Written

variable {text left rest : List Char}

/-- The digits of a whole part are read alike in front of what ends a number. -/
theorem scanWhole_append {ds : List Nat} (h : scanWhole text = some (ds, left))
    (hrest : left = [] → Ends rest) : scanWhole (text ++ rest) = some (ds, left ++ rest) := by
  have hread : Text.leadingDigits text = (ds, left) := by
    unfold scanWhole at h
    split at h
    · cases h
    · cases h
    · exact Option.some.inj h
  have happend := Text.leadingDigits_append hread fun hleft => (hrest hleft).noDigit
  unfold scanWhole at h ⊢
  rw [hread] at h
  rw [happend]
  split at h
  · cases h
  · cases h
  · split <;> simp_all

/-- A fraction is read alike in front of what ends a number. -/
theorem scanFraction_append {fraction : Option (List Nat)}
    (h : scanFraction text = some (fraction, left)) (hrest : left = [] → Ends rest) :
    scanFraction (text ++ rest) = some (fraction, left ++ rest) := by
  cases text with
  | nil =>
      obtain ⟨rfl, rfl⟩ : none = fraction ∧ [] = left := by simpa [scanFraction] using h
      cases rest with
      | nil => rfl
      | cons c rest =>
          have hc := ((hrest rfl).noMark c rfl).1
          rw [List.nil_append, scanFraction]
          intro t ht
          exact hc (List.cons.inj ht).1
  | cons c text =>
      by_cases hc : c = '.'
      · subst hc
        rw [scanFraction] at h
        rw [List.cons_append, scanFraction]
        cases hread : Text.leadingDigits text with
        | mk ds after =>
            rw [hread] at h
            cases ds with
            | nil => cases h
            | cons d ds =>
                obtain ⟨rfl, rfl⟩ := Prod.mk.inj (Option.some.inj h)
                rw [Text.leadingDigits_append hread fun hleft => (hrest hleft).noDigit]
      · rw [scanFraction] at h
        · obtain ⟨rfl, rfl⟩ := Prod.mk.inj (Option.some.inj h)
          rw [List.cons_append, scanFraction]
          intro t ht
          exact hc (List.cons.inj ht).1
        · intro t ht
          exact hc (List.cons.inj ht).1

/-- The digits of an exponent are read alike in front of what ends a number. -/
theorem scanExponentDigits_append {negative : Bool} {exponent : Option (Bool × List Nat)}
    (h : scanExponentDigits negative text = some (exponent, left))
    (hrest : left = [] → Ends rest) :
    scanExponentDigits negative (text ++ rest) = some (exponent, left ++ rest) := by
  unfold scanExponentDigits at h ⊢
  cases hread : Text.leadingDigits text with
  | mk ds after =>
      rw [hread] at h
      cases ds with
      | nil => cases h
      | cons d ds =>
          obtain ⟨rfl, rfl⟩ := Prod.mk.inj (Option.some.inj h)
          rw [Text.leadingDigits_append hread fun hleft => (hrest hleft).noDigit]

/-- Where no mark of an exponent stands there is none. -/
theorem scanExponent_of_not_mark {c : Char} (hc : c ≠ 'e' ∧ c ≠ 'E') (text : List Char) :
    scanExponent (c :: text) = some (none, c :: text) := by
  rw [scanExponent.eq_def]
  exact if_neg (not_or.2 hc)

/-- The digits of an exponent stand behind its mark and its sign, if there is one. -/
theorem scanExponent_mark {c : Char} (hc : c = 'e' ∨ c = 'E') (text : List Char) :
    scanExponent (c :: text) =
      match text with
      | '+' :: text => scanExponentDigits false text
      | '-' :: text => scanExponentDigits true text
      | text => scanExponentDigits false text := by
  rw [scanExponent.eq_def]
  exact if_pos hc

/-- An exponent is read alike in front of what ends a number. -/
theorem scanExponent_append {exponent : Option (Bool × List Nat)}
    (h : scanExponent text = some (exponent, left)) (hrest : left = [] → Ends rest) :
    scanExponent (text ++ rest) = some (exponent, left ++ rest) := by
  cases text with
  | nil =>
      obtain ⟨rfl, rfl⟩ : none = exponent ∧ [] = left := by simpa [scanExponent] using h
      cases rest with
      | nil => rfl
      | cons c rest => exact scanExponent_of_not_mark ((hrest rfl).noMark c rfl).2 rest
  | cons c text =>
      by_cases hc : c = 'e' ∨ c = 'E'
      · rw [scanExponent_mark hc] at h
        rw [List.cons_append, scanExponent_mark hc]
        -- The mark needs digits, so something follows it already.
        cases text with
        | nil => cases h
        | cons d text =>
            by_cases hplus : d = '+'
            · subst hplus
              exact scanExponentDigits_append h hrest
            · by_cases hminus : d = '-'
              · subst hminus
                exact scanExponentDigits_append h hrest
              · have hdigits : scanExponentDigits false (d :: text) = some (exponent, left) := by
                  simpa [hplus, hminus] using h
                have happend := scanExponentDigits_append hdigits hrest
                simpa [hplus, hminus] using happend
      · rw [not_or] at hc
        rw [scanExponent_of_not_mark hc] at h
        obtain ⟨rfl, rfl⟩ := Prod.mk.inj (Option.some.inj h)
        exact scanExponent_of_not_mark hc _

/-- A number without its sign is read alike in front of what ends a number. -/
theorem scanUnsigned_append {negative : Bool} {literal : NumberLiteral}
    (h : scanUnsigned negative text = some (literal, left)) (hrest : left = [] → Ends rest) :
    scanUnsigned negative (text ++ rest) = some (literal, left ++ rest) := by
  simp only [scanUnsigned, Option.bind_eq_bind, Option.bind_eq_some_iff, Prod.exists] at h ⊢
  obtain ⟨whole, first, hwhole, fraction, second, hfraction, exponent, third, hexponent, h⟩ := h
  obtain ⟨rfl, rfl⟩ := Prod.mk.inj (Option.some.inj h)
  -- A part that takes up the rest of the text leaves nothing to the parts behind it.
  have hsecond : second = [] → Ends rest := by
    rintro rfl
    exact hrest (Prod.mk.inj (Option.some.inj hexponent)).2.symm
  have hfirst : first = [] → Ends rest := by
    rintro rfl
    exact hsecond (Prod.mk.inj (Option.some.inj hfraction)).2.symm
  exact ⟨whole, _, scanWhole_append hwhole hfirst, fraction, _,
    scanFraction_append hfraction hsecond, exponent, _, scanExponent_append hexponent hrest, rfl⟩

/-- A number that does not begin with its sign has none. -/
theorem scanNumber_of_ne {c : Char} (hc : c ≠ '-') (text : List Char) :
    scanNumber (c :: text) = scanUnsigned false (c :: text) := by
  rw [scanNumber]
  intro t ht
  exact hc (List.cons.inj ht).1

/-- A number that makes up a text is read in front of any text that does not go on with it. -/
theorem scanNumber_append {literal : NumberLiteral} (h : scanNumber text = some (literal, []))
    (hrest : Ends rest) : scanNumber (text ++ rest) = some (literal, rest) := by
  have hends : ([] : List Char) = [] → Ends rest := fun _ => hrest
  cases text with
  | nil => cases h
  | cons c text =>
      by_cases hc : c = '-'
      · subst hc
        exact scanUnsigned_append h hends
      · rw [scanNumber_of_ne hc] at h
        rw [List.cons_append, scanNumber_of_ne hc]
        exact scanUnsigned_append h hends

end Written

/-! ## Integers -/

namespace NumberLiteral

/-- A significand does not shrink while digits are added. -/
theorem le_foldl_digits (ds : List Nat) (significand : Nat) :
    significand ≤ ds.foldl (fun n d => n * 10 + d) significand := by
  induction ds generalizing significand with
  | nil => exact Nat.le_refl _
  | cons d ds ih =>
      have hstep : significand ≤ significand * 10 + d := by omega
      exact Nat.le_trans hstep (ih _)

/-- Digits that fit 64 bits are all taken. -/
theorem takeWhole_of_lt {ds : List Nat} {significand : Nat}
    (h : ds.foldl (fun n d => n * 10 + d) significand < wordLimit) :
    takeWhole significand ds = (ds.foldl (fun n d => n * 10 + d) significand, 0) := by
  induction ds generalizing significand with
  | nil => rfl
  | cons d ds ih =>
      have hstep : significand * 10 + d < wordLimit :=
        Nat.lt_of_le_of_lt (le_foldl_digits ds _) h
      rw [takeWhole, if_pos hstep, ih h]
      rfl

end NumberLiteral

namespace Number

open Text (Names digits exists_digits)

/-- The digits of a whole number are read as those that name it. -/
theorem scanUnsigned_digits (negative : Bool) {n : Nat} :
    ∃ ds, Names ds n ∧
      scanUnsigned negative (digits n) = some (⟨negative, ds, none, none⟩, []) := by
  obtain ⟨ds, hds, hnames⟩ := exists_digits n
  refine ⟨ds, hnames, ?_⟩
  have hread : Text.leadingDigits (digits n) = (ds, []) := by
    rw [hds, ← List.append_nil (ds.map _)]
    exact Text.leadingDigits_map_digitChar hnames.digit Text.noDigit_nil
  have hwhole : scanWhole (digits n) = some (ds, []) := by
    unfold scanWhole
    rw [hread]
    split
    next hnil => exact absurd (Prod.mk.inj hnil).1 hnames.nonempty
    next _ _ _ hzero =>
      have hnone := hnames.leading _ (Prod.mk.inj hzero).1
      cases hnone
    next => rfl
  rw [scanUnsigned, hwhole]
  rfl

/-- The digits of a whole number below the limit have its value. -/
theorem value?_whole {ds : List Nat} {n : Nat} (hnames : Names ds n)
    (hn : n < NumberLiteral.wordLimit) :
    (⟨false, ds, none, none⟩ : NumberLiteral).value? = some (.int n) := by
  have hvalue : ds.foldl (fun n d => n * 10 + d) 0 = n := hnames.value
  have htake : NumberLiteral.takeWhole 0 ds = (n, 0) := by
    rw [NumberLiteral.takeWhole_of_lt (by rw [hvalue]; exact hn), hvalue]
  simp [NumberLiteral.value?, htake]

/-- The digits of a whole number have the value below zero, if it fits 64 bits with a sign. -/
theorem value?_negative {ds : List Nat} {n : Nat} (hnames : Names ds n) (hpos : 0 < n)
    (hn : n ≤ Nat.pow 2 63) :
    (⟨true, ds, none, none⟩ : NumberLiteral).value? = some (.int (-n)) := by
  have hvalue : ds.foldl (fun n d => n * 10 + d) 0 = n := hnames.value
  have hlimit : n < NumberLiteral.wordLimit := Nat.lt_of_le_of_lt hn (by decide)
  have htake : NumberLiteral.takeWhole 0 ds = (n, 0) := by
    rw [NumberLiteral.takeWhole_of_lt (by rw [hvalue]; exact hlimit), hvalue]
  have hword : n ≤ Nat.pow 2 63 := hn
  simp only [NumberLiteral.value?, htake]
  simp [hpos, hword]

/-- A number reads back if some spelling is read of its text that spells the number. -/
theorem readsBack_of_scan {value : Number} {spelling : NumberLiteral}
    (hscan : scanNumber (Json.writeNumber value) = some (spelling, []))
    (hvalue : spelling.value? = some value) : value.ReadsBack := by
  have hliteral : value.literal = spelling := by
    rw [literal, hscan]
    rfl
  exact ⟨hliteral ▸ hscan, hliteral ▸ hvalue⟩

/-- Natural numbers that fit 64 bits read back. -/
theorem readsBack_nat {n : Nat} (hn : n < NumberLiteral.wordLimit) :
    (Number.int n).ReadsBack := by
  obtain ⟨ds, hnames, hscan⟩ := scanUnsigned_digits false (n := n)
  refine readsBack_of_scan ?_ (value?_whole hnames hn)
  obtain ⟨es, hdigits, hes⟩ := exists_digits n
  obtain ⟨d, es, rfl⟩ := List.exists_cons_of_ne_nil hes.nonempty
  have hd : Text.digitChar d ≠ '-' := by
    have hdigit := Text.digit?_digitChar d (hes.digit d List.mem_cons_self)
    intro hsign
    rw [hsign] at hdigit
    cases hdigit
  show scanNumber (digits n) = _
  rw [← hscan, hdigits, List.map_cons, scanNumber_of_ne hd]

/-- Integers that fit 64 bits, with or without a sign, read back. -/
theorem readsBack_int {value : Int} (hlow : -(Nat.pow 2 63 : Int) ≤ value)
    (hhigh : value < NumberLiteral.wordLimit) :
    (Number.int value).ReadsBack := by
  cases value with
  | ofNat n => exact readsBack_nat (by simp at hhigh; omega)
  | negSucc n =>
      obtain ⟨ds, hnames, hscan⟩ := scanUnsigned_digits true (n := n + 1)
      have hvalue := value?_negative hnames (Nat.succ_pos n) (by omega)
      exact readsBack_of_scan hscan hvalue

end Number

end ApiCatalog
