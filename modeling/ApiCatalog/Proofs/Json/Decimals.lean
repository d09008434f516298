import ApiCatalog.Proofs.Json.Numbers

/-!
# The texts of all numbers

Whatever its value, a number is written as a text that is read as one number, up to its end
(`Number.scanNumber_writeNumber`). What is read need not be the number: the reader rounds more than
once. But the text of a binary64 number has a point or an exponent, so it never spells an integer
(`Number.value?_float`). The decimal that is written either rounds to the number or is zero
(`Binary64.coefficient_shortest`), so that its digits do not begin with a zero.
-/

namespace ApiCatalog

namespace Binary64

variable {x : Binary64} {s : Scientific}

/-- The measure for a positive number of digits is positive. -/
theorem quarters_pos (x : Binary64) {count : Nat} (hcount : 0 < count) :
    0 < (x.quarters count).1 := by
  unfold quarters
  dsimp only
  split
  · exact Nat.mul_pos hcount (Nat.pow_pos Nat.two_pos)
  · exact hcount

/-- Zero lies below all reals that round to a magnitude other than zero. -/
theorem lowerEnd_pos (hx : x.significand ≠ 0) : 0 < x.lowerEnd.1 := by
  unfold lowerEnd
  split <;> exact quarters_pos x (by omega)

/-- Zero does not round to a magnitude other than zero. -/
theorem coefficient_ne_zero_of_roundsTo (hx : x.significand ≠ 0) (h : x.roundsTo s = true) :
    s.coefficient ≠ 0 := by
  intro hzero
  have hlower := lowerEnd_pos hx
  unfold roundsTo at h
  split at h
  · have hge := (Bool.and_eq_true_iff.1 h).1
    unfold Scientific.ge at hge
    split at hge
    · have hle := of_decide_eq_true hge
      rw [hzero, Nat.zero_mul, Nat.zero_mul] at hle
      omega
    · have hle := of_decide_eq_true hge
      have hpower : 0 < x.lowerEnd.1 * Nat.pow 10 (-s.exponent).toNat :=
        Nat.mul_pos hlower (Nat.pow_pos (by decide))
      rw [hzero, Nat.zero_mul] at hle
      omega
  · have hle : s.le x.lowerEnd = true := by
      unfold Scientific.le
      split <;> simp [hzero]
    simp [hle] at h

/-- The digits that are chosen round to the number. -/
theorem roundsTo_of_withDigits? {count : Nat} (h : x.withDigits? count = some s) :
    x.roundsTo s = true := by
  unfold withDigits? at h
  extract_lets fraction exponent coefficient below above at h
  split at h
  next hbelow _ =>
    rw [← Option.some.inj h]
    exact hbelow
  next _ habove =>
    rw [← Option.some.inj h]
    exact habove
  next => cases h
  next hbelow habove =>
    have hs : s = below ∨ s = above := by grind
    rcases hs with hs | hs
    · rw [hs]
      exact hbelow
    · rw [hs]
      exact habove

/-- The decimal that is written for a magnitude is not zero, unless none was found. -/
theorem coefficient_shortest (hx : x.significand ≠ 0) :
    x.shortest.coefficient ≠ 0 ∨ x.shortest = ⟨0, 0⟩ := by
  unfold shortest
  cases hfound : (List.range 17).findSome? fun count => x.withDigits? (count + 1) with
  | none => exact .inr rfl
  | some s =>
      obtain ⟨count, -, hcount⟩ := List.exists_of_findSome?_eq_some hfound
      exact .inl (coefficient_ne_zero_of_roundsTo hx (roundsTo_of_withDigits? hcount))

end Binary64

namespace Written

open Text (digitChar)

variable {ds : List Nat} {rest : List Char}

/-- A text that begins with no digit does not go on with one. -/
theorem noDigit_cons {c : Char} (hc : Text.digit? c = none) (rest : List Char) :
    Text.NoDigit (c :: rest) := by
  intro d hd
  cases hd
  exact hc

/-- Digits before a point, with no zero in front of others, are read up to what follows. -/
theorem scanWhole_digits (hds : ∀ d ∈ ds, d < 10) (hne : ds ≠ [])
    (hleading : ∀ others, ds = 0 :: others → others = []) (hrest : Text.NoDigit rest) :
    scanWhole (ds.map digitChar ++ rest) = some (ds, rest) := by
  have hread := Text.leadingDigits_map_digitChar hds hrest
  unfold scanWhole
  rw [hread]
  split
  next hnil => exact absurd (Prod.mk.inj hnil).1 hne
  next _ _ _ hzero => cases hleading _ (Prod.mk.inj hzero).1
  next => rfl

/-- Digits behind a point are read up to what follows. -/
theorem scanFraction_digits (hds : ∀ d ∈ ds, d < 10) (hne : ds ≠ [])
    (hrest : Text.NoDigit rest) :
    scanFraction ('.' :: (ds.map digitChar ++ rest)) = some (some ds, rest) := by
  have hread := Text.leadingDigits_map_digitChar hds hrest
  rw [scanFraction, hread]
  obtain ⟨d, others, rfl⟩ := List.exists_cons_of_ne_nil hne
  rfl

/-- Where no point stands there is no fraction. -/
theorem scanFraction_of_ne {c : Char} (hc : c ≠ '.') (text : List Char) :
    scanFraction (c :: text) = some (none, c :: text) := by
  rw [scanFraction]
  intro t ht
  exact hc (List.cons.inj ht).1

/-- An exponent is read with its sign. -/
theorem exists_scanExponent (negative : Bool) (n : Nat) :
    ∃ exponent, scanExponent ('e' :: (if negative then '-' else '+') :: Text.digits n) =
      some (some (negative, exponent), []) := by
  obtain ⟨ds, hdigits, hnames⟩ := Text.exists_digits n
  have hread := Text.leadingDigits_map_digitChar hnames.digit Text.noDigit_nil
  rw [List.append_nil, ← hdigits] at hread
  obtain ⟨d, others, rfl⟩ := List.exists_cons_of_ne_nil hnames.nonempty
  refine ⟨d :: others, ?_⟩
  rw [scanExponent_mark (.inl rfl)]
  cases negative <;> simp [scanExponentDigits, hread]

end Written

/-- The literal has a point or an exponent. -/
def NumberLiteral.IsFractional (literal : NumberLiteral) : Prop :=
  literal.fraction ≠ none ∨ literal.exponent ≠ none

/-- A literal with a point or an exponent spells a binary64 number, if it spells any. -/
theorem NumberLiteral.IsFractional.value? {literal : NumberLiteral} (h : literal.IsFractional)
    {value : Number} (hvalue : literal.value? = some value) : ∃ x, value = .float x := by
  unfold NumberLiteral.value? at hvalue
  dsimp only at hvalue
  rw [if_neg fun hplain => h.elim (· hplain.1) (· hplain.2.1)] at hvalue
  obtain ⟨x, -, hx⟩ := Option.map_eq_some_iff.1 hvalue
  exact ⟨_, hx.symm⟩

namespace NumberLayout

open Text (digitChar digits digitsIn Names exists_digits)
open Written (scanUnsigned scanWhole_digits scanFraction_digits scanFraction_of_ne
  exists_scanExponent noDigit_cons)

/-- The text is read as a number with a point or an exponent, up to its end. -/
def IsRead (text : List Char) : Prop :=
  ∀ negative, ∃ literal, scanUnsigned negative text = some (literal, []) ∧ literal.IsFractional

/-- Digits that begin a number: there are some, and the first one is no zero. -/
structure Leads (ds : List Nat) : Prop where
  nonempty : ds ≠ []
  digit : ∀ d ∈ ds, d < 10
  leading : ∀ others, ds ≠ 0 :: others

variable {ds fs : List Nat}

/-- Zeros are digits. -/
theorem lt_ten_replicate (count : Nat) : ∀ d ∈ List.replicate count 0, d < 10 := by
  intro d hd
  rw [List.eq_of_mem_replicate hd]
  decide

/-- Zeros are written as such. -/
theorem map_replicate (count : Nat) :
    (List.replicate count 0).map digitChar = List.replicate count '0' := List.map_replicate

/-- Digits with a point between them are read. -/
theorem isRead_point (hds : ∀ d ∈ ds, d < 10) (hne : ds ≠ [])
    (hleading : ∀ others, ds = 0 :: others → others = []) (hfs : ∀ d ∈ fs, d < 10)
    (hfsne : fs ≠ []) :
    IsRead (ds.map digitChar ++ '.' :: fs.map digitChar) := by
  intro negative
  have hwhole := scanWhole_digits hds hne hleading
    (noDigit_cons (c := '.') (by decide) (fs.map digitChar))
  have hfraction := scanFraction_digits hfs hfsne Text.noDigit_nil
  rw [List.append_nil] at hfraction
  refine ⟨⟨negative, ds, some fs, none⟩, ?_, .inl nofun⟩
  simp [scanUnsigned, hwhole, hfraction, Written.scanExponent]

/-- A number in full is read. -/
theorem isRead_positional (leading : Int) (h : Leads ds ∨ ds = [] ∧ leading = 0) :
    IsRead (positional (ds.map digitChar) leading) := by
  have hlt : ∀ d ∈ ds, d < 10 := by
    rcases h with h | ⟨rfl, -⟩
    · exact h.digit
    · exact nofun
  unfold positional
  split
  next hnegative =>
    have hds : Leads ds := h.resolve_right fun hzero => by omega
    have hfs : ∀ d ∈ List.replicate (-leading - 1).toNat 0 ++ ds, d < 10 :=
      List.forall_mem_append.2 ⟨lt_ten_replicate _, hlt⟩
    have hread := @isRead_point [0] _ (by decide) (by decide) (by simp) hfs
      (List.append_ne_nil_of_right_ne_nil _ hds.nonempty)
    rw [List.map_append, map_replicate] at hread
    exact hread
  next hnonnegative =>
    dsimp only
    split
    next hshort =>
      rw [List.length_map] at hshort ⊢
      have hwhole : ∀ d ∈ ds ++ List.replicate (leading.toNat + 1 - ds.length) 0, d < 10 :=
        List.forall_mem_append.2 ⟨hlt, lt_ten_replicate _⟩
      have hread := @isRead_point _ [0] hwhole ?_ ?_ (by decide) (by decide)
      · rw [List.map_append, map_replicate] at hread
        exact hread
      · intro hnil
        have hlength := congrArg List.length hnil
        rw [List.length_append, List.length_replicate, List.length_nil] at hlength
        omega
      · -- Only the digits of zero begin with a zero, and then there is one before the point.
        intro others hzero
        rcases h with h | ⟨rfl, rfl⟩
        · obtain ⟨d, rest, rfl⟩ := List.exists_cons_of_ne_nil h.nonempty
          obtain ⟨rfl, -⟩ := List.cons.inj hzero
          exact absurd rfl (h.leading rest)
        · exact (List.cons.inj hzero).2.symm
    next hlong =>
      rw [List.length_map] at hlong
      have hds : Leads ds := h.resolve_right fun hzero => by simp [hzero.1] at hlong
      rw [← List.map_take, ← List.map_drop]
      refine isRead_point ?_ ?_ ?_ ?_ ?_
      · exact fun d hd => hlt d (List.mem_of_mem_take hd)
      · rw [Ne, List.take_eq_nil_iff, not_or]
        exact ⟨Nat.succ_ne_zero _, hds.nonempty⟩
      · intro others hzero
        obtain ⟨d, rest, rfl⟩ := List.exists_cons_of_ne_nil hds.nonempty
        rw [List.take_succ_cons] at hzero
        obtain ⟨rfl, -⟩ := List.cons.inj hzero
        exact absurd rfl (hds.leading rest)
      · exact fun d hd => hlt d (List.mem_of_mem_drop hd)
      · rw [Ne, List.drop_eq_nil_iff]
        exact hlong

/-- A number with an exponent is read. -/
theorem isRead_withExponent (leading : Int) (h : Leads ds) :
    IsRead (withExponent (ds.map digitChar) leading) := by
  intro negative
  obtain ⟨exponent, hexponent⟩ := exists_scanExponent (decide (leading < 0)) leading.natAbs
  simp only [decide_eq_true_eq] at hexponent
  have hfractional : ∀ whole fraction, NumberLiteral.IsFractional
      ⟨negative, whole, fraction, some (decide (leading < 0), exponent)⟩ :=
    fun _ _ => .inr (Option.some_ne_none _)
  obtain ⟨d, others, rfl⟩ := List.exists_cons_of_ne_nil h.nonempty
  have hleading : ∀ rest, [d] = 0 :: rest → rest = [] := fun rest hzero =>
    (List.cons.inj hzero).2.symm
  have hd : ∀ e ∈ [d], e < 10 := fun e he =>
    h.digit e (List.mem_singleton.1 he ▸ List.mem_cons_self)
  cases others with
  | nil =>
      have hwhole := scanWhole_digits hd (List.cons_ne_nil d []) hleading
        (noDigit_cons (c := 'e') (by decide)
          ((if leading < 0 then '-' else '+') :: digits leading.natAbs))
      refine ⟨⟨negative, [d], none, some (decide (leading < 0), exponent)⟩, ?_, hfractional _ _⟩
      simp only [List.map_cons, List.map_nil, List.cons_append, List.nil_append] at hwhole
      simp [withExponent, scanUnsigned, hwhole, scanFraction_of_ne, hexponent]
  | cons e rest =>
      have hfs : ∀ f ∈ e :: rest, f < 10 := fun f hf => h.digit f (List.mem_cons_of_mem d hf)
      have hwhole := scanWhole_digits hd (List.cons_ne_nil d []) hleading
        (noDigit_cons (c := '.') (by decide) ((e :: rest).map digitChar ++ 'e' ::
          (if leading < 0 then '-' else '+') :: digits leading.natAbs))
      have hfraction := scanFraction_digits hfs (List.cons_ne_nil e rest)
        (noDigit_cons (c := 'e') (by decide)
          ((if leading < 0 then '-' else '+') :: digits leading.natAbs))
      refine ⟨⟨negative, [d], some (e :: rest), some (decide (leading < 0), exponent)⟩, ?_,
        hfractional _ _⟩
      simp only [List.map_cons, List.map_nil, List.cons_append, List.nil_append] at hwhole hfraction
      simp [withExponent, scanUnsigned, hwhole, hfraction, hexponent]

/-- The digits of a number other than zero, without the zeros at their end, begin a number. -/
theorem exists_leads {n : Nat} (hn : n ≠ 0) :
    ∃ ds, Leads ds ∧ ((digits n).reverse.dropWhile (· = '0')).reverse = ds.map digitChar := by
  obtain ⟨ds, hdigits, hnames⟩ := exists_digits n
  obtain ⟨d, others, rfl⟩ := List.exists_cons_of_ne_nil hnames.nonempty
  have hd : d ≠ 0 := by
    rintro rfl
    obtain rfl := hnames.leading others rfl
    exact hn hnames.value.symm
  have hchar : digitChar d ≠ '0' := by
    intro hzero
    have hvalue := Text.digit?_digitChar d (hnames.digit d List.mem_cons_self)
    rw [hzero] at hvalue
    exact hd (Option.some.inj hvalue).symm
  refine ⟨d :: (others.reverse.dropWhile fun e => digitChar e = '0').reverse, ⟨nofun, ?_, ?_⟩, ?_⟩
  · intro e he
    rcases List.mem_cons.1 he with rfl | he
    · exact hnames.digit e List.mem_cons_self
    · have hmem := (List.dropWhile_sublist _).subset (List.mem_reverse.1 he)
      exact hnames.digit e (List.mem_cons_of_mem d (List.mem_reverse.1 hmem))
  · intro rest hrest
    exact hd (List.cons.inj hrest).1
  · rw [hdigits, List.map_cons, List.reverse_cons, List.dropWhile_append, ← List.map_reverse,
      List.dropWhile_map]
    have hkept : [digitChar d].dropWhile (· = '0') = [digitChar d] :=
      List.dropWhile_cons_of_neg (by simpa using hchar)
    rw [hkept, List.map_cons, List.map_reverse]
    split
    next hnone =>
      have hempty := List.map_eq_nil_iff.1 (List.isEmpty_iff.1 hnone)
      exact congrArg (fun kept => digitChar d :: (List.map digitChar kept).reverse) hempty.symm
    next => exact List.reverse_append

/-- The text of a magnitude is read. -/
theorem exists_write (x : Binary64) :
    ∃ text, IsRead text ∧
      Json.numberLayout.write x = (if x.negative then ['-'] else []) ++ text := by
  unfold write
  dsimp only
  split
  next => exact ⟨['0', '.', '0'], @isRead_point [0] [0] (by decide) (by decide)
    (by simp) (by decide) (by decide), rfl⟩
  next hx =>
    refine ⟨_, ?_, rfl⟩
    rcases Binary64.coefficient_shortest hx with hcoefficient | hzero
    · obtain ⟨ds, hds, htrimmed⟩ := exists_leads hcoefficient
      rw [htrimmed]
      split
      · exact isRead_positional _ (.inl hds)
      · exact isRead_withExponent _ hds
    · -- Without a decimal zero is written, which is in full.
      have hdigits : digits 0 = ['0'] := by rw [digits, digitsIn, if_pos (.inl (by decide))]; rfl
      rw [hzero, hdigits, if_pos (by decide)]
      exact @isRead_positional [] 0 (.inr ⟨rfl, rfl⟩)

end NumberLayout

namespace Number

open Written (scanNumber scanUnsigned scanNumber_of_ne)

/-- A sign in front of digits, or of a text that begins with one, makes a number. -/
theorem scanNumber_sign {negative : Bool} {text : List Char} {literal : NumberLiteral}
    (h : scanUnsigned negative text = some (literal, [])) :
    scanNumber ((if negative then ['-'] else []) ++ text) = some (literal, []) := by
  cases negative with
  | true => exact h
  | false =>
      cases text with
      | nil => cases h
      | cons c rest =>
          have hc : c ≠ '-' := by
            rintro rfl
            cases h
          show scanNumber (c :: rest) = _
          rw [scanNumber_of_ne hc, h]

/-- The text of a number is read as one number. -/
theorem exists_scanNumber (value : Number) :
    ∃ literal, scanNumber (Json.writeNumber value) = some (literal, []) ∧
      ∀ x, value = .float x → literal.IsFractional := by
  cases value with
  | int value =>
      cases value with
      | ofNat n =>
          obtain ⟨ds, -, hscan⟩ := scanUnsigned_digits false (n := n)
          exact ⟨_, scanNumber_sign hscan, nofun⟩
      | negSucc n =>
          obtain ⟨ds, -, hscan⟩ := scanUnsigned_digits true (n := n + 1)
          exact ⟨_, scanNumber_sign hscan, nofun⟩
  | float x =>
      obtain ⟨text, hread, htext⟩ := NumberLayout.exists_write x
      obtain ⟨literal, hscan, hfractional⟩ := hread x.negative
      refine ⟨literal, ?_, fun _ _ => hfractional⟩
      rw [Json.writeNumber, htext]
      exact scanNumber_sign hscan

/-- The text of a number is read as its spelling, up to its end. -/
theorem scanNumber_writeNumber (value : Number) :
    scanNumber (Json.writeNumber value) = some (value.literal, []) := by
  obtain ⟨literal, hscan, -⟩ := exists_scanNumber value
  rw [Number.literal, hscan]
  rfl

/-- What is read of the text of a binary64 number is a binary64 number, if it is a number at all. -/
theorem value?_float {x : Binary64} {value : Number}
    (h : (Number.float x).literal.value? = some value) : ∃ y, value = .float y := by
  obtain ⟨literal, hscan, hfractional⟩ := exists_scanNumber (.float x)
  have hliteral : (Number.float x).literal = literal := by
    rw [Number.literal, hscan]
    rfl
  rw [hliteral] at h
  exact (hfractional x rfl).value? h

end Number

end ApiCatalog
