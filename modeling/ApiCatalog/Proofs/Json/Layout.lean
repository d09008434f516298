import ApiCatalog.Proofs.Json.Decimals
import ApiCatalog.Proofs.Json.Strings
import Mathlib.Data.List.DropRight

/-!
# Texts that spell a value

`Json.Spells value text` says that a text spells a value: the parts of the value in their order,
with any blanks between them. The reader takes every such text to the tree of the parts,
`Json.spelled` (`Written.read_of_spells`). The compact text of a value spells it
(`Json.spells_write`), and so does the text over several lines (`Json.spells_layOut`).
-/

namespace ApiCatalog

namespace Json

mutual

/-- The tree of a text that spells the value. -/
def spelled : Json → Written
  | .null => .null
  | .bool value => .bool value
  | .number value => .number value.literal
  | .string value => .string (value.toList.map StringPiece.of)
  | .array items => .array (spelledItems items)
  | .object members => .object (spelledMembers members)

/-- The trees of the items. -/
def spelledItems : List Json → List Written
  | [] => []
  | item :: items => item.spelled :: spelledItems items

/-- The trees of the members, behind their keys. -/
def spelledMembers : List (String × Json) → List (List StringPiece × Written)
  | [] => []
  | (key, value) :: members =>
    (key.toList.map StringPiece.of, value.spelled) :: spelledMembers members

end

/-- The characters are blanks. -/
def Blank (text : List Char) : Prop := ∀ c ∈ text, Written.isBlank c = true

/-- No characters are blanks. -/
theorem blank_nil : Blank [] := fun _ hc => nomatch hc

mutual

/-- The text spells the value. -/
inductive Spells : Json → List Char → Prop where
  | null : Spells .null ['n', 'u', 'l', 'l']
  | true : Spells (.bool Bool.true) ['t', 'r', 'u', 'e']
  | false : Spells (.bool Bool.false) ['f', 'a', 'l', 's', 'e']
  | number (value) : Spells (.number value) (writeNumber value)
  | string (value) : Spells (.string value) (quote value)
  | emptyArray (blanks) : Blank blanks → Spells (.array []) ('[' :: (blanks ++ [']']))
  | array (items inner) : SpellsItems items inner → Spells (.array items) ('[' :: (inner ++ [']']))
  | emptyObject (blanks) : Blank blanks → Spells (.object []) ('{' :: (blanks ++ ['}']))
  | object (members inner) :
      SpellsMembers members inner → Spells (.object members) ('{' :: (inner ++ ['}']))

/-- The text spells the items of an array, at least one, with commas between them. -/
inductive SpellsItems : List Json → List Char → Prop where
  | last (item before text after) :
      Blank before → Spells item text → Blank after →
      SpellsItems [item] (before ++ (text ++ after))
  | cons (item items before text after rest) :
      Blank before → Spells item text → Blank after → SpellsItems items rest →
      SpellsItems (item :: items) (before ++ (text ++ (after ++ ',' :: rest)))

/-- The text spells the members of an object, at least one, with commas between them. -/
inductive SpellsMembers : List (String × Json) → List Char → Prop where
  | last (key member before between text after) :
      Blank before → Blank between → Spells member text → Blank after →
      SpellsMembers [(key, member)] (before ++ (quote key ++ ':' :: (between ++ (text ++ after))))
  | cons (key member members before between text after rest) :
      Blank before → Blank between → Spells member text → Blank after →
      SpellsMembers members rest →
      SpellsMembers ((key, member) :: members)
        (before ++ (quote key ++ ':' :: (between ++ (text ++ (after ++ ',' :: rest)))))

end

end Json

namespace Written

open Json

/-! ## Blanks -/

/-- Blanks in front of a text are skipped. -/
theorem skipBlanks_append {blanks : List Char} (h : Blank blanks) (text : List Char) :
    skipBlanks (blanks ++ text) = skipBlanks text := by
  induction blanks with
  | nil => rfl
  | cons c blanks ih =>
      have hc : isBlank c = true := h c List.mem_cons_self
      have hrest := ih fun d hd => h d (List.mem_cons_of_mem c hd)
      rw [List.cons_append, skipBlanks, List.dropWhile_cons_of_pos hc]
      exact hrest

/-- Nothing is skipped in front of a character that is no blank. -/
theorem skipBlanks_cons {c : Char} (hc : isBlank c = false) (text : List Char) :
    skipBlanks (c :: text) = c :: text :=
  List.dropWhile_cons_of_neg (by rw [hc]; exact Bool.false_ne_true)

/-- Blanks in front of a value do not count. -/
theorem scanValue_append {blanks : List Char} (h : Blank blanks) (steps : Nat)
    (text : List Char) : scanValue steps (blanks ++ text) = scanValue steps text := by
  cases steps with
  | zero => rfl
  | succ steps => rw [scanValue, scanValue, skipBlanks_append h]

/-- Behind the blanks there are none to skip. -/
theorem skipBlanks_skipBlanks (text : List Char) : skipBlanks (skipBlanks text) = skipBlanks text :=
  List.dropWhile_idempotent _ _

/-- Blanks in front of items do not count. -/
theorem scanItems_skipBlanks (steps : Nat) (text : List Char) :
    scanItems steps (skipBlanks text) = scanItems steps text := by
  have hvalue : ∀ steps, scanValue steps (skipBlanks text) = scanValue steps text := by
    intro steps
    cases steps with
    | zero => rfl
    | succ steps => rw [scanValue, scanValue, skipBlanks_skipBlanks]
  cases steps with
  | zero => rfl
  | succ steps => rw [scanItems, scanItems, hvalue]

/-- Blanks in front of members do not count. -/
theorem scanMembers_skipBlanks (steps : Nat) (text : List Char) :
    scanMembers steps (skipBlanks text) = scanMembers steps text := by
  cases steps with
  | zero => rfl
  | succ steps => rw [scanMembers, scanMembers, skipBlanks_skipBlanks]

/-- A character that closes or separates ends a number, also behind blanks. -/
theorem ends_blank_append {blanks : List Char} (h : Blank blanks) {c : Char}
    (hc : c = ',' ∨ c = ']' ∨ c = '}') (rest : List Char) : Ends (blanks ++ c :: rest) := by
  have hblank : ∀ d, isBlank d = true → Text.digit? d = none ∧ d ≠ '.' ∧ d ≠ 'e' ∧ d ≠ 'E' := by
    intro d hd
    simp only [isBlank, Bool.or_eq_true, decide_eq_true_eq] at hd
    rcases hd with ((rfl | rfl) | rfl) | rfl <;> decide
  cases blanks with
  | nil => rcases hc with rfl | rfl | rfl <;> exact ends_cons (by decide) (by decide) rest
  | cons d blanks =>
      obtain ⟨hdigit, hmark⟩ := hblank d (h d List.mem_cons_self)
      exact ends_cons hdigit hmark _

/-! ## The first character of a value -/

/-- A character with which a number may begin. -/
def StartsNumber (c : Char) : Prop := c = '-' ∨ Text.digit? c ≠ none

/-- What is read as a number begins as numbers do. -/
theorem exists_cons_of_scanNumber {text left : List Char} {literal : NumberLiteral}
    (h : scanNumber text = some (literal, left)) :
    ∃ c rest, text = c :: rest ∧ StartsNumber c := by
  cases text with
  | nil => cases h
  | cons c rest =>
      refine ⟨c, rest, rfl, ?_⟩
      by_cases hc : c = '-'
      · exact .inl hc
      · refine .inr fun hnone => ?_
        have hnothing : Text.leadingDigits (c :: rest) = ([], c :: rest) := by
          simp [Text.leadingDigits, hnone]
        rw [scanNumber_of_ne hc, scanUnsigned, scanWhole, hnothing] at h
        cases h

/-- A number is told from everything else by its first character. -/
theorem StartsNumber.ne {c d : Char} (h : StartsNumber c)
    (hd : d ≠ '-' ∧ Text.digit? d = none) : c ≠ d := by
  rintro rfl
  exact h.elim hd.1 fun hdigit => hdigit hd.2

/-- Numbers do not begin with blanks. -/
theorem StartsNumber.isBlank_eq_false {c : Char} (h : StartsNumber c) : isBlank c = false := by
  have hne : c ≠ ' ' ∧ c ≠ '\n' ∧ c ≠ '\t' ∧ c ≠ '\r' :=
    ⟨h.ne (by decide), h.ne (by decide), h.ne (by decide), h.ne (by decide)⟩
  simp only [isBlank, hne, decide_false, Bool.or_false]

/-- The first character of a value is no blank and closes nothing. -/
theorem exists_cons_of_spells {value : Json} {text : List Char} (h : Spells value text) :
    ∃ c rest, text = c :: rest ∧ isBlank c = false ∧ c ≠ ']' := by
  cases h with
  | number value =>
      obtain ⟨c, rest, htext, hc⟩ := exists_cons_of_scanNumber value.scanNumber_writeNumber
      exact ⟨c, rest, htext, hc.isBlank_eq_false, hc.ne (by decide)⟩
  | null | true | false | string | emptyArray | array | emptyObject | object =>
      exact ⟨_, _, rfl, by decide, by decide⟩

/-! ## Values -/

/-- What begins as numbers do is read as a number. -/
theorem scanValue_number {c : Char} (hc : StartsNumber c) (steps : Nat) (text : List Char) :
    scanValue (steps + 1) (c :: text) =
      (scanNumber (c :: text)).map fun scanned => (.number scanned.1, scanned.2) := by
  have hne : c ≠ 'n' ∧ c ≠ 't' ∧ c ≠ 'f' ∧ c ≠ '"' ∧ c ≠ '[' ∧ c ≠ '{' :=
    ⟨hc.ne (by decide), hc.ne (by decide), hc.ne (by decide), hc.ne (by decide),
      hc.ne (by decide), hc.ne (by decide)⟩
  rw [scanValue, skipBlanks_cons hc.isBlank_eq_false]
  split <;> simp_all

/-- Behind an opening bracket items are read, unless it is closed at once. -/
theorem scanValue_array {inner after : List Char} {c : Char}
    (hfirst : skipBlanks inner = c :: after) (hc : c ≠ ']') (steps : Nat) :
    scanValue (steps + 1) ('[' :: inner) =
      (scanItems steps inner).map fun scanned => (.array scanned.1, scanned.2) := by
  rw [← scanItems_skipBlanks, scanValue, skipBlanks_cons (by decide)]
  simp only [hfirst]
  split
  next _ hclose => exact absurd (List.cons.inj hclose).1 hc
  next => rfl

/-- Behind an opening brace members are read, unless it is closed at once. -/
theorem scanValue_object {inner after : List Char} {c : Char}
    (hfirst : skipBlanks inner = c :: after) (hc : c ≠ '}') (steps : Nat) :
    scanValue (steps + 1) ('{' :: inner) =
      (scanMembers steps inner).map fun scanned => (.object scanned.1, scanned.2) := by
  rw [← scanMembers_skipBlanks, scanValue, skipBlanks_cons (by decide)]
  simp only [hfirst]
  split
  next _ hclose => exact absurd (List.cons.inj hclose).1 hc
  next => rfl

/-- A value behind blanks does not close the array in which it stands. -/
theorem exists_cons_of_blank_append {before : List Char} (hbefore : Blank before) {value : Json}
    {text : List Char} (h : Spells value text) (rest : List Char) :
    ∃ c after, skipBlanks (before ++ (text ++ rest)) = c :: after ∧ c ≠ ']' := by
  obtain ⟨c, tail, rfl, hblank, hclose⟩ := exists_cons_of_spells h
  refine ⟨c, tail ++ rest, ?_, hclose⟩
  rw [skipBlanks_append hbefore, List.cons_append, skipBlanks_cons hblank]

/-- The first item of an array does not close it. -/
theorem exists_cons_of_spellsItems {items : List Json} {text : List Char}
    (h : SpellsItems items text) (rest : List Char) :
    ∃ c after, skipBlanks (text ++ rest) = c :: after ∧ c ≠ ']' := by
  cases h with
  | last item before text after hbefore hitem hafter =>
      rw [List.append_assoc, List.append_assoc]
      exact exists_cons_of_blank_append hbefore hitem _
  | cons item items before text after others hbefore hitem hafter hothers =>
      rw [List.append_assoc, List.append_assoc]
      exact exists_cons_of_blank_append hbefore hitem _

/-- Behind the blanks in front of a key stands its first quote. -/
theorem skipBlanks_key {before : List Char} (hbefore : Blank before) (key : String)
    (text : List Char) :
    skipBlanks (before ++ (quote key ++ text)) =
      '"' :: (key.toList.flatMap escape ++ '"' :: text) := by
  rw [skipBlanks_append hbefore, quote, List.cons_append, List.cons_append,
    skipBlanks_cons (by decide), List.append_assoc, List.cons_append, List.nil_append]

/-- The first member of an object does not close it. -/
theorem exists_cons_of_spellsMembers {members : List (String × Json)} {text : List Char}
    (h : SpellsMembers members text) (rest : List Char) :
    ∃ c after, skipBlanks (text ++ rest) = c :: after ∧ c ≠ '\x7d' := by
  cases h with
  | last key member before between text after hbefore hbetween hmember hafter =>
      rw [List.append_assoc, List.append_assoc, skipBlanks_key hbefore]
      exact ⟨'"', _, rfl, by decide⟩
  | cons key member members before between text after others hbefore hbetween hmember hafter =>
      rw [List.append_assoc, List.append_assoc, skipBlanks_key hbefore]
      exact ⟨'"', _, rfl, by decide⟩

section Parts

variable {steps : Nat} {text rest after : List Char}

/-- An item before the closing bracket is the last one. -/
theorem scanItems_last {item : Written} (hitem : scanValue steps text = some (item, rest))
    (hclose : skipBlanks rest = ']' :: after) :
    scanItems (steps + 1) text = some ([item], after) := by
  simp [scanItems, hitem, hclose]

/-- Behind an item and a comma other items are read. -/
theorem scanItems_cons {item : Written} (hitem : scanValue steps text = some (item, rest))
    (hcomma : skipBlanks rest = ',' :: after) :
    scanItems (steps + 1) text =
      (scanItems steps after).map fun scanned => (item :: scanned.1, scanned.2) := by
  simp [scanItems, hitem, hcomma]

/-- A quoted key is read up to the colon behind it. -/
theorem scanString_key (key : String) (text : List Char) :
    scanString (key.toList.flatMap escape ++ '"' :: text) =
      some (key.toList.map StringPiece.of, text) :=
  scanString_quoted key.toList text

/-- A member before the closing brace is the last one. -/
theorem scanMembers_last {before : List Char} (hbefore : Blank before) (key : String)
    {member : Written} (hmember : scanValue steps text = some (member, rest))
    (hclose : skipBlanks rest = '\x7d' :: after) :
    scanMembers (steps + 1) (before ++ (quote key ++ ':' :: text)) =
      some ([(key.toList.map StringPiece.of, member)], after) := by
  have hcolon : skipBlanks (':' :: text) = ':' :: text := skipBlanks_cons (by decide) text
  simp [scanMembers, skipBlanks_key hbefore, scanString_key, hcolon, hmember, hclose]

/-- Behind a member and a comma other members are read. -/
theorem scanMembers_cons {before : List Char} (hbefore : Blank before) (key : String)
    {member : Written} (hmember : scanValue steps text = some (member, rest))
    (hcomma : skipBlanks rest = ',' :: after) :
    scanMembers (steps + 1) (before ++ (quote key ++ ':' :: text)) =
      (scanMembers steps after).map fun scanned =>
        ((key.toList.map StringPiece.of, member) :: scanned.1, scanned.2) := by
  have hcolon : skipBlanks (':' :: text) = ':' :: text := skipBlanks_cons (by decide) text
  simp [scanMembers, skipBlanks_key hbefore, scanString_key, hcolon, hmember, hcomma]

end Parts

/-! The scanners take a step into each value and over each comma, so twice the length of a text is
enough for it. -/

mutual

/-- A text that spells a value is read up to what follows it. -/
theorem scanValue_of_spells {value : Json} {text : List Char} (h : Spells value text)
    {steps : Nat} {rest : List Char} (hsteps : 2 * text.length ≤ steps) (hrest : Ends rest) :
    scanValue steps (text ++ rest) = some (value.spelled, rest) := by
  obtain ⟨c, tail, htext, -, -⟩ := exists_cons_of_spells h
  obtain ⟨steps, rfl⟩ : ∃ k, steps = k + 1 := by
    rw [htext, List.length_cons] at hsteps
    exact ⟨steps - 1, by omega⟩
  cases h with
  | null => rfl
  | true => rfl
  | false => rfl
  | number value =>
      have hscan := value.scanNumber_writeNumber
      obtain ⟨c, tail, hnumber, hc⟩ := exists_cons_of_scanNumber hscan
      rw [hnumber, List.cons_append, scanValue_number hc, ← List.cons_append, ← hnumber,
        scanNumber_append hscan hrest]
      rfl
  | string value =>
      have hscan := scanString_quoted value.toList rest
      rw [quote, List.cons_append, List.cons_append, List.append_assoc, scanValue,
        skipBlanks_cons (by decide)]
      simp only [List.cons_append, List.nil_append, hscan]
      rfl
  | emptyArray blanks hblanks =>
      rw [List.cons_append, List.append_assoc, scanValue, skipBlanks_cons (by decide)]
      simp only [List.cons_append, List.nil_append, skipBlanks_append hblanks,
        skipBlanks_cons (c := ']') (by decide)]
      rfl
  | array items inner hinner =>
      have hlength : 2 * inner.length + 1 ≤ steps := by
        simp only [List.length_cons, List.length_append, List.length_nil] at hsteps
        omega
      have hitems := scanItems_of_spells hinner rest hlength
      obtain ⟨c, after, hfirst, hc⟩ := exists_cons_of_spellsItems hinner (']' :: rest)
      rw [List.cons_append, List.append_assoc, List.cons_append, List.nil_append,
        scanValue_array hfirst hc, hitems]
      rfl
  | emptyObject blanks hblanks =>
      rw [List.cons_append, List.append_assoc, scanValue, skipBlanks_cons (by decide)]
      simp only [List.cons_append, List.nil_append, skipBlanks_append hblanks,
        skipBlanks_cons (c := '\x7d') (by decide)]
      rfl
  | object members inner hinner =>
      have hlength : 2 * inner.length + 1 ≤ steps := by
        simp only [List.length_cons, List.length_append, List.length_nil] at hsteps
        omega
      have hmembers := scanMembers_of_spells hinner rest hlength
      obtain ⟨c, after, hfirst, hc⟩ := exists_cons_of_spellsMembers hinner ('\x7d' :: rest)
      rw [List.cons_append, List.append_assoc, List.cons_append, List.nil_append,
        scanValue_object hfirst hc, hmembers]
      rfl

/-- Items are read up to the bracket that closes them. -/
theorem scanItems_of_spells {items : List Json} {text : List Char} (h : SpellsItems items text)
    {steps : Nat} (rest : List Char) (hsteps : 2 * text.length + 1 ≤ steps) :
    scanItems steps (text ++ ']' :: rest) = some (spelledItems items, rest) := by
  obtain ⟨steps, rfl⟩ : ∃ k, steps = k + 1 := ⟨steps - 1, by omega⟩
  cases h with
  | last item before text after hbefore hitem hafter =>
      simp only [List.length_append] at hsteps
      have hlength : 2 * text.length ≤ steps := by omega
      have hscan := scanValue_of_spells hitem hlength
        (ends_blank_append hafter (.inr (.inl rfl)) rest)
      rw [List.append_assoc, List.append_assoc]
      rw [← scanValue_append hbefore] at hscan
      refine scanItems_last hscan ?_
      rw [skipBlanks_append hafter, skipBlanks_cons (by decide)]
  | cons item items before text after others hbefore hitem hafter hothers =>
      simp only [List.length_append, List.length_cons] at hsteps
      have hlength : 2 * text.length ≤ steps ∧ 2 * others.length + 1 ≤ steps := by omega
      have hscan := scanValue_of_spells hitem hlength.1
        (ends_blank_append hafter (.inl rfl) (others ++ ']' :: rest))
      have hrest := scanItems_of_spells hothers rest hlength.2
      rw [List.append_assoc, List.append_assoc, List.append_assoc, List.cons_append]
      rw [← scanValue_append hbefore] at hscan
      rw [scanItems_cons hscan (by rw [skipBlanks_append hafter, skipBlanks_cons (by decide)]),
        hrest]
      rfl

/-- Members are read up to the brace that closes them. -/
theorem scanMembers_of_spells {members : List (String × Json)} {text : List Char}
    (h : SpellsMembers members text)
    {steps : Nat} (rest : List Char) (hsteps : 2 * text.length + 1 ≤ steps) :
    scanMembers steps (text ++ '\x7d' :: rest) = some (spelledMembers members, rest) := by
  obtain ⟨steps, rfl⟩ : ∃ k, steps = k + 1 := ⟨steps - 1, by omega⟩
  cases h with
  | last key member before between text after hbefore hbetween hmember hafter =>
      simp only [List.length_append, List.length_cons] at hsteps
      have hlength : 2 * text.length ≤ steps := by omega
      have hscan := scanValue_of_spells hmember hlength
        (ends_blank_append hafter (.inr (.inr rfl)) rest)
      rw [← scanValue_append hbetween] at hscan
      simp only [List.append_assoc, List.cons_append]
      refine scanMembers_last hbefore key hscan ?_
      rw [skipBlanks_append hafter, skipBlanks_cons (by decide)]
  | cons key member members before between text after others hbefore hbetween hmember hafter
      hothers =>
      simp only [List.length_append, List.length_cons] at hsteps
      have hlength : 2 * text.length ≤ steps ∧ 2 * others.length + 1 ≤ steps := by omega
      have hscan := scanValue_of_spells hmember hlength.1
        (ends_blank_append hafter (.inl rfl) (others ++ '\x7d' :: rest))
      have hrest := scanMembers_of_spells hothers rest hlength.2
      rw [← scanValue_append hbetween] at hscan
      simp only [List.append_assoc, List.cons_append]
      rw [scanMembers_cons hbefore key hscan
        (by rw [skipBlanks_append hafter, skipBlanks_cons (by decide)]), hrest]
      rfl

end

/-- A text that spells a value is read to the tree of its parts. -/
theorem read_of_spells {value : Json} {text : List Char} (h : Spells value text) :
    read (String.ofList text) = some value.spelled := by
  have hlength : 2 * text.length ≤ 2 * text.length + 2 := Nat.le_add_right _ 2
  have hscan := scanValue_of_spells h hlength ends_nil
  rw [List.append_nil] at hscan
  rw [read, String.toList_ofList, hscan]
  exact if_pos rfl

end Written

namespace Json

mutual

/-- The text of a value without blanks spells it. -/
theorem spells_write : (value : Json) → Spells value value.write
  | .null => .null
  | .bool Bool.true => .true
  | .bool Bool.false => .false
  | .number value => .number value
  | .string value => .string value
  | .array [] => .emptyArray [] blank_nil
  | .array (item :: items) => .array _ _ (spellsItems_writeItems (item :: items) nofun)
  | .object [] => .emptyObject [] blank_nil
  | .object (member :: members) =>
      .object _ _ (spellsMembers_writeMembers (member :: members) nofun)

/-- What is written for items spells them. -/
theorem spellsItems_writeItems : (items : List Json) → items ≠ [] →
    SpellsItems items (writeItems items)
  | [], hne => absurd rfl hne
  | [item], _ => by
    have hlast := SpellsItems.last item [] _ [] blank_nil (spells_write item) blank_nil
    rw [List.append_nil] at hlast
    exact hlast
  | item :: next :: items, _ =>
    .cons item _ [] _ [] _ blank_nil (spells_write item) blank_nil
      (spellsItems_writeItems (next :: items) nofun)

/-- What is written for members spells them. -/
theorem spellsMembers_writeMembers : (members : List (String × Json)) → members ≠ [] →
    SpellsMembers members (writeMembers members)
  | [], hne => absurd rfl hne
  | [(key, member)], _ => by
    have hlast := SpellsMembers.last key member [] [] _ [] blank_nil blank_nil
      (spells_write member) blank_nil
    rw [List.append_nil] at hlast
    exact hlast
  | (key, member) :: next :: members, _ => by
    have hcons := SpellsMembers.cons key member _ [] [] _ [] _ blank_nil blank_nil
      (spells_write member) blank_nil (spellsMembers_writeMembers (next :: members) nofun)
    have hwrite : writeMembers ((key, member) :: next :: members) =
        quote key ++ ':' :: (member.write ++ ',' :: writeMembers (next :: members)) := by
      rw [writeMembers, List.append_assoc, List.cons_append]
      exact nofun
    rw [hwrite]
    exact hcons

end

/-- The compact text of a value is read to the tree of its parts. -/
theorem read_compact (value : Json) : Written.read value.compact = some value.spelled :=
  Written.read_of_spells (spells_write value)

/-! ## Texts over several lines -/

/-- A new line and its indentation are blanks. -/
theorem blank_newLine (level : Nat) : Blank (newLine level) := by
  intro c hc
  rcases List.mem_cons.1 hc with rfl | hspace
  · rfl
  · rw [List.eq_of_mem_replicate hspace]
    rfl

/-- A space is a blank. -/
theorem blank_space : Blank [' '] := fun c hc => by rw [List.mem_singleton.1 hc]; rfl

/-- Blanks may stand behind the last item. -/
theorem SpellsItems.append {items : List Json} {text blanks : List Char}
    (h : SpellsItems items text) (hblanks : Blank blanks) : SpellsItems items (text ++ blanks) := by
  induction items generalizing text with
  | nil => cases h
  | cons item items ih =>
      cases h with
      | last _ before text after hbefore hitem hafter =>
          rw [List.append_assoc, List.append_assoc]
          exact .last item before text _ hbefore hitem (List.forall_mem_append.2 ⟨hafter, hblanks⟩)
      | cons _ _ before text after rest hbefore hitem hafter hrest =>
          rw [List.append_assoc, List.append_assoc, List.append_assoc, List.cons_append]
          exact .cons item items before text after _ hbefore hitem hafter (ih hrest)

/-- Blanks may stand behind the last member. -/
theorem SpellsMembers.append {members : List (String × Json)} {text blanks : List Char}
    (h : SpellsMembers members text) (hblanks : Blank blanks) :
    SpellsMembers members (text ++ blanks) := by
  induction members generalizing text with
  | nil => cases h
  | cons member members ih =>
      cases h with
      | last key member before between text after hbefore hbetween hmember hafter =>
          simp only [List.append_assoc, List.cons_append]
          exact .last key member before between text _ hbefore hbetween hmember
            (List.forall_mem_append.2 ⟨hafter, hblanks⟩)
      | cons key member _ before between text after rest hbefore hbetween hmember hafter hrest =>
          simp only [List.append_assoc, List.cons_append]
          exact .cons key member members before between text after _ hbefore hbetween hmember
            hafter (ih hrest)

mutual

/-- The text of a value over several lines spells it. -/
theorem spells_layOut : (level : Nat) → (value : Json) → Spells value (value.layOut level)
  | _, .null => .null
  | _, .bool Bool.true => .true
  | _, .bool Bool.false => .false
  | _, .number value => .number value
  | _, .string value => .string value
  | _, .array [] => .emptyArray [] blank_nil
  | level, .array (item :: items) => by
    have hitems := (spellsItems_layOutItems (level + 1) (item :: items) nofun).append
      (blank_newLine level)
    have hspells := Spells.array _ _ hitems
    simpa [layOut] using hspells
  | _, .object [] => .emptyObject [] blank_nil
  | level, .object (member :: members) => by
    have hmembers := (spellsMembers_layOutMembers (level + 1) (member :: members) nofun).append
      (blank_newLine level)
    have hspells := Spells.object _ _ hmembers
    simpa [layOut] using hspells

/-- What is laid out for items spells them. -/
theorem spellsItems_layOutItems : (level : Nat) → (items : List Json) → items ≠ [] →
    SpellsItems items (layOutItems level items)
  | _, [], hne => absurd rfl hne
  | level, [item], _ => by
    have hlast := SpellsItems.last item _ _ [] (blank_newLine level) (spells_layOut level item)
      blank_nil
    rw [List.append_nil] at hlast
    exact hlast
  | level, item :: next :: items, _ => by
    have hcons := SpellsItems.cons item _ _ _ [] _ (blank_newLine level) (spells_layOut level item)
      blank_nil (spellsItems_layOutItems level (next :: items) nofun)
    rw [List.nil_append, ← List.append_assoc] at hcons
    exact hcons

/-- What is laid out for members spells them. -/
theorem spellsMembers_layOutMembers : (level : Nat) → (members : List (String × Json)) →
    members ≠ [] → SpellsMembers members (layOutMembers level members)
  | _, [], hne => absurd rfl hne
  | level, [(key, member)], _ => by
    have hlast := SpellsMembers.last key member _ _ _ [] (blank_newLine level) blank_space
      (spells_layOut level member) blank_nil
    simpa [layOutMembers] using hlast
  | level, (key, member) :: next :: members, _ => by
    have hcons := SpellsMembers.cons key member _ _ _ _ [] _ (blank_newLine level) blank_space
      (spells_layOut level member) blank_nil
      (spellsMembers_layOutMembers level (next :: members) nofun)
    simpa [layOutMembers] using hcons

end

/-- The text of a value over several lines is read to the tree of its parts. -/
theorem read_pretty (value : Json) : Written.read value.pretty = some value.spelled :=
  Written.read_of_spells (spells_layOut 0 value)

end Json

end ApiCatalog
