import ApiCatalog.Proofs.Json.Values

/-!
# Values up to their fractions

A binary64 number need not be read back from the text that is written for it, since the reader
rounds more than once. All else is: `Json.coarse` forgets which binary64 numbers stand in a value,
and what is read of a text that spells a value is that value up to them
(`coarse_of_value?_spelled`). This asks of the value that its members are in key order and its
integers fit 64 bits, as is the case with every value that was read (`Json.Legible`,
`legible_of_read`).
-/

namespace ApiCatalog

/-- An integer fits 64 bits, with or without a sign. -/
def Number.Fits : Number → Prop
  | .int value => -(Nat.pow 2 63 : Int) ≤ value ∧ value < NumberLiteral.wordLimit
  | .float _ => True

/-- The number, unless it is a binary64 number: all of these are made zero. -/
def Number.coarse : Number → Number
  | .int value => .int value
  | .float _ => .float (Binary64.zero false)

namespace Json

mutual

/-- The integers in the tree fit 64 bits. -/
def Fits : Json → Prop
  | .number value => value.Fits
  | .array items => ItemsFit items
  | .object members => MembersFit members
  | _ => True

/-- The integers in the items fit 64 bits. -/
def ItemsFit : List Json → Prop
  | [] => True
  | item :: items => item.Fits ∧ ItemsFit items

/-- The integers in the members fit 64 bits. -/
def MembersFit : List (String × Json) → Prop
  | [] => True
  | (_, value) :: members => value.Fits ∧ MembersFit members

end

/-- The value can be told from the text that is written for it, up to its binary64 numbers. -/
structure Legible (value : Json) : Prop where
  ordered : value.Ordered
  fits : value.Fits

mutual

/-- The value with all binary64 numbers made zero. -/
def coarse : Json → Json
  | .null => .null
  | .bool value => .bool value
  | .number value => .number value.coarse
  | .string value => .string value
  | .array items => .array (coarseItems items)
  | .object members => .object (coarseMembers members)

/-- The items with all binary64 numbers made zero. -/
def coarseItems : List Json → List Json
  | [] => []
  | item :: items => item.coarse :: coarseItems items

/-- The members with all binary64 numbers made zero. -/
def coarseMembers : List (String × Json) → List (String × Json)
  | [] => []
  | (key, value) :: members => (key, value.coarse) :: coarseMembers members

end

variable {members : List (String × Json)}

/-- Members fit if the values behind all keys do. -/
theorem membersFit_iff : MembersFit members ↔ ∀ member ∈ members, member.2.Fits := by
  induction members with
  | nil => exact iff_of_true trivial nofun
  | cons member members ih => rw [List.forall_mem_cons, MembersFit, ih]

/-- Members are made coarse one by one. -/
theorem coarseMembers_eq_map (members : List (String × Json)) :
    coarseMembers members = members.map fun member => (member.1, member.2.coarse) := by
  induction members with
  | nil => rfl
  | cons member members ih => rw [coarseMembers, ih, List.map_cons]

/-- Items are made coarse one by one. -/
theorem coarseItems_eq_map (items : List Json) : coarseItems items = items.map coarse := by
  induction items with
  | nil => rfl
  | cons item items ih => rw [coarseItems, ih, List.map_cons]

/-- A coarse value has the same members, made coarse. -/
theorem get?_coarseMembers (key : String) (members : List (String × Json)) :
    Keyed.get? key (coarseMembers members) = (Keyed.get? key members).map coarse := by
  rw [coarseMembers_eq_map, Keyed.get?_map]

/-- Members with the same keys are in key order together. -/
theorem ordered_of_coarseMembers {others : List (String × Json)}
    (hordered : Keyed.Ordered members) (hsame : coarseMembers others = coarseMembers members) :
    Keyed.Ordered others := by
  have hkeys : others.map (·.1) = members.map (·.1) := by
    have hfirst := congrArg (List.map (·.1)) hsame
    rwa [coarseMembers_eq_map, coarseMembers_eq_map, List.map_map, List.map_map] at hfirst
  have hpairwise := List.pairwise_map.2 hordered
  rw [← hkeys] at hpairwise
  exact List.pairwise_map.1 hpairwise

end Json

/-! ## Numbers -/

namespace NumberLiteral

/-- The significand stays below the limit while digits are taken. -/
theorem takeWhole_lt (ds : List Nat) {significand : Nat} (h : significand < wordLimit) :
    (takeWhole significand ds).1 < wordLimit := by
  induction ds generalizing significand with
  | nil => exact h
  | cons d ds ih =>
      rw [takeWhole]
      split
      next hnext => exact ih hnext
      next => exact h

/-- An integer that is read fits 64 bits. -/
theorem fits_of_value? {literal : NumberLiteral} {value : Number}
    (h : literal.value? = some value) : value.Fits := by
  have hwhole : (takeWhole 0 literal.whole).1 < wordLimit := takeWhole_lt _ (by decide)
  unfold value? at h
  dsimp only at h
  split at h
  next =>
    split at h
    next =>
      rw [← Option.some.inj h]
      exact ⟨by simp only [Nat.pow_eq]; omega, by exact_mod_cast hwhole⟩
    next =>
      split at h
      next hfits =>
        rw [← Option.some.inj h]
        exact ⟨by have := hfits.2; omega, by have := hfits.1; omega⟩
      next =>
        obtain ⟨x, -, hx⟩ := Option.map_eq_some_iff.1 h
        rw [← hx]
        trivial
  next =>
    obtain ⟨x, -, hx⟩ := Option.map_eq_some_iff.1 h
    rw [← hx]
    trivial

end NumberLiteral

/-- What is read of the text of a number is that number, or both are binary64 numbers. -/
theorem Number.coarse_of_value? {value read : Number} (hfits : value.Fits)
    (h : value.literal.value? = some read) : read.coarse = value.coarse := by
  cases value with
  | int value =>
      have hread := (Number.readsBack_int hfits.1 hfits.2).2
      rw [h] at hread
      rw [Option.some.inj hread]
  | float x =>
      obtain ⟨y, rfl⟩ := Number.value?_float h
      rfl

namespace Written

open Json

/-! ## What is read -/

/-- The first item is read, and then the others. -/
theorem itemValues?_cons_eq_some {limit : Nat} {item : Written} {items : List Written}
    {read : List Json} (h : itemValues? limit (item :: items) = some read) :
    ∃ value values, value? limit item = some value ∧ itemValues? limit items = some values ∧
      read = value :: values := by
  simp only [itemValues?, Option.bind_eq_bind, Option.bind_eq_some_iff] at h
  obtain ⟨value, hvalue, values, hvalues, h⟩ := h
  exact ⟨value, values, hvalue, hvalues, (Option.some.inj h).symm⟩

/-- The first member is read, with its key, and then the others. -/
theorem memberValues?_cons_eq_some {limit : Nat} {pieces : List StringPiece} {member : Written}
    {members : List (List StringPiece × Written)} {read : List (String × Json)}
    (h : memberValues? limit ((pieces, member) :: members) = some read) :
    ∃ key value pairs, StringPiece.text? pieces = some key ∧ value? limit member = some value ∧
      memberValues? limit members = some pairs ∧ read = (key, value) :: pairs := by
  simp only [memberValues?, Option.bind_eq_bind, Option.bind_eq_some_iff] at h
  obtain ⟨key, hkey, value, hvalue, pairs, hpairs, h⟩ := h
  exact ⟨key, value, pairs, hkey, hvalue, hpairs, (Option.some.inj h).symm⟩

mutual

/-- The value of a text is legible. -/
theorem legible_of_value? : (written : Written) → (limit : Nat) → (value : Json) →
    value? limit written = some value → value.Legible
  | .null, _, _, h => by
    rw [value?] at h
    rw [← Option.some.inj h]
    exact ⟨trivial, trivial⟩
  | .bool _, _, _, h => by
    rw [value?] at h
    rw [← Option.some.inj h]
    exact ⟨trivial, trivial⟩
  | .number literal, _, _, h => by
    rw [value?] at h
    obtain ⟨number, hnumber, rfl⟩ := Option.map_eq_some_iff.1 h
    exact ⟨trivial, NumberLiteral.fits_of_value? hnumber⟩
  | .string _, _, _, h => by
    rw [value?] at h
    obtain ⟨text, -, rfl⟩ := Option.map_eq_some_iff.1 h
    exact ⟨trivial, trivial⟩
  | .array items, limit, _, h => by
    rw [value?] at h
    obtain ⟨-, h⟩ := Option.ite_none_left_eq_some.1 h
    obtain ⟨values, hvalues, rfl⟩ := Option.map_eq_some_iff.1 h
    have hitems := legible_of_itemValues? items (limit - 1) values hvalues
    exact ⟨hitems.1, hitems.2⟩
  | .object members, limit, _, h => by
    rw [value?] at h
    obtain ⟨-, h⟩ := Option.ite_none_left_eq_some.1 h
    obtain ⟨pairs, hpairs, rfl⟩ := Option.map_eq_some_iff.1 h
    have hmembers := legible_of_memberValues? members (limit - 1) pairs hpairs
    refine ⟨⟨Keyed.ordered_ofPairs pairs, membersOrdered_iff.2 fun member hmem => ?_⟩,
      membersFit_iff.2 fun member hmem => ?_⟩
    · exact membersOrdered_iff.1 hmembers.1 member (Keyed.mem_of_mem_ofPairs hmem)
    · exact membersFit_iff.1 hmembers.2 member (Keyed.mem_of_mem_ofPairs hmem)

/-- The items of an array are legible. -/
theorem legible_of_itemValues? : (items : List Written) → (limit : Nat) → (values : List Json) →
    itemValues? limit items = some values → ItemsOrdered values ∧ ItemsFit values
  | [], _, _, h => by
    rw [itemValues?] at h
    rw [← Option.some.inj h]
    exact ⟨trivial, trivial⟩
  | item :: items, limit, _, h => by
    obtain ⟨value, values, hvalue, hvalues, rfl⟩ := itemValues?_cons_eq_some h
    have hfirst := legible_of_value? item limit value hvalue
    have hrest := legible_of_itemValues? items limit values hvalues
    exact ⟨⟨hfirst.ordered, hrest.1⟩, hfirst.fits, hrest.2⟩

/-- The members of an object are legible. -/
theorem legible_of_memberValues? : (members : List (List StringPiece × Written)) →
    (limit : Nat) → (pairs : List (String × Json)) → memberValues? limit members = some pairs →
    MembersOrdered pairs ∧ MembersFit pairs
  | [], _, _, h => by
    rw [memberValues?] at h
    rw [← Option.some.inj h]
    exact ⟨trivial, trivial⟩
  | (_, member) :: members, limit, _, h => by
    obtain ⟨key, value, pairs, -, hvalue, hpairs, rfl⟩ := memberValues?_cons_eq_some h
    have hfirst := legible_of_value? member limit value hvalue
    have hrest := legible_of_memberValues? members limit pairs hpairs
    exact ⟨⟨hfirst.ordered, hrest.1⟩, hfirst.fits, hrest.2⟩

end

/-- The value of a JSON text is legible. -/
theorem legible_of_read {text : String} {value : Json} (h : Json.read text = some value) :
    value.Legible := by
  obtain ⟨written, -, hvalue⟩ := Option.bind_eq_some_iff.1 h
  exact legible_of_value? written depthLimit value hvalue

/-! ## What is read of a spelled value -/

mutual

/-- What is read of a text that spells a legible value is that value, up to its binary64 numbers. -/
theorem coarse_of_value?_spelled : (value : Json) → value.Ordered → value.Fits → (limit : Nat) →
    (read : Json) → value? limit value.spelled = some read → read.coarse = value.coarse
  | .null, _, _, _, _, h => by
    rw [spelled, value?] at h
    rw [Option.some.inj h]
  | .bool _, _, _, _, _, h => by
    rw [spelled, value?] at h
    rw [Option.some.inj h]
  | .number value, _, hfits, _, _, h => by
    rw [spelled, value?] at h
    obtain ⟨number, hnumber, rfl⟩ := Option.map_eq_some_iff.1 h
    rw [coarse, coarse, Number.coarse_of_value? hfits hnumber]
  | .string value, _, _, _, _, h => by
    rw [spelled, value?, StringPiece.text?_map_of] at h
    rw [Option.some.inj h]
  | .array items, hordered, hfits, limit, _, h => by
    rw [spelled, value?] at h
    obtain ⟨-, h⟩ := Option.ite_none_left_eq_some.1 h
    obtain ⟨values, hvalues, rfl⟩ := Option.map_eq_some_iff.1 h
    rw [coarse, coarse, coarse_of_itemValues?_spelledItems items hordered hfits _ values hvalues]
  | .object members, hordered, hfits, limit, _, h => by
    rw [spelled, value?] at h
    obtain ⟨-, h⟩ := Option.ite_none_left_eq_some.1 h
    obtain ⟨pairs, hpairs, rfl⟩ := Option.map_eq_some_iff.1 h
    have hsame := coarse_of_memberValues?_spelledMembers members hordered.2 hfits _ pairs hpairs
    have hpairsOrdered : Keyed.Ordered pairs := ordered_of_coarseMembers hordered.1 hsame
    rw [ofMembers, Keyed.ofPairs_eq_self hpairsOrdered, coarse, coarse, hsame]

/-- What is read of items that are spelled. -/
theorem coarse_of_itemValues?_spelledItems : (items : List Json) → ItemsOrdered items →
    ItemsFit items → (limit : Nat) → (values : List Json) →
    itemValues? limit (spelledItems items) = some values → coarseItems values = coarseItems items
  | [], _, _, _, _, h => by
    rw [spelledItems, itemValues?] at h
    rw [Option.some.inj h]
  | item :: items, hordered, hfits, limit, _, h => by
    rw [spelledItems] at h
    obtain ⟨value, values, hvalue, hvalues, rfl⟩ := itemValues?_cons_eq_some h
    rw [coarseItems, coarseItems,
      coarse_of_value?_spelled item hordered.1 hfits.1 limit value hvalue,
      coarse_of_itemValues?_spelledItems items hordered.2 hfits.2 limit values hvalues]

/-- What is read of members that are spelled. -/
theorem coarse_of_memberValues?_spelledMembers : (members : List (String × Json)) →
    MembersOrdered members → MembersFit members → (limit : Nat) →
    (pairs : List (String × Json)) → memberValues? limit (spelledMembers members) = some pairs →
    coarseMembers pairs = coarseMembers members
  | [], _, _, _, _, h => by
    rw [spelledMembers, memberValues?] at h
    rw [Option.some.inj h]
  | (key, member) :: members, hordered, hfits, limit, _, h => by
    rw [spelledMembers] at h
    obtain ⟨name, value, pairs, hname, hvalue, hpairs, rfl⟩ := memberValues?_cons_eq_some h
    rw [StringPiece.text?_map_of] at hname
    rw [← Option.some.inj hname, coarseMembers, coarseMembers,
      coarse_of_value?_spelled member hordered.1 hfits.1 limit value hvalue,
      coarse_of_memberValues?_spelledMembers members hordered.2 hfits.2 limit pairs hpairs]

end

end Written

end ApiCatalog
