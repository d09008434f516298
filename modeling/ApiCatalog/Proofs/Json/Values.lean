import ApiCatalog.Proofs.Json.Layout
import ApiCatalog.Proofs.Keyed

/-!
# Values read back

The value of a text that spells an ordered value is this value, if its numbers read back and unless
arrays and objects stand deeper in it than the reader allows (`value?_spelled`). `Json.depth` counts
how deep they stand.
-/

namespace ApiCatalog

namespace Json

mutual

/-- All numbers in the tree read back. -/
def NumbersReadBack : Json → Prop
  | .number value => value.ReadsBack
  | .array items => ItemsReadBack items
  | .object members => MembersReadBack members
  | _ => True

/-- All numbers in the items read back. -/
def ItemsReadBack : List Json → Prop
  | [] => True
  | item :: items => item.NumbersReadBack ∧ ItemsReadBack items

/-- All numbers in the members read back. -/
def MembersReadBack : List (String × Json) → Prop
  | [] => True
  | (_, value) :: members => value.NumbersReadBack ∧ MembersReadBack members

end

mutual

/-- How deep arrays and objects stand in the value. -/
def depth : Json → Nat
  | .array items => itemsDepth items + 1
  | .object members => membersDepth members + 1
  | _ => 0

/-- How deep arrays and objects stand in the items. -/
def itemsDepth : List Json → Nat
  | [] => 0
  | item :: items => max item.depth (itemsDepth items)

/-- How deep arrays and objects stand in the values of the members. -/
def membersDepth : List (String × Json) → Nat
  | [] => 0
  | (_, value) :: members => max value.depth (membersDepth members)

end

end Json

namespace Written

open Json

mutual

/-- The value of a text that spells an ordered value, within a depth. -/
theorem value?_spelled : (value : Json) → value.Ordered → value.NumbersReadBack → (limit : Nat) →
    value? limit value.spelled = if value.depth ≤ limit then some value else none
  | .null, _, _, limit => by rw [spelled, value?, depth, if_pos (Nat.zero_le limit)] <;> nofun
  | .bool value, _, _, limit => by
    rw [spelled, value?, depth, if_pos (Nat.zero_le limit)] <;> nofun
  | .number value, _, hnumber, limit => by
    rw [spelled, value?, depth, hnumber.2, if_pos (Nat.zero_le limit), Option.map_some] <;> nofun
  | .string value, _, _, limit => by
    rw [spelled, value?, depth, StringPiece.text?_map_of, if_pos (Nat.zero_le limit),
      Option.map_some] <;> nofun
  | .array _, _, _, 0 => by rw [spelled, value?, depth, if_pos rfl, if_neg (Nat.not_succ_le_zero _)]
  | .array items, hordered, hnumbers, limit + 1 => by
    have hitems := itemValues?_spelledItems items hordered hnumbers limit
    rw [spelled, value?, if_neg (Nat.succ_ne_zero limit), Nat.add_sub_cancel, hitems, depth]
    by_cases hdepth : itemsDepth items ≤ limit <;> simp [hdepth]
  | .object _, _, _, 0 => by
    rw [spelled, value?, depth, if_pos rfl, if_neg (Nat.not_succ_le_zero _)]
  | .object members, hordered, hnumbers, limit + 1 => by
    have hmembers := memberValues?_spelledMembers members hordered.2 hnumbers limit
    have hsorted : ofMembers members = .object members := by
      rw [ofMembers, Keyed.ofPairs_eq_self hordered.1]
    rw [spelled, value?, if_neg (Nat.succ_ne_zero limit), Nat.add_sub_cancel, hmembers, depth]
    by_cases hdepth : membersDepth members ≤ limit <;> simp [hdepth, hsorted]

/-- The values of items that are spelled, within a depth. -/
theorem itemValues?_spelledItems : (items : List Json) → ItemsOrdered items →
    ItemsReadBack items → (limit : Nat) →
    itemValues? limit (spelledItems items) = if itemsDepth items ≤ limit then some items else none
  | [], _, _, limit => by rw [spelledItems, itemValues?, itemsDepth, if_pos (Nat.zero_le limit)]
  | item :: items, hordered, hnumbers, limit => by
    have hitem := value?_spelled item hordered.1 hnumbers.1 limit
    have hitems := itemValues?_spelledItems items hordered.2 hnumbers.2 limit
    rw [spelledItems, itemValues?, hitem, hitems, itemsDepth]
    by_cases hfirst : item.depth ≤ limit
    · by_cases hrest : itemsDepth items ≤ limit <;> simp [hfirst, hrest]
    · simp [hfirst]

/-- The keys and values of members that are spelled, within a depth. -/
theorem memberValues?_spelledMembers : (members : List (String × Json)) → MembersOrdered members →
    MembersReadBack members → (limit : Nat) →
    memberValues? limit (spelledMembers members) =
      if membersDepth members ≤ limit then some members else none
  | [], _, _, limit => by
    rw [spelledMembers, memberValues?, membersDepth, if_pos (Nat.zero_le limit)]
  | (key, value) :: members, hordered, hnumbers, limit => by
    have hvalue := value?_spelled value hordered.1 hnumbers.1 limit
    have hmembers := memberValues?_spelledMembers members hordered.2 hnumbers.2 limit
    rw [spelledMembers, memberValues?, StringPiece.text?_map_of, hvalue, hmembers, membersDepth]
    by_cases hfirst : value.depth ≤ limit
    · by_cases hrest : membersDepth members ≤ limit <;> simp [hfirst, hrest]
    · simp [hfirst]

end

end Written

end ApiCatalog
