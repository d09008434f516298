import ApiCatalog.Json.Binary64
import ApiCatalog.Keyed

/-!
# JSON values

A JSON value as the catalog works with it: numbers are integers or binary64 numbers, strings are
texts, and the members of an object stand in key order, each key once. `Json.Ordered` says the
latter of a whole tree.
-/

namespace ApiCatalog

/-- A number: an integer that fits 64 bits with or without a sign, or a binary64 number. The two
stay apart, so `1` and `1.0` differ. -/
inductive Number where
  | int (value : Int)
  | float (value : Binary64)
deriving DecidableEq, Repr, Inhabited

/-- A JSON value. -/
inductive Json where
  | null
  | bool (value : Bool)
  | number (value : Number)
  | string (value : String)
  | array (items : List Json)
  | object (members : List (String × Json))
deriving Repr, Inhabited

namespace Json

/-- A natural number. -/
def ofNat (n : Nat) : Json := .number (.int n)

/-- An object with the given members in any order. -/
def ofMembers (members : List (String × Json)) : Json := .object (Keyed.ofPairs members)

/-- A list of strings. -/
def ofTexts (texts : List String) : Json := .array (texts.map .string)

/-- A member whose value may be absent. -/
def optionalMember (name : String) (value : Option Json) : List (String × Json) :=
  (value.map (name, ·)).toList

/-- The text, if the value is a string. -/
def text? : Json → Option String
  | .string value => some value
  | _ => none

/-- The items, if the value is an array. -/
def items? : Json → Option (List Json)
  | .array items => some items
  | _ => none

/-- The members, if the value is an object. -/
def members? : Json → Option (List (String × Json))
  | .object members => some members
  | _ => none

/-- Only the value that is made of a text has this text. -/
theorem text?_eq_some_iff {value : Json} {text : String} :
    value.text? = some text ↔ value = .string text := by
  cases value <;> simp [text?]

/-- Only the array of these items has them. -/
theorem items?_eq_some_iff {value : Json} {items : List Json} :
    value.items? = some items ↔ value = .array items := by
  cases value <;> simp [items?]

/-- Only the object of these members has them. -/
theorem members?_eq_some_iff {value : Json} {members : List (String × Json)} :
    value.members? = some members ↔ value = .object members := by
  cases value <;> simp [members?]

/-- The member of an object stored under `key`. -/
def member? (key : String) (value : Json) : Option Json :=
  value.members?.bind (Keyed.get? key)

mutual

/-- The members of every object in the tree stand in key order, each key once. -/
def Ordered : Json → Prop
  | .array items => ItemsOrdered items
  | .object members => Keyed.Ordered members ∧ MembersOrdered members
  | _ => True

/-- Every item is ordered. -/
def ItemsOrdered : List Json → Prop
  | [] => True
  | item :: items => item.Ordered ∧ ItemsOrdered items

/-- The value of every member is ordered. -/
def MembersOrdered : List (String × Json) → Prop
  | [] => True
  | (_, value) :: members => value.Ordered ∧ MembersOrdered members

end

/-- Members are in order throughout if the values behind all keys are. -/
theorem membersOrdered_iff {members : List (String × Json)} :
    MembersOrdered members ↔ ∀ member ∈ members, member.2.Ordered := by
  induction members with
  | nil => exact iff_of_true trivial nofun
  | cons member members ih => rw [List.forall_mem_cons, MembersOrdered, ih]

end Json

end ApiCatalog
