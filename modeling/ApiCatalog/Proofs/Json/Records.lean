import ApiCatalog.Json.Decoding
import ApiCatalog.Proofs.Json.Values

/-!
# Records read back

A record is decoded from the fields of the text that spells its JSON form. `Written.Undoes` says
that a decoder undoes a form, and `spelledFields` are the fields of an object with given members,
which `Written.Has` looks up. A field that is in the form is decoded from its own member
(`Undoes.lastOr_eq`), and one that the form leaves out is absent (`Undoes.lastOr_none_eq`).
-/

namespace ApiCatalog

namespace Json

/-- The fields of the object with the given members. -/
def spelledFields (members : List (String × Json)) : List (String × Written) :=
  members.map fun member => (member.1, member.2.spelled)

/-- An optional member is found under its own name. -/
theorem get?_optionalMember (name key : String) (value : Option Json) :
    Keyed.get? key (optionalMember name value).reverse = if name = key then value else none := by
  cases value <;> simp [optionalMember, Keyed.get?]

end Json

namespace Written

open Json (spelledFields ofMembers)

variable {α : Type} {decode : Written → Option α} {form : α → Json}
  {fields : List (String × Written)} {key : String}

/-- The decoder undoes the form: it takes the text that spells a form to what has this form, and no
form is null. -/
structure Undoes (decode : Written → Option α) (form : α → Json) : Prop where
  decode_form : ∀ a, decode (form a).spelled = some a
  form_ne_null : ∀ a, (form a).spelled ≠ .null

/-- A text is undone. -/
theorem undoes_text : Undoes text? Json.string :=
  ⟨fun text => StringPiece.text?_map_of text, fun _ => nofun⟩

/-- A truth value is undone. -/
theorem undoes_flag : Undoes flag? Json.bool := ⟨fun _ => rfl, fun _ => nofun⟩

/-- A natural number that fits 64 bits is read from the text that spells it. -/
theorem natural?_ofNat {n : Nat} (hn : n < NumberLiteral.wordLimit) :
    (Json.ofNat n).spelled.natural? = some n := by
  have hvalue := (Number.readsBack_nat hn).2
  rw [Json.ofNat, Json.spelled, natural?, hvalue]

/-- A list is undone item by item. -/
theorem Undoes.list (h : Undoes decode form) :
    Undoes (list? decode) fun items => .array (items.map form) := by
  refine ⟨fun items => ?_, fun _ => nofun⟩
  show (Json.spelledItems (items.map form)).mapM decode = some items
  induction items with
  | nil => rfl
  | cons item items ih =>
      rw [List.map_cons, Json.spelledItems, List.mapM_cons, h.decode_form, ih]
      rfl

/-- A list of texts is undone. -/
theorem undoes_texts : Undoes (list? text?) Json.ofTexts := undoes_text.list

/-- The fields of an object are its members. -/
theorem fields?_object (members : List (String × Json)) :
    (Json.object members).spelled.fields? = some (spelledFields members) := by
  show fieldsOf (Json.spelledMembers members) = _
  induction members with
  | nil => rfl
  | cons member members ih =>
      rw [Json.spelledMembers, fieldsOf, StringPiece.text?_map_of, ih]
      rfl

/-- The fields of an object whose members are given in any order are these in key order. -/
theorem fields?_ofMembers (pairs : List (String × Json)) :
    (ofMembers pairs).spelled.fields? = some (spelledFields (Keyed.ofPairs pairs)) :=
  fields?_object (Keyed.ofPairs pairs)

/-- Among the fields, the key is that of one that spells the value, or of none if there is no
value. -/
def Has (fields : List (String × Written)) (key : String) (value : Option Json) : Prop :=
  occurrences key fields = (value.map Json.spelled).toList

/-- Members with different keys are the fields under these keys. -/
theorem has_spelledFields {members : List (String × Json)} (hnodup : (members.map (·.1)).Nodup)
    (key : String) : Has (spelledFields members) key (Keyed.get? key members) := by
  have hfilter := Keyed.filter_eq_toList_get? hnodup key
  rw [Has, occurrences, spelledFields, List.filter_map, List.map_map]
  have hcomp : ((fun field : String × Written => decide (field.1 = key)) ∘
      fun member : String × Json => (member.1, member.2.spelled)) = fun m => decide (m.1 = key) :=
    rfl
  rw [hcomp, hfilter]
  cases Keyed.get? key members <;> rfl

/-- Of several members with one key the last one is the field, and there is no other. -/
theorem has_ofPairs (pairs : List (String × Json)) (key : String) :
    Has (spelledFields (Keyed.ofPairs pairs)) key (Keyed.get? key pairs.reverse) := by
  rw [← Keyed.get?_ofPairs]
  exact has_spelledFields (Keyed.ordered_ofPairs pairs).nodup_keys key

/-- A field that must be there is decoded from its member. -/
theorem Has.required {value : Json} (hfound : Has fields key (some value)) :
    required key decode fields = decode value.spelled := by
  rw [Written.required, once, hfound]
  show (Option.map some (decode value.spelled)).join = _
  cases decode value.spelled <;> rfl

/-- A field that is not there takes its default. -/
theorem Has.lastOr_none (default : α) (hmissing : Has fields key none) :
    lastOr key default decode fields = some default := by
  rw [lastOr, last, hmissing]
  rfl

/-- A field that is there takes the value of its member, unless this is null. -/
theorem Has.lastOr_some (default : α) {value : Json} {a : α}
    (hfound : Has fields key (some value)) (hnull : value.spelled ≠ .null)
    (hdecode : decode value.spelled = some a) : lastOr key default decode fields = some a := by
  have hoptional : optional? decode value.spelled = some (some a) := by
    rw [optional?, hdecode, Option.map_some]
    exact hnull
  have hitems : [value.spelled].mapM (optional? decode) = some [some a] := by
    rw [List.mapM_cons, hoptional]
    rfl
  rw [lastOr, last, hfound, Option.map_some, Option.toList_some, hitems]
  rfl

/-- A field with a default is decoded from its member. -/
theorem Undoes.lastOr_eq (h : Undoes decode form) (default : α) {a : α}
    (hfound : Has fields key (some (form a))) : lastOr key default decode fields = some a :=
  hfound.lastOr_some default (h.form_ne_null a) (h.decode_form a)

/-- A field that may be absent is absent if the form leaves it out. -/
theorem Undoes.lastOr_none_eq (h : Undoes decode form) {value : Option α}
    (hfound : Has fields key (value.map form)) :
    lastOr key none (fun written => (decode written).map some) fields = some value := by
  cases value with
  | none => exact Has.lastOr_none none hfound
  | some a =>
      refine Has.lastOr_some none hfound (h.form_ne_null a) ?_
      rw [h.decode_form, Option.map_some]

/-- A label is its own text. -/
theorem Has.isLabelled {label : String} (hfound : Has fields key (some (.string label))) :
    isLabelled key label fields = true := by
  rw [Written.isLabelled, hfound, Option.map_some, Option.toList_some, List.all_cons, List.all_nil,
    Bool.and_true, undoes_text.decode_form]
  exact decide_eq_true rfl

end Written

end ApiCatalog
