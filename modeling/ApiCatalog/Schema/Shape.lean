import ApiCatalog.Json.Basic

/-!
# Shapes of objects

An OpenAPI document describes every kind of object by a schema. Of a schema the catalog keeps only
the shape of the data, a `Shape`: which fields there are, and what stands in them. `Form.of` tells
from the members of a schema what it describes and which schemas stand below it, and
`Shape.ofJson` follows the forms down to the leaves. `Shape.toJson` goes the other way and spells
a shape as a schema.
-/

namespace ApiCatalog

/-- The shape of a value. -/
inductive Shape where
  /-- An object with named fields, in key order. -/
  | record (fields : List (String × Shape))
  /-- An object with any keys, whose values are alike. -/
  | map (values : Shape)
  /-- A list of values that are alike. -/
  | list (items : Shape)
  /-- A text, number or truth value. -/
  | scalar (type : String) (format : Option String)
  /-- Whatever another definition describes. -/
  | reference (name : String)
  /-- Any value. -/
  | anything
deriving Repr, Inhabited

/-- Why a document holds no usable schemas. -/
inductive SchemaError where
  | noDefinitions
  | notAnObject (found : Json)
  | referenceNotText
  | inDefinition (name : String) (cause : SchemaError)
deriving Repr, Inhabited

namespace Shape

mutual

/-- Shapes can be compared. -/
def decEq : (a b : Shape) → Decidable (a = b)
  | .record a, .record b => match decEqFields a b with
    | isTrue h => isTrue (h ▸ rfl)
    | isFalse h => isFalse fun same => h (Shape.record.inj same)
  | .map a, .map b => match decEq a b with
    | isTrue h => isTrue (h ▸ rfl)
    | isFalse h => isFalse fun same => h (Shape.map.inj same)
  | .list a, .list b => match decEq a b with
    | isTrue h => isTrue (h ▸ rfl)
    | isFalse h => isFalse fun same => h (Shape.list.inj same)
  | .scalar a f, .scalar b g =>
    if h : a = b ∧ f = g then isTrue (h.1 ▸ h.2 ▸ rfl)
    else isFalse fun same => h (Shape.scalar.inj same)
  | .reference a, .reference b =>
    if h : a = b then isTrue (h ▸ rfl) else isFalse fun same => h (Shape.reference.inj same)
  | .anything, .anything => isTrue rfl
  | .record _, .map _ | .record _, .list _ | .record _, .scalar _ _ | .record _, .reference _
  | .record _, .anything | .map _, .record _ | .map _, .list _ | .map _, .scalar _ _
  | .map _, .reference _ | .map _, .anything | .list _, .record _ | .list _, .map _
  | .list _, .scalar _ _ | .list _, .reference _ | .list _, .anything | .scalar _ _, .record _
  | .scalar _ _, .map _ | .scalar _ _, .list _ | .scalar _ _, .reference _
  | .scalar _ _, .anything | .reference _, .record _ | .reference _, .map _
  | .reference _, .list _ | .reference _, .scalar _ _ | .reference _, .anything
  | .anything, .record _ | .anything, .map _ | .anything, .list _ | .anything, .scalar _ _
  | .anything, .reference _ => isFalse Shape.noConfusion

/-- Lists of fields can be compared. -/
def decEqFields : (a b : List (String × Shape)) → Decidable (a = b)
  | [], [] => isTrue rfl
  | (m, a) :: as, (n, b) :: bs =>
    if name : m = n then
      match decEq a b, decEqFields as bs with
      | isTrue h, isTrue rest => isTrue (name ▸ h ▸ rest ▸ rfl)
      | isFalse h, _ => isFalse fun same => h (Prod.mk.inj (List.cons.inj same).1).2
      | _, isFalse h => isFalse fun same => h (List.cons.inj same).2
    else isFalse fun same => name (Prod.mk.inj (List.cons.inj same).1).1
  | [], _ :: _ => isFalse nofun
  | _ :: _, [] => isFalse nofun

end

instance : DecidableEq Shape := decEq

/-- The first characters of a reference to a definition of the same document. -/
def referenceRoot : String := "#/definitions/"

/-- The name of the definition that a reference points to. A reference that does not begin like
one into the same document is taken as a name itself. -/
def referenceName (target : String) : String :=
  if referenceRoot.toList.isPrefixOf target.toList then
    String.ofList (target.toList.drop referenceRoot.length)
  else target

/-- What a schema describes, and the schemas below it. -/
inductive Form where
  /-- A reference, with what stands in the place of its target. -/
  | reference (target : Json)
  /-- A list of alternatives that has a single one. -/
  | alternative (only : Json)
  /-- Named fields, each with its schema. -/
  | record (fields : List (String × Json))
  /-- A list, with the schema of its items if there is one. -/
  | list (items : Option Json)
  /-- Any keys, with the schema of their values. -/
  | map (values : Json)
  /-- A type of its own. -/
  | scalar (type : String) (format : Option String)
  /-- No description. -/
  | anything
deriving Repr

/-- The form of the members of a schema that is no reference, no single alternative and has no
fields, as their type tells. -/
def Form.ofType (members : List (String × Json)) : Form :=
  match Keyed.get? "type" members with
  | some (.string type) =>
    if type = "array" then .list (Keyed.get? "items" members)
    else if type = "object" then
      match Keyed.get? "additionalProperties" members with
      | some (.object values) => .map (.object values)
      | _ => .anything
    else .scalar type ((Keyed.get? "format" members).bind Json.text?)
  | _ => .anything

/-- The form of the members of a schema. A reference goes before a single alternative, and that
before fields. -/
def Form.of (members : List (String × Json)) : Form :=
  match Keyed.get? "$ref" members with
  | some target => .reference target
  | none =>
    match Keyed.get? "allOf" members with
    | some (.array [only]) => .alternative only
    | _ =>
      match Keyed.get? "properties" members with
      | some (.object fields) => .record fields
      | _ => Form.ofType members

/-- The schemas below a form are members of what it was made from. -/
theorem sizeOf_get?_lt {key : String} {members : List (String × Json)} {value : Json}
    (found : Keyed.get? key members = some value) : sizeOf value < sizeOf members := by
  induction members with
  | nil => simp at found
  | cons member rest ih =>
    obtain ⟨k, a⟩ := member
    unfold Keyed.get? at found
    split at found
    · cases found
      simp
      omega
    · have := ih found
      simp
      omega

/-- What the type of a schema points to is smaller than its members. -/
theorem Form.sizeOf_ofType {members : List (String × Json)} :
    (∀ items, Form.ofType members = .list (some items) → sizeOf items < sizeOf members) ∧
      (∀ values, Form.ofType members = .map values → sizeOf values < sizeOf members) := by
  unfold Form.ofType
  constructor <;> intro below <;> split <;> (try split) <;> (try split) <;> (try split) <;>
    intro same <;> simp_all
  · exact sizeOf_get?_lt same
  · subst same
    exact sizeOf_get?_lt (by assumption)

/-- A single alternative is smaller than the schema. -/
theorem Form.sizeOf_alternative {members : List (String × Json)} {only : Json}
    (form : Form.of members = .alternative only) : sizeOf only < sizeOf (Json.object members) := by
  unfold Form.of at form
  split at form
  · simp at form
  · split at form
    next found =>
      cases form
      have := sizeOf_get?_lt found
      simp at this ⊢
      omega
    next =>
      split at form
      · simp at form
      · unfold Form.ofType at form
        split at form <;> (try split at form) <;> (try split at form) <;> (try split at form) <;>
          simp at form

/-- The fields together are smaller than the schema. -/
theorem Form.sizeOf_record {members fields : List (String × Json)}
    (form : Form.of members = .record fields) : sizeOf fields < sizeOf (Json.object members) := by
  unfold Form.of at form
  split at form
  · simp at form
  · split at form
    · simp at form
    · split at form
      next found =>
        cases form
        have := sizeOf_get?_lt found
        simp at this ⊢
        omega
      next =>
        unfold Form.ofType at form
        split at form <;> (try split at form) <;> (try split at form) <;> (try split at form) <;>
          simp at form

/-- A form that comes from the type of a schema is `Form.ofType`. -/
theorem Form.of_eq_ofType {members : List (String × Json)}
    (form : (∃ items, Form.of members = .list items) ∨ ∃ values, Form.of members = .map values) :
    Form.of members = Form.ofType members := by
  unfold Form.of at form ⊢
  split at form
  · simp at form
  · split at form
    · simp at form
    · split at form
      · simp at form
      · simp_all

/-- The schema of the items is smaller than the schema of the list. -/
theorem Form.sizeOf_list {members : List (String × Json)} {items : Json}
    (form : Form.of members = .list (some items)) :
    sizeOf items < sizeOf (Json.object members) := by
  have same := Form.of_eq_ofType (.inl ⟨_, form⟩)
  have := Form.sizeOf_ofType.1 items (same ▸ form)
  simp
  omega

/-- The schema of the values is smaller than the schema of the map. -/
theorem Form.sizeOf_map {members : List (String × Json)} {values : Json}
    (form : Form.of members = .map values) : sizeOf values < sizeOf (Json.object members) := by
  have same := Form.of_eq_ofType (.inr ⟨_, form⟩)
  have := Form.sizeOf_ofType.2 values (same ▸ form)
  simp
  omega

mutual

/-- The shape that a schema describes. -/
def ofJson (schema : Json) : Except SchemaError Shape :=
  match schema with
  | .object members =>
    match form : Form.of members with
    | .reference (.string target) => .ok (.reference (referenceName target))
    | .reference _ => .error .referenceNotText
    | .alternative only =>
      have := Form.sizeOf_alternative form
      ofJson only
    | .record fields =>
      have := Form.sizeOf_record form
      (ofFields fields).map .record
    | .list (some items) =>
      have := Form.sizeOf_list form
      (ofJson items).map .list
    | .list none => .ok (.list .anything)
    | .map values =>
      have := Form.sizeOf_map form
      (ofJson values).map .map
    | .scalar type format => .ok (.scalar type format)
    | .anything => .ok .anything
  | other => .error (.notAnObject other)
termination_by sizeOf schema
decreasing_by all_goals (simp at *; omega)

/-- The shapes of named fields. The first field that has none decides the error. -/
def ofFields (fields : List (String × Json)) : Except SchemaError (List (String × Shape)) :=
  match fields with
  | [] => .ok []
  | (name, schema) :: rest => do
    let shape ← ofJson schema
    let shapes ← ofFields rest
    .ok ((name, shape) :: shapes)
termination_by sizeOf fields

end

mutual

/-- A schema that describes a shape. -/
def toJson : Shape → Json
  | .record fields => .object [("properties", .object (fieldsToJson fields))]
  | .map values => .object [("additionalProperties", toJson values), ("type", .string "object")]
  | .list items => .object [("items", toJson items), ("type", .string "array")]
  | .scalar type none => .object [("type", .string type)]
  | .scalar type (some format) =>
    .object [("format", .string format), ("type", .string type)]
  | .reference name => .object [("$ref", .string (referenceRoot ++ name))]
  | .anything => .object []

/-- Schemas that describe named fields. -/
def fieldsToJson : List (String × Shape) → List (String × Json)
  | [] => []
  | (name, shape) :: fields => (name, toJson shape) :: fieldsToJson fields

end

end Shape

end ApiCatalog
