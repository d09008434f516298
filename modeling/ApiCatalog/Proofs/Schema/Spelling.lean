import ApiCatalog.Proofs.Json.Paths
import ApiCatalog.Proofs.Schema.Visits

/-!
# Shapes spelled as schemas

`Shape.toJson` spells a shape as a schema, and `ofJson_toJson` reads the shape back from it. This
asks of every scalar in the shape that its type is not one that schemas have for lists and maps
(`OwnType`). The shapes of schemas are of this kind, by `everywhere_of_ofJson`: what holds of each
kind of shape as schemas describe it, holds everywhere in the shape of a schema.
`exists_ofJson_eq_iff` puts the two together.
-/

namespace ApiCatalog.Shape

mutual

/-- `Everywhere p shape` says that `p` holds of a shape and of all shapes within it. -/
def Everywhere (p : Shape → Prop) : Shape → Prop
  | .record fields => p (.record fields) ∧ EverywhereIn p fields
  | .map values => p (.map values) ∧ values.Everywhere p
  | .list items => p (.list items) ∧ items.Everywhere p
  | .scalar type format => p (.scalar type format)
  | .reference name => p (.reference name)
  | .anything => p .anything

/-- `EverywhereIn p fields` says that `p` holds everywhere in the shapes of the fields. -/
def EverywhereIn (p : Shape → Prop) : List (String × Shape) → Prop
  | [] => True
  | (_, shape) :: fields => shape.Everywhere p ∧ EverywhereIn p fields

end

/-- The type of a scalar is its own, not one that schemas have for lists and maps. -/
def OwnType : Shape → Prop
  | .scalar type _ => type ≠ "array" ∧ type ≠ "object"
  | _ => True

/-- The fields of a record stand in key order, each name once. -/
def FieldsOrdered : Shape → Prop
  | .record fields => Keyed.Ordered fields
  | _ => True

variable {p : Shape → Prop} {shape : Shape} {schema : Json}

/-- A property holds everywhere in the fields if it does in the shape of each. -/
theorem everywhereIn_iff {fields : List (String × Shape)} :
    EverywhereIn p fields ↔ ∀ field ∈ fields, field.2.Everywhere p := by
  induction fields with
  | nil => exact iff_of_true trivial fun _ hmem => absurd hmem List.not_mem_nil
  | cons field fields ih => rw [List.forall_mem_cons, EverywhereIn, ih]

/-! ## The shapes of schemas -/

/-- The shapes of named fields have the names of the fields, and each is the shape of one. -/
theorem forall₂_of_ofFields {fields : List (String × Json)} {shapes : List (String × Shape)}
    (h : ofFields fields = .ok shapes) :
    List.Forall₂ (fun field shape => field.1 = shape.1 ∧ ofJson field.2 = .ok shape.2)
      fields shapes := by
  rw [ofFields_eq_mapM, Traversal.mapM_eq_ok_iff] at h
  refine h.imp ?_
  intro field shape hfield
  obtain ⟨found, hfound, rfl⟩ := Traversal.map_eq_ok_iff.1 hfield
  exact ⟨rfl, hfound⟩

/-- What holds of each kind of shape as schemas describe it, holds everywhere in the shape of a
schema. The schemas may be restricted to some that have all schemas below them among them. -/
theorem everywhere_of_ofJson (among : Json → Prop)
    (hbelow : ∀ {schema place child}, among schema → Below schema place child → among child)
    (hrecord : ∀ members fields shapes, among (.object members) →
      Keyed.get? "properties" members = some (.object fields) →
      fields.map (·.1) = shapes.map (·.1) → p (.record shapes))
    (hscalar : ∀ type format, type ≠ "array" → type ≠ "object" → p (.scalar type format))
    (hlist : ∀ items, p (.list items)) (hmap : ∀ values, p (.map values))
    (hreference : ∀ name, p (.reference name)) (hanything : p .anything)
    (hschema : among schema) (h : ofJson schema = .ok shape) : shape.Everywhere p := by
  induction schema using below_induction generalizing shape with
  | step schema ih =>
      cases schema with
      | object members =>
          have hdecides := decides_of members
          rw [ofJson_object] at h
          generalize Form.of members = form at hdecides h
          cases hdecides with
          | reference target href =>
              rw [shape_reference] at h
              cases htext : target.text? with
              | none =>
                  rw [htext] at h
                  cases h
              | some text =>
                  rw [htext] at h
                  cases h
                  exact hreference _
          | alternative only href hallOf =>
              have hchild := Below.alternative members only href hallOf
              exact ih _ only hchild (hbelow hschema hchild) h
          | record fields hdirect hproperties =>
              obtain ⟨shapes, hshapes, rfl⟩ := Traversal.map_eq_ok_iff.1 h
              have hfields := forall₂_of_ofFields hshapes
              have hnames : fields.map (·.1) = shapes.map (·.1) :=
                Traversal.map_eq_map hfields fun _ _ hfield => hfield.1
              refine ⟨hrecord members fields shapes hschema hproperties hnames,
                everywhereIn_iff.2 ?_⟩
              intro field hfield
              obtain ⟨⟨name, child⟩, hmem, -, hfound⟩ :=
                Traversal.exists_of_mem_right hfields hfield
              have hchild := Below.field members fields name child hdirect hproperties hmem
              exact ih _ child hchild (hbelow hschema hchild) hfound
          | list htyped htype =>
              cases hitems : Keyed.get? "items" members with
              | none =>
                  rw [hitems] at h
                  cases h
                  exact ⟨hlist _, hanything⟩
              | some child =>
                  rw [hitems] at h
                  obtain ⟨items, hfound, rfl⟩ := Traversal.map_eq_ok_iff.1 h
                  have hchild := Below.items members child htyped htype hitems
                  exact ⟨hlist items, ih _ child hchild (hbelow hschema hchild) hfound⟩
          | map values htyped htype hvalues =>
              obtain ⟨found, hfound, rfl⟩ := Traversal.map_eq_ok_iff.1 h
              have hchild := Below.values members values htyped htype hvalues
              exact ⟨hmap found, ih _ _ hchild (hbelow hschema hchild) hfound⟩
          | scalar type _ _ harray hobject =>
              cases h
              exact hscalar type _ harray hobject
          | object | untyped =>
              cases h
              exact hanything
      | null | bool | number | string | array =>
          rw [ofJson_of_members?_eq_none rfl] at h
          cases h

/-- No schema describes a scalar with the name of another type. -/
theorem ownType_of_ofJson (h : ofJson schema = .ok shape) : shape.Everywhere OwnType :=
  everywhere_of_ofJson (fun _ => True) (fun _ _ => trivial)
    (fun _ _ _ _ _ _ => trivial) (fun _ _ harray hobject => ⟨harray, hobject⟩)
    (fun _ => trivial) (fun _ => trivial) (fun _ => trivial) trivial trivial h

/-- Whatever stands in a schema whose members are in order has its members in order. -/
theorem Below.ordered {place : Place} {child : Json} (hbelow : Below schema place child)
    (hordered : schema.Ordered) : child.Ordered := by
  cases hbelow with
  | alternative members _ _ hallOf =>
      have halternatives : (Json.array [child]).Ordered := Json.ordered_of_get? hordered hallOf
      exact halternatives.1
  | field members fields name child _ hproperties hmem =>
      have hfields : (Json.object fields).Ordered := Json.ordered_of_get? hordered hproperties
      exact Json.membersOrdered_iff.1 hfields.2 _ hmem
  | items members child _ _ hitems => exact Json.ordered_of_get? hordered hitems
  | values members values _ _ hvalues => exact Json.ordered_of_get? hordered hvalues

/-- The fields in the shape of a schema whose members are in order are in order. -/
theorem fieldsOrdered_of_ofJson (hordered : schema.Ordered) (h : ofJson schema = .ok shape) :
    shape.Everywhere FieldsOrdered := by
  refine everywhere_of_ofJson Json.Ordered (fun hordered hbelow => hbelow.ordered hordered)
    ?_ (fun _ _ _ _ => trivial) (fun _ => trivial) (fun _ => trivial) (fun _ => trivial) trivial
    hordered h
  intro members fields shapes hmembers hproperties hnames
  have hfields : (Json.object fields).Ordered := Json.ordered_of_get? hmembers hproperties
  have hkeys : (fields.map (·.1)).Pairwise (· < ·) := List.pairwise_map.2 hfields.1
  rw [hnames] at hkeys
  exact List.pairwise_map.1 hkeys

/-! ## Shapes as schemas -/

/-- The name of a definition is what follows the first characters of a reference to it. -/
theorem referenceName_append (name : String) : referenceName (referenceRoot ++ name) = name := by
  have hprefix : referenceRoot.toList.isPrefixOf (referenceRoot ++ name).toList = true := by
    rw [String.toList_append, List.isPrefixOf_iff_prefix]
    exact List.prefix_append _ _
  rw [referenceName, if_pos hprefix, String.toList_append, ← String.length_toList,
    List.drop_left, String.ofList_toList]

/-- A shape is spelled as an object. -/
theorem exists_members_toJson (shape : Shape) : ∃ members, shape.toJson = .object members := by
  cases shape with
  | scalar type format => cases format <;> exact ⟨_, rfl⟩
  | record | map | list | reference | anything => exact ⟨_, rfl⟩

/-- Where the keys that come before the type are missing, the type decides. -/
theorem typed_of_get?_eq_none {members : List (String × Json)}
    (href : Keyed.get? "$ref" members = none) (hallOf : Keyed.get? "allOf" members = none)
    (hproperties : Keyed.get? "properties" members = none) : Typed members := by
  refine ⟨⟨href, ?_⟩, ?_⟩
  · intro only hfound
    rw [hallOf] at hfound
    cases hfound
  · intro fields hfound
    rw [hproperties] at hfound
    cases hfound

mutual

/-- The shape is read back from the schema that spells it. -/
theorem ofJson_toJson (shape : Shape) (h : shape.Everywhere OwnType) :
    ofJson shape.toJson = .ok shape := by
  match shape, h with
  | .record fields, h =>
      have hfields := ofFields_fieldsToJson fields h.2
      rw [toJson, ofJson_object]
      have hform : Form.of [("properties", .object (fieldsToJson fields))] =
        .record (fieldsToJson fields) := rfl
      rw [hform, Form.shape, hfields]
      rfl
  | .map values, h =>
      have hvalues := ofJson_toJson values h.2
      -- Only an object counts as the schema of the values, and every shape is spelled as one.
      obtain ⟨members, hmembers⟩ := exists_members_toJson values
      rw [toJson, ofJson_object]
      rw [hmembers] at hvalues ⊢
      have hform : Form.of [("additionalProperties", .object members), ("type", .string "object")] =
        .map (.object members) := rfl
      rw [hform, Form.shape, hvalues]
      rfl
  | .list items, h =>
      have hitems := ofJson_toJson items h.2
      rw [toJson, ofJson_object]
      have hform : Form.of [("items", items.toJson), ("type", .string "array")] =
        .list (some items.toJson) := rfl
      rw [hform, Form.shape, hitems]
      rfl
  | .scalar type none, h =>
      have hdecides : Decides [("type", .string type)] (.scalar type none) :=
        .scalar type (typed_of_get?_eq_none rfl rfl rfl) rfl h.1 h.2
      rw [toJson, ofJson_object, hdecides.eq]
      rfl
  | .scalar type (some format), h =>
      have hdecides : Decides [("format", .string format), ("type", .string type)]
          (.scalar type (some format)) :=
        .scalar type (typed_of_get?_eq_none rfl rfl rfl) rfl h.1 h.2
      rw [toJson, ofJson_object, hdecides.eq]
      rfl
  | .reference name, _ =>
      rw [toJson, ofJson_object]
      have hform : Form.of [("$ref", .string (referenceRoot ++ name))] =
        .reference (.string (referenceRoot ++ name)) := rfl
      rw [hform, Form.shape, referenceName_append]
  | .anything, _ =>
      rw [toJson, ofJson_object]
      rfl

/-- The shapes of fields are read back from the schemas that spell them. -/
theorem ofFields_fieldsToJson (fields : List (String × Shape))
    (h : EverywhereIn OwnType fields) : ofFields (fieldsToJson fields) = .ok fields := by
  match fields, h with
  | [], _ => rw [fieldsToJson, ofFields]
  | (name, shape) :: fields, h =>
      have hshape := ofJson_toJson shape h.1
      have hfields := ofFields_fieldsToJson fields h.2
      rw [fieldsToJson, ofFields, hshape, hfields]
      rfl

end

/-- The names of the fields are those of the schemas that spell them. -/
theorem fieldsToJson_eq_map (fields : List (String × Shape)) :
    fieldsToJson fields = fields.map fun field => (field.1, field.2.toJson) := by
  induction fields with
  | nil => rfl
  | cons field fields ih => rw [fieldsToJson, ih, List.map_cons]

mutual

/-- A shape with its fields in order is spelled with its members in order. -/
theorem ordered_toJson (shape : Shape) (h : shape.Everywhere FieldsOrdered) :
    shape.toJson.Ordered := by
  match shape, h with
  | .record fields, h =>
      have hkeys : Keyed.Ordered (fieldsToJson fields) := by
        rw [fieldsToJson_eq_map]
        exact List.pairwise_map.2 h.1
      exact Json.ordered_singleton ⟨hkeys, membersOrdered_fieldsToJson fields h.2⟩
  | .map values, h =>
      exact Json.ordered_pair (by decide) (ordered_toJson values h.2) trivial
  | .list items, h =>
      exact Json.ordered_pair (by decide) (ordered_toJson items h.2) trivial
  | .scalar type none, _ => exact Json.ordered_singleton trivial
  | .scalar type (some format), _ => exact Json.ordered_pair (by decide) trivial trivial
  | .reference name, _ => exact Json.ordered_singleton trivial
  | .anything, _ => exact ⟨List.Pairwise.nil, trivial⟩

/-- What is written for fields in order is in order. -/
theorem membersOrdered_fieldsToJson (fields : List (String × Shape))
    (h : EverywhereIn FieldsOrdered fields) : Json.MembersOrdered (fieldsToJson fields) := by
  match fields, h with
  | [], _ => exact trivial
  | (name, shape) :: fields, h =>
      exact ⟨ordered_toJson shape h.1, membersOrdered_fieldsToJson fields h.2⟩

end

/-- The shapes of schemas are exactly those in which every scalar has a type of its own, with the
fields of their records in key order. Each of these shapes is read back from the schema that spells
it, whose members are in key order too. So the shape of a schema may be spelled and read again, and
stays what it was. -/
theorem exists_ofJson_eq_iff :
    (∀ shape, (∃ schema : Json, schema.Ordered ∧ ofJson schema = .ok shape) ↔
      shape.Everywhere FieldsOrdered ∧ shape.Everywhere OwnType) ∧
    (∀ shape, shape.Everywhere OwnType →
      ofJson shape.toJson = .ok shape ∧
        (shape.Everywhere FieldsOrdered → shape.toJson.Ordered)) ∧
    ∀ schema shape, ofJson schema = .ok shape → ofJson shape.toJson = .ok shape := by
  refine ⟨?_, fun shape h => ⟨ofJson_toJson shape h, ordered_toJson shape⟩, ?_⟩
  · intro shape
    constructor
    · intro h
      obtain ⟨schema, hordered, h⟩ := h
      exact ⟨fieldsOrdered_of_ofJson hordered h, ownType_of_ofJson h⟩
    · intro h
      exact ⟨shape.toJson, ordered_toJson shape h.1, ofJson_toJson shape h.2⟩
  · intro schema shape h
    exact ofJson_toJson shape (ownType_of_ofJson h)

/-- A shape with all kinds of parts, and with a reference to a name that looks like a reference. -/
def volume : Shape :=
  .record [("data", .anything), ("labels", .map (.scalar "string" none)),
    ("owners", .list (.reference "#/definitions/Owner")),
    ("size", .scalar "integer" (some "int64"))]

/-- The shape is read back from what is written for it. -/
theorem ofJson_toJson_volume :
    volume.Everywhere OwnType ∧ ofJson volume.toJson = .ok volume := by
  have hown : volume.Everywhere OwnType := by
    simp only [volume, Everywhere, EverywhereIn, OwnType]
    decide
  exact ⟨hown, (exists_ofJson_eq_iff.2.1 volume hown).1⟩

end ApiCatalog.Shape
