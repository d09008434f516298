import ApiCatalog.Proofs.Schema.Forms

/-!
# Which parts of a schema are looked at

A schema is followed from one place to the next (`Below`, `Visits`), and only at these places it is
looked at, and only at the keys that decide the form (`SameKeys`). So a schema is rejected exactly
if it is unusable at a place that is visited, and whatever stands elsewhere makes no difference:
`ofJson_decided_by_visited` says both.

The proofs take one step at a time, along the rules of `Decides`: `exists_ofJson_eq_error_iff` for
what is rejected and `SameKeys.ofJson_eq` for what makes no difference. `below_induction` is the
induction from a schema to all that stand below it.
-/

namespace ApiCatalog.Shape

/-- Where a schema stands in the one above it. -/
inductive Place where
  /-- It is the single alternative. -/
  | alternative
  /-- It describes a field. -/
  | field (name : String)
  /-- It describes the items of a list. -/
  | items
  /-- It describes the values of a map. -/
  | values

/-- `Below schema place child` says that `child` is a schema that stands in another one at a place
where it is looked at. Nothing stands below a reference. Otherwise a single alternative does,
otherwise all fields do if there are any, and otherwise what the type asks for. -/
inductive Below : Json → Place → Json → Prop where
  | alternative (members only) :
      Keyed.get? "$ref" members = none → Keyed.get? "allOf" members = some (.array [only]) →
      Below (.object members) .alternative only
  | field (members fields name child) :
      Direct members → Keyed.get? "properties" members = some (.object fields) →
      (name, child) ∈ fields → Below (.object members) (.field name) child
  | items (members child) :
      Typed members → type? members = some "array" → Keyed.get? "items" members = some child →
      Below (.object members) .items child
  | values (members values) :
      Typed members → type? members = some "object" →
      Keyed.get? "additionalProperties" members = some (.object values) →
      Below (.object members) .values (.object values)

/-- `Visits schema position found` says that the places of a position lead to `found`. -/
inductive Visits : Json → List Place → Json → Prop where
  | here (schema) : Visits schema [] schema
  | step (schema place child position found) :
      Below schema place child → Visits child position found →
      Visits schema (place :: position) found

/-- What stands at a place is no object, or it has a reference that is no text. -/
def Unusable (found : Json) : Prop :=
  found.members? = none ∨ ∃ target, found.member? "$ref" = some target ∧ target.text? = none

/-- The names of the fields that the members list, if they do. -/
def fieldNames? (members : List (String × Json)) : Option (List String) :=
  ((Keyed.get? "properties" members).bind Json.members?).map fun fields => fields.map (·.1)

/-- The members agree with others on the keys that are consulted: on `$ref`, without it on whether
`allOf` has a single alternative, without one on the names in `properties`, without those on `type`,
and then on the key that goes with the type. Schemas that stand below are left to themselves. -/
structure SameKeys (members others : List (String × Json)) : Prop where
  reference :
    (Keyed.get? "$ref" members).map Json.text? = (Keyed.get? "$ref" others).map Json.text?
  alternative : Keyed.get? "$ref" members = none →
    ((∃ only, Keyed.get? "allOf" members = some (.array [only])) ↔
      ∃ only, Keyed.get? "allOf" others = some (.array [only]))
  fields : Direct members → fieldNames? members = fieldNames? others
  type : Typed members → type? members = type? others
  items : Typed members → type? members = some "array" →
    ((∃ child, Keyed.get? "items" members = some child) ↔
      ∃ child, Keyed.get? "items" others = some child)
  values : Typed members → type? members = some "object" →
    ((∃ values, Keyed.get? "additionalProperties" members = some (.object values)) ↔
      ∃ values, Keyed.get? "additionalProperties" others = some (.object values))
  format : Typed members →
    ∀ type, type? members = some type → type ≠ "array" → type ≠ "object" →
      (Keyed.get? "format" members).bind Json.text? = (Keyed.get? "format" others).bind Json.text?

/-- What is found at a place is alike: two objects that agree on the keys that are consulted, or one
and the same value that is no object. -/
inductive Alike : Json → Json → Prop where
  | object (members others) : SameKeys members others → Alike (.object members) (.object others)
  | value (found) : found.members? = none → Alike found found

/-- Wherever both schemas are visited, they are alike. -/
def Agree (schema other : Json) : Prop :=
  ∀ position found otherFound, Visits schema position found → Visits other position otherFound →
    Alike found otherFound

variable {schema other child : Json} {place : Place} {members others : List (String × Json)}

/-! ## From a schema to those below it -/

/-- What stands below a schema is smaller. -/
theorem Below.sizeOf_lt (h : Below schema place child) : sizeOf child < sizeOf schema := by
  cases h with
  | alternative members only _ hallOf =>
      have hsize := sizeOf_get?_lt hallOf
      simp only [Json.array.sizeOf_spec, Json.object.sizeOf_spec, List.cons.sizeOf_spec] at hsize ⊢
      omega
  | field members fields name child _ hproperties hmem =>
      have hsize := sizeOf_get?_lt hproperties
      have hfield := List.sizeOf_lt_of_mem hmem
      simp only [Json.object.sizeOf_spec, Prod.mk.sizeOf_spec] at hsize hfield ⊢
      omega
  | items members child _ _ hitems =>
      have hsize := sizeOf_get?_lt hitems
      simp only [Json.object.sizeOf_spec] at hsize ⊢
      omega
  | values members values _ _ hvalues =>
      have hsize := sizeOf_get?_lt hvalues
      simp only [Json.object.sizeOf_spec] at hsize ⊢
      omega

/-- What holds of a schema whenever it holds of all below it, holds of every schema. -/
@[elab_as_elim]
theorem below_induction {motive : Json → Prop}
    (step : ∀ schema, (∀ place child, Below schema place child → motive child) → motive schema)
    (schema : Json) : motive schema :=
  step schema fun _ child _ => below_induction step child
termination_by sizeOf schema
decreasing_by
  rename_i hbelow
  exact hbelow.sizeOf_lt

/-! ## What is rejected -/

/-- A reference has a shape exactly if it is a text. -/
theorem shape_reference (target : Json) :
    Form.shape (.reference target) = match target.text? with
      | some text => .ok (.reference (referenceName text))
      | none => .error .referenceNotText := by
  cases target <;> rfl

/-- Fields are at fault exactly if the schema of one of them is. -/
theorem exists_ofFields_eq_error_iff {fields : List (String × Json)} :
    (∃ cause, ofFields fields = .error cause) ↔
      ∃ name child, (name, child) ∈ fields ∧ ∃ cause, ofJson child = .error cause := by
  rw [ofFields_eq_mapM, Traversal.exists_mapM_eq_error_iff]
  simp only [Traversal.map_eq_error_iff, Prod.exists]

/-- What is no object has no shape. -/
theorem ofJson_of_members?_eq_none (h : schema.members? = none) :
    ofJson schema = .error (.notAnObject schema) := by
  cases schema with
  | object => cases h
  | null | bool | number | string | array =>
      rw [ofJson]
      intro members hsame
      cases hsame

/-- What is rejected is unusable itself, or a schema below it is rejected. -/
theorem unusable_or_exists_below {cause : SchemaError} (h : ofJson schema = .error cause) :
    Unusable schema ∨ ∃ place child, Below schema place child ∧
      ∃ cause, ofJson child = .error cause := by
  cases schema with
  | object members =>
      have hdecides := decides_of members
      rw [ofJson_object] at h
      generalize Form.of members = form at hdecides h
      cases hdecides with
      | reference target href =>
          rw [shape_reference] at h
          cases htext : target.text? with
          | none => exact .inl (.inr ⟨target, href, htext⟩)
          | some text =>
              rw [htext] at h
              cases h
      | alternative only href hallOf =>
          exact .inr ⟨_, only, .alternative members only href hallOf, cause, h⟩
      | record fields hdirect hproperties =>
          obtain ⟨name, child, hmem, hchild⟩ := exists_ofFields_eq_error_iff.1
            ⟨cause, Traversal.map_eq_error_iff.1 h⟩
          exact .inr ⟨_, child, .field members fields name child hdirect hproperties hmem, hchild⟩
      | list htyped htype =>
          cases hitems : Keyed.get? "items" members with
          | none =>
              rw [hitems] at h
              cases h
          | some child =>
              rw [hitems] at h
              exact .inr ⟨_, child, .items members child htyped htype hitems, cause,
                Traversal.map_eq_error_iff.1 h⟩
      | map values htyped htype hvalues =>
          exact .inr ⟨_, _, .values members values htyped htype hvalues, cause,
            Traversal.map_eq_error_iff.1 h⟩
      | object | scalar | untyped => cases h
  | null | bool | number | string | array => exact .inl (.inl rfl)

/-- What is unusable has no shape. -/
theorem exists_error_of_unusable (h : Unusable schema) :
    ∃ cause, ofJson schema = .error cause := by
  cases schema with
  | object members =>
      obtain hnone | ⟨target, href, htext⟩ := h
      · cases hnone
      · have hform : Form.of members = .reference target := (Decides.reference target href).eq
        rw [ofJson_object, hform, shape_reference, htext]
        exact ⟨_, rfl⟩
  | null | bool | number | string | array => exact ⟨_, ofJson_of_members?_eq_none rfl⟩

/-- A schema is rejected together with any schema below it. -/
theorem exists_error_of_below (hbelow : Below schema place child)
    (h : ∃ cause, ofJson child = .error cause) : ∃ cause, ofJson schema = .error cause := by
  obtain ⟨cause, hchild⟩ := h
  cases hbelow with
  | alternative members _ href hallOf =>
      refine ⟨cause, ?_⟩
      rw [ofJson_object, (Decides.alternative child href hallOf).eq]
      exact hchild
  | field members fields name child hdirect hproperties hmem =>
      obtain ⟨first, hfirst⟩ := exists_ofFields_eq_error_iff.2 ⟨name, child, hmem, cause, hchild⟩
      refine ⟨first, ?_⟩
      rw [ofJson_object, (Decides.record fields hdirect hproperties).eq]
      exact Traversal.map_eq_error_iff.2 hfirst
  | items members child htyped htype hitems =>
      refine ⟨cause, ?_⟩
      rw [ofJson_object, (Decides.list htyped htype).eq, hitems]
      exact Traversal.map_eq_error_iff.2 hchild
  | values members values htyped htype hvalues =>
      refine ⟨cause, ?_⟩
      rw [ofJson_object, (Decides.map values htyped htype hvalues).eq]
      exact Traversal.map_eq_error_iff.2 hchild

/-- A schema is rejected exactly if it is unusable at a place that is visited. -/
theorem exists_ofJson_eq_error_iff :
    (∃ cause, ofJson schema = .error cause) ↔
      ∃ position found, Visits schema position found ∧ Unusable found := by
  constructor
  · induction schema using below_induction with
    | step schema ih =>
        intro h
        obtain ⟨cause, h⟩ := h
        -- The fault is here, or one step further down at least.
        obtain hunusable | ⟨place, child, hbelow, hchild⟩ := unusable_or_exists_below h
        · exact ⟨[], schema, .here schema, hunusable⟩
        · obtain ⟨position, found, hvisits, hunusable⟩ := ih place child hbelow hchild
          exact ⟨place :: position, found, .step _ _ _ _ _ hbelow hvisits, hunusable⟩
  · intro h
    obtain ⟨position, found, hvisits, hunusable⟩ := h
    induction hvisits with
    | here => exact exists_error_of_unusable hunusable
    | step _ _ _ _ _ hbelow _ ih => exact exists_error_of_below hbelow (ih hunusable)

/-! ## What makes no difference -/

namespace SameKeys

variable (h : SameKeys members others)
include h

/-- The others have no reference either. -/
theorem get?_reference_eq_none (href : Keyed.get? "$ref" members = none) :
    Keyed.get? "$ref" others = none := by
  have hreference := h.reference
  rw [href, Option.map_none] at hreference
  exact Option.map_eq_none_iff.1 hreference.symm

/-- Nothing comes before the properties of the others either. -/
theorem direct (hdirect : Direct members) : Direct others := by
  refine ⟨h.get?_reference_eq_none hdirect.1, ?_⟩
  intro only hallOf
  obtain ⟨single, hsingle⟩ := (h.alternative hdirect.1).2 ⟨only, hallOf⟩
  exact hdirect.2 single hsingle

end SameKeys

/-- Names of fields are listed by an object of properties. -/
theorem fieldNames?_eq_some_iff {names : List String} :
    fieldNames? members = some names ↔
      ∃ fields, Keyed.get? "properties" members = some (.object fields) ∧
        fields.map (·.1) = names := by
  simp only [fieldNames?, Option.map_eq_some_iff, Option.bind_eq_some_iff,
    Json.members?_eq_some_iff, exists_eq_right]

/-- Among the others the type decides too. -/
theorem SameKeys.typed (h : SameKeys members others) (htyped : Typed members) : Typed others := by
  refine ⟨h.direct htyped.1, ?_⟩
  intro fields hproperties
  have hnames := h.fields htyped.1
  rw [fieldNames?_eq_some_iff.2 ⟨fields, hproperties, rfl⟩, fieldNames?_eq_some_iff] at hnames
  obtain ⟨own, hown, -⟩ := hnames
  exact htyped.2 own hown

/-- Fields with the same names, whose schemas describe the same shapes or are rejected alike, do so
together. -/
theorem ofFields_congr {fields otherFields : List (String × Json)}
    (hnames : fields.map (·.1) = otherFields.map (·.1))
    (hsame : ∀ name child otherChild, (name, child) ∈ fields → (name, otherChild) ∈ otherFields →
      ofJson child = ofJson otherChild) :
    ofFields fields = ofFields otherFields := by
  induction fields generalizing otherFields with
  | nil =>
      cases otherFields with
      | nil => rfl
      | cons => cases hnames
  | cons field fields ih =>
      cases otherFields with
      | nil => cases hnames
      | cons otherField otherFields =>
          obtain ⟨name, child⟩ := field
          obtain ⟨otherName, otherChild⟩ := otherField
          obtain ⟨hname, hrestNames⟩ := List.cons.inj hnames
          obtain rfl : name = otherName := hname
          have hchild : ofJson child = ofJson otherChild :=
            hsame name _ _ List.mem_cons_self List.mem_cons_self
          have hrest : ofFields fields = ofFields otherFields :=
            ih hrestNames fun name child otherChild hmem hother =>
              hsame name _ _ (List.mem_cons_of_mem _ hmem) (List.mem_cons_of_mem _ hother)
          rw [ofFields, ofFields, hchild, hrest]

section Below

variable (h : SameKeys members others)
  (hbelow : ∀ place child otherChild, Below (.object members) place child →
    Below (.object others) place otherChild → ofJson child = ofJson otherChild)
include h hbelow

/-- Members and others make the same record if the schemas of their fields have the same shapes. -/
theorem SameKeys.shape_record_eq {fields : List (String × Json)} (hdirect : Direct members)
    (hproperties : Keyed.get? "properties" members = some (.object fields)) :
    (Form.record fields).shape = (Form.of others).shape := by
  have hnames := h.fields hdirect
  rw [fieldNames?_eq_some_iff.2 ⟨fields, hproperties, rfl⟩] at hnames
  obtain ⟨otherFields, hother, hsame⟩ := fieldNames?_eq_some_iff.1 hnames.symm
  have hfields : ofFields fields = ofFields otherFields := by
    refine ofFields_congr hsame.symm ?_
    intro name child otherChild hmem hotherMem
    exact hbelow _ _ _ (.field members fields name child hdirect hproperties hmem)
      (.field others otherFields name otherChild (h.direct hdirect) hother hotherMem)
  rw [(Decides.record otherFields (h.direct hdirect) hother).eq, Form.shape, Form.shape, hfields]

/-- Members and others make the same list if their items have the same shape. -/
theorem SameKeys.shape_list_eq (htyped : Typed members) (htype : type? members = some "array") :
    (Form.list (Keyed.get? "items" members)).shape = (Form.of others).shape := by
  have hotherTyped := h.typed htyped
  have hotherType : type? others = some "array" := h.type htyped ▸ htype
  rw [(Decides.list hotherTyped hotherType).eq]
  have hsame := h.items htyped htype
  cases hitems : Keyed.get? "items" members with
  | none =>
      cases hotherItems : Keyed.get? "items" others with
      | none => rfl
      | some otherChild =>
          obtain ⟨child, hchild⟩ := hsame.2 ⟨otherChild, hotherItems⟩
          rw [hitems] at hchild
          cases hchild
  | some child =>
      obtain ⟨otherChild, hotherItems⟩ := hsame.1 ⟨child, hitems⟩
      have hchild : ofJson child = ofJson otherChild :=
        hbelow _ _ _ (.items members child htyped htype hitems)
          (.items others otherChild hotherTyped hotherType hotherItems)
      rw [hotherItems, Form.shape, Form.shape, hchild]

/-- Members and others make the same map if their values have the same shape. -/
theorem SameKeys.shape_map_eq {values : List (String × Json)} (htyped : Typed members)
    (htype : type? members = some "object")
    (hvalues : Keyed.get? "additionalProperties" members = some (.object values)) :
    (Form.map (.object values)).shape = (Form.of others).shape := by
  have hotherTyped := h.typed htyped
  have hotherType : type? others = some "object" := h.type htyped ▸ htype
  obtain ⟨otherValues, hotherValues⟩ := (h.values htyped htype).1 ⟨values, hvalues⟩
  have hchild : ofJson (.object values) = ofJson (.object otherValues) :=
    hbelow _ _ _ (.values members values htyped htype hvalues)
      (.values others otherValues hotherTyped hotherType hotherValues)
  rw [(Decides.map otherValues hotherTyped hotherType hotherValues).eq, Form.shape, Form.shape,
    hchild]

/-- Members that agree on the keys describe the same if the schemas below them do. -/
theorem SameKeys.ofJson_eq : ofJson (.object members) = ofJson (.object others) := by
  have hdecides := decides_of members
  rw [ofJson_object, ofJson_object]
  generalize Form.of members = form at hdecides
  cases hdecides with
  | reference target href =>
      have hreference := h.reference
      rw [href, Option.map_some] at hreference
      obtain ⟨otherTarget, hother, htext⟩ := Option.map_eq_some_iff.1 hreference.symm
      rw [(Decides.reference otherTarget hother).eq, shape_reference, shape_reference, htext]
  | alternative only href hallOf =>
      have hother := h.get?_reference_eq_none href
      obtain ⟨otherOnly, hotherAllOf⟩ := (h.alternative href).1 ⟨only, hallOf⟩
      rw [(Decides.alternative otherOnly hother hotherAllOf).eq]
      exact hbelow _ _ _ (.alternative members only href hallOf)
        (.alternative others otherOnly hother hotherAllOf)
  | record fields hdirect hproperties => exact h.shape_record_eq hbelow hdirect hproperties
  | list htyped htype => exact h.shape_list_eq hbelow htyped htype
  | map values htyped htype hvalues => exact h.shape_map_eq hbelow htyped htype hvalues
  | object htyped htype hvalues =>
      have hotherType : type? others = some "object" := h.type htyped ▸ htype
      have hotherValues : ∀ values,
          Keyed.get? "additionalProperties" others ≠ some (.object values) := by
        intro otherValues hother
        obtain ⟨values, hfound⟩ := (h.values htyped htype).2 ⟨otherValues, hother⟩
        exact hvalues values hfound
      rw [(Decides.object (h.typed htyped) hotherType hotherValues).eq]
  | scalar type htyped htype harray hobject =>
      have hotherType : type? others = some type := h.type htyped ▸ htype
      rw [(Decides.scalar type (h.typed htyped) hotherType harray hobject).eq,
        h.format htyped type htype harray hobject]
  | untyped htyped htype =>
      have hotherType : type? others = none := h.type htyped ▸ htype
      rw [(Decides.untyped (h.typed htyped) hotherType).eq]

end Below

/-! ## Schemas that agree -/

/-- Nothing below a reference is looked at. -/
theorem not_below_of_reference {target : Json} (href : Keyed.get? "$ref" members = some target) :
    ¬ Below (.object members) place child := by
  intro hbelow
  have hnone : Keyed.get? "$ref" members = none := by
    cases hbelow with
    | alternative _ _ hnone => exact hnone
    | field _ _ _ _ hdirect => exact hdirect.1
    | items _ _ htyped | values _ _ htyped => exact htyped.1.1
  rw [href] at hnone
  cases hnone

/-- Schemas that agree on their keys, and below which schemas agree, agree. -/
theorem SameKeys.agree (h : SameKeys members others)
    (hbelow : ∀ place child otherChild, Below (.object members) place child →
      Below (.object others) place otherChild → Agree child otherChild) :
    Agree (.object members) (.object others) := by
  intro position found otherFound hfound hother
  cases hfound with
  | here =>
      cases hother
      exact .object members others h
  | step _ place child position _ hchild hfound =>
      cases hother with
      | step _ _ otherChild _ _ hotherChild hother =>
          exact hbelow place child otherChild hchild hotherChild position _ _ hfound hother

/-- Two references with the same text agree, whatever stands beside them. -/
theorem agree_of_reference {target otherTarget : Json}
    (href : Keyed.get? "$ref" members = some target)
    (hother : Keyed.get? "$ref" others = some otherTarget)
    (htext : target.text? = otherTarget.text?) : Agree (.object members) (.object others) := by
  have hdirect : ¬ Direct members := by
    intro hdirect
    rw [hdirect.1] at href
    cases href
  have hkeys : SameKeys members others :=
    { reference := by rw [href, hother, Option.map_some, Option.map_some, htext]
      alternative := fun hnone => absurd (href.symm.trans hnone) (Option.some_ne_none _)
      fields := fun h => absurd h hdirect
      type := fun h => absurd h.1 hdirect
      items := fun h => absurd h.1 hdirect
      values := fun h => absurd h.1 hdirect
      format := fun h => absurd h.1 hdirect }
  exact hkeys.agree fun _ _ _ hchild _ => absurd hchild (not_below_of_reference href)

/-- Schemas that agree go on agreeing below. -/
theorem Agree.below {otherChild : Json} (h : Agree schema other) (hchild : Below schema place child)
    (hother : Below other place otherChild) : Agree child otherChild := by
  intro position found otherFound hfound hotherFound
  exact h (place :: position) found otherFound (.step _ _ _ _ _ hchild hfound)
    (.step _ _ _ _ _ hother hotherFound)

/-- Schemas that agree describe the same shape or are rejected alike. -/
theorem Agree.ofJson_eq (h : Agree schema other) : ofJson schema = ofJson other := by
  induction schema using below_induction generalizing other with
  | step schema ih =>
      cases h [] schema other (.here schema) (.here other) with
      | value => rfl
      | object members others hkeys =>
          refine hkeys.ofJson_eq ?_
          intro place child otherChild hchild hother
          exact ih place child hchild (h.below hchild hother)

/-- A schema is rejected exactly if some place that is visited holds no object, or an object whose
reference is no text. Schemas that agree at the visited places on the keys that are consulted
describe the same shape or are rejected alike, whatever else they contain. -/
theorem ofJson_decided_by_visited (schema : Json) :
    ((∃ cause, ofJson schema = .error cause) ↔
      ∃ position found, Visits schema position found ∧
        (found.members? = none ∨
          ∃ target, found.member? "$ref" = some target ∧ target.text? = none)) ∧
    ∀ other, Agree schema other → ofJson schema = ofJson other :=
  ⟨exists_ofJson_eq_error_iff, fun _ hagree => hagree.ofJson_eq⟩

/-! ## A schema with a description -/

namespace Commented

/-- The members of a schema with one field, which is a reference. -/
def plain : List (String × Json) :=
  [("properties", .object [("spec", .object [("$ref", .string "#/definitions/Spec")])])]

/-- The same schema with a description, a list of required fields, and properties beside the
reference that describe nothing. -/
def commented : List (String × Json) :=
  [("description", .string "An object with a specification."),
    ("properties", .object [("spec", .object
      [("$ref", .string "#/definitions/Spec"), ("properties", .bool true)])]),
    ("required", .array [.string "spec"])]

/-- Both schemas agree wherever they are visited. -/
theorem agree : Agree (.object plain) (.object commented) := by
  have hkeys : SameKeys plain commented :=
    { reference := rfl
      alternative := fun _ => by simp [plain, commented, Keyed.get?]
      fields := fun _ => rfl
      type := fun _ => rfl
      items := fun _ htype => absurd htype (by decide)
      values := fun _ htype => absurd htype (by decide)
      format := fun _ _ htype => absurd htype (Option.some_ne_none _).symm }
  refine hkeys.agree ?_
  intro place child otherChild hchild hother
  cases hchild with
  | alternative _ _ _ hallOf => cases hallOf
  | items _ _ _ htype => cases htype
  | values _ _ _ htype => cases htype
  | field _ fields name _ _ hproperties hmem =>
      cases hproperties
      obtain ⟨rfl, rfl⟩ := Prod.mk.inj (List.mem_singleton.1 hmem)
      cases hother with
      | field _ _ _ _ _ hproperties hmem =>
          cases hproperties
          obtain ⟨-, rfl⟩ := Prod.mk.inj (List.mem_singleton.1 hmem)
          exact agree_of_reference rfl rfl rfl

/-- What the one schema has beyond the other makes no difference. -/
theorem ofJson_commented :
    Agree (.object plain) (.object commented) ∧
      ofJson (.object plain) = ofJson (.object commented) :=
  ⟨agree, (ofJson_decided_by_visited (.object plain)).2 _ agree⟩

end Commented

end ApiCatalog.Shape
