import ApiCatalog.Schema.Shape
import ApiCatalog.Proofs.Traversal

/-!
# What decides the form of a schema

The keys of a schema are consulted one after the other, and the first that say something decide its
form. `Decides` has a rule for each form, and `decides_of` and `Decides.eq` say that `Form.of`
goes by these rules. `ofJson_object` takes a schema apart along its form, and `ofFields_eq_mapM`
does the same for named fields.
-/

namespace ApiCatalog.Shape

variable {members : List (String × Json)} {form : Form}

/-- The shape that a form describes. -/
def Form.shape : Form → Except SchemaError Shape
  | .reference (.string target) => .ok (.reference (referenceName target))
  | .reference _ => .error .referenceNotText
  | .alternative only => ofJson only
  | .record fields => (ofFields fields).map .record
  | .list (some items) => (ofJson items).map .list
  | .list none => .ok (.list .anything)
  | .map values => (ofJson values).map .map
  | .scalar type format => .ok (.scalar type format)
  | .anything => .ok .anything

/-- A schema describes what its form describes. -/
theorem ofJson_object (members : List (String × Json)) :
    ofJson (.object members) = (Form.of members).shape := by
  rw [ofJson]
  split <;> rename_i form <;> refine Eq.trans ?_ (congrArg Form.shape form.symm)
  case h_2 target hother =>
    rw [Form.shape]
    exact hother
  all_goals rfl

/-- The shapes of named fields are found one after the other. -/
theorem ofFields_eq_mapM (fields : List (String × Json)) :
    ofFields fields = fields.mapM fun field => (ofJson field.2).map (field.1, ·) := by
  induction fields with
  | nil =>
      rw [ofFields, List.mapM_nil]
      rfl
  | cons field rest ih =>
      rw [ofFields, Traversal.mapM_cons_eq, ← ih]
      cases ofJson field.2 with
      | error cause => rfl
      | ok shape => cases ofFields rest <;> rfl

/-! ## Rules for each form -/

/-- The members are no reference and have no single alternative. -/
def Direct (members : List (String × Json)) : Prop :=
  Keyed.get? "$ref" members = none ∧
    ∀ only, Keyed.get? "allOf" members ≠ some (.array [only])

/-- Only their type tells what the members describe: they are no reference, have no single
alternative and name no fields. -/
def Typed (members : List (String × Json)) : Prop :=
  Direct members ∧ ∀ fields, Keyed.get? "properties" members ≠ some (.object fields)

/-- The type that the members name. -/
def type? (members : List (String × Json)) : Option String :=
  (Keyed.get? "type" members).bind Json.text?

/-- `Decides members form` says that the members make a schema of that form. -/
inductive Decides (members : List (String × Json)) : Form → Prop where
  | reference (target) :
      Keyed.get? "$ref" members = some target → Decides members (.reference target)
  | alternative (only) :
      Keyed.get? "$ref" members = none → Keyed.get? "allOf" members = some (.array [only]) →
      Decides members (.alternative only)
  | record (fields) :
      Direct members → Keyed.get? "properties" members = some (.object fields) →
      Decides members (.record fields)
  | list :
      Typed members → type? members = some "array" →
      Decides members (.list (Keyed.get? "items" members))
  | map (values) :
      Typed members → type? members = some "object" →
      Keyed.get? "additionalProperties" members = some (.object values) →
      Decides members (.map (.object values))
  | object :
      Typed members → type? members = some "object" →
      (∀ values, Keyed.get? "additionalProperties" members ≠ some (.object values)) →
      Decides members .anything
  | scalar (type) :
      Typed members → type? members = some type → type ≠ "array" → type ≠ "object" →
      Decides members (.scalar type ((Keyed.get? "format" members).bind Json.text?))
  | untyped : Typed members → type? members = none → Decides members .anything

/-- The type decides the form of members that have nothing else to go by. -/
theorem Typed.decides_ofType (htyped : Typed members) :
    Decides members (Form.ofType members) := by
  unfold Form.ofType
  split
  next type hfound =>
    have htype : type? members = some type := by
      rw [type?, hfound, Option.bind_some, Json.text?]
    split
    next harray => exact .list htyped (harray ▸ htype)
    next harray =>
      split
      next hobject =>
        have hobjectType : type? members = some "object" := hobject ▸ htype
        split
        next values hvalues => exact .map values htyped hobjectType hvalues
        next hvalues => exact .object htyped hobjectType hvalues
      next hobject => exact .scalar type htyped htype harray hobject
  next hnone =>
    refine .untyped htyped ?_
    rw [type?, Option.bind_eq_none_iff]
    intro value hvalue
    cases value with
    | string type => exact absurd hvalue (hnone type)
    | null | bool | number | array | object => rfl

/-- The members make a schema of the form that is found. -/
theorem decides_of (members : List (String × Json)) : Decides members (Form.of members) := by
  unfold Form.of
  split
  next target href => exact .reference target href
  next href =>
    split
    next only hallOf => exact .alternative only href hallOf
    next hallOf =>
      have hdirect : Direct members := ⟨href, hallOf⟩
      split
      next fields hproperties => exact .record fields hdirect hproperties
      next hproperties => exact Typed.decides_ofType ⟨hdirect, hproperties⟩

/-- The type is the text behind its key. -/
theorem type?_eq_some_iff {type : String} :
    type? members = some type ↔ Keyed.get? "type" members = some (.string type) := by
  simp only [type?, Option.bind_eq_some_iff, Json.text?_eq_some_iff, exists_eq_right]

/-- Where neither a reference nor an alternative is in the way, properties make a record. -/
theorem Direct.of_eq_record {fields : List (String × Json)} (hdirect : Direct members)
    (hproperties : Keyed.get? "properties" members = some (.object fields)) :
    Form.of members = .record fields := by
  simp only [Form.of, hdirect.1, hproperties]
  split
  next only hallOf => exact absurd hallOf (hdirect.2 only)
  next => rfl

/-- Where nothing else is in the way, the type makes the form. -/
theorem Typed.of_eq_ofType (htyped : Typed members) :
    Form.of members = Form.ofType members := by
  simp only [Form.of, htyped.1.1]
  split
  next only hallOf => exact absurd hallOf (htyped.1.2 only)
  next =>
    split
    next fields hproperties => exact absurd hproperties (htyped.2 fields)
    next => rfl

/-- There is one form at most that the members make a schema of. -/
theorem Decides.eq (h : Decides members form) : Form.of members = form := by
  cases h with
  | reference target href => rw [Form.of, href]
  | alternative only href hallOf => rw [Form.of, href, hallOf]
  | record fields hdirect hproperties => exact hdirect.of_eq_record hproperties
  | list htyped htype =>
      rw [htyped.of_eq_ofType, Form.ofType, type?_eq_some_iff.1 htype]
      rfl
  | map values htyped htype hvalues =>
      rw [htyped.of_eq_ofType, Form.ofType, type?_eq_some_iff.1 htype, hvalues]
      rfl
  | object htyped htype hvalues =>
      rw [htyped.of_eq_ofType, Form.ofType, type?_eq_some_iff.1 htype]
      have hne : "object" ≠ "array" := by decide
      refine (if_neg hne).trans ((if_pos rfl).trans ?_)
      split
      next values hfound => exact absurd hfound (hvalues values)
      next => rfl
  | scalar type htyped htype harray hobject =>
      rw [htyped.of_eq_ofType, Form.ofType, type?_eq_some_iff.1 htype]
      exact (if_neg harray).trans (if_neg hobject)
  | untyped htyped htype =>
      rw [htyped.of_eq_ofType, Form.ofType]
      split
      next type hfound =>
        rw [type?_eq_some_iff.2 hfound] at htype
        cases htype
      next => rfl

end ApiCatalog.Shape
