import ApiCatalog.Schema.Definitions
import ApiCatalog.Proofs.Json.Coarse
import ApiCatalog.Proofs.Schema.Forms

/-!
# Definitions without fractions

No binary64 number decides what a schema describes, since none decides its form (`Form.of_coarse`).
So the shape of a coarse schema is the shape of the schema (`Shape.ofJson_coarse`), and two
documents that differ in binary64 numbers only have the same definitions, or neither has any
(`Definitions.toOption_ofDocument_eq`).
-/

namespace ApiCatalog

open Json (coarse coarseItems coarseMembers get?_coarseMembers)

/-- The error with all binary64 numbers made zero. -/
def SchemaError.coarse : SchemaError → SchemaError
  | .noDefinitions => .noDefinitions
  | .notAnObject found => .notAnObject found.coarse
  | .referenceNotText => .referenceNotText
  | .inDefinition name cause => .inDefinition name cause.coarse

namespace Shape

namespace Form

/-- The form of a coarse schema. -/
def coarse : Form → Form
  | .reference target => .reference target.coarse
  | .alternative only => .alternative only.coarse
  | .record fields => .record (coarseMembers fields)
  | .list items => .list (items.map Json.coarse)
  | .map values => .map values.coarse
  | .scalar type format => .scalar type format
  | .anything => .anything

variable (members : List (String × Json))

/-- Texts are the same when numbers are made coarse. -/
theorem bind_text?_coarse (found : Option Json) :
    (found.map Json.coarse).bind Json.text? = found.bind Json.text? := by
  cases found with
  | none => rfl
  | some value => cases value <;> rfl

/-- The type makes the same form when numbers are made coarse. -/
theorem ofType_coarse : Form.ofType (coarseMembers members) = (Form.ofType members).coarse := by
  unfold Form.ofType
  rw [get?_coarseMembers, get?_coarseMembers, get?_coarseMembers, get?_coarseMembers,
    bind_text?_coarse]
  cases Keyed.get? "type" members with
  | none => rfl
  | some type =>
      cases type with
      | string type =>
          simp only [Option.map_some, Json.coarse]
          split
          next => rfl
          next =>
            split
            next =>
              cases Keyed.get? "additionalProperties" members with
              | none => rfl
              | some values => cases values <;> rfl
            next => rfl
      | null | bool | number | array | object => rfl

/-- No binary64 number decides the form of a schema. -/
theorem of_coarse : Form.of (coarseMembers members) = (Form.of members).coarse := by
  unfold Form.of
  rw [get?_coarseMembers, get?_coarseMembers, get?_coarseMembers, ofType_coarse]
  cases Keyed.get? "$ref" members with
  | some target => rfl
  | none =>
      cases Keyed.get? "allOf" members with
      | none => rcases Keyed.get? "properties" members with _ | (_ | _ | _ | _ | _ | _) <;> rfl
      | some alternatives =>
          -- A single alternative goes before the fields, and any other number of them does not.
          rcases alternatives with _ | _ | _ | _ | (_ | ⟨only, _ | ⟨second, others⟩⟩) | _ <;>
            rcases Keyed.get? "properties" members with _ | (_ | _ | _ | _ | _ | _) <;> rfl

end Form

mutual

/-- The shape of a coarse schema is that of the schema. -/
theorem ofJson_coarse (schema : Json) :
    ofJson schema.coarse = (ofJson schema).mapError SchemaError.coarse := by
  match schema with
  | .object members =>
      rw [Json.coarse, ofJson_object, ofJson_object, Form.of_coarse]
      match form : Form.of members with
      | .reference target => cases target <;> rfl
      | .alternative only =>
          have := Form.sizeOf_alternative form
          exact ofJson_coarse only
      | .record fields =>
          have := Form.sizeOf_record form
          have hfields := ofFields_coarse fields
          simp only [Form.coarse, Form.shape, hfields]
          cases ofFields fields <;> rfl
      | .list (some items) =>
          have := Form.sizeOf_list form
          have hitems := ofJson_coarse items
          simp only [Form.coarse, Form.shape, Option.map_some, hitems]
          cases ofJson items <;> rfl
      | .list none => rfl
      | .map values =>
          have := Form.sizeOf_map form
          have hvalues := ofJson_coarse values
          simp only [Form.coarse, Form.shape, hvalues]
          cases ofJson values <;> rfl
      | .scalar _ _ => rfl
      | .anything => rfl
  | .null | .bool _ | .number _ | .string _ | .array _ =>
      simp [ofJson, Json.coarse, Except.mapError, SchemaError.coarse]
termination_by sizeOf schema
decreasing_by all_goals (simp at *; omega)

/-- The shapes of coarse fields are those of the fields. -/
theorem ofFields_coarse (fields : List (String × Json)) :
    ofFields (coarseMembers fields) = (ofFields fields).mapError SchemaError.coarse := by
  match fields with
  | [] => simp only [coarseMembers, ofFields, Except.mapError]
  | (name, schema) :: rest =>
      have hschema := ofJson_coarse schema
      have hrest := ofFields_coarse rest
      simp only [coarseMembers, ofFields, hschema, hrest]
      cases ofJson schema with
      | error => rfl
      | ok shape => cases ofFields rest <;> rfl
termination_by sizeOf fields

end

end Shape

namespace Definition

/-- No binary64 number decides which kinds a schema serves. -/
theorem servedKinds_coarse (schema : Json) :
    servedKinds schema.coarse = servedKinds schema := by
  have hkind : ∀ members, servedKind (coarseMembers members) = servedKind members := by
    intro members
    simp only [servedKind, get?_coarseMembers, Shape.Form.bind_text?_coarse]
  have hentries : ∀ items : List Json,
      (coarseItems items).filterMap (fun entry => entry.members?.map servedKind) =
        items.filterMap fun entry => entry.members?.map servedKind := by
    intro items
    rw [Json.coarseItems_eq_map, List.filterMap_map]
    refine List.filterMap_congr fun entry _ => ?_
    cases entry with
    | object members => exact congrArg some (hkind members)
    | null | bool | number | string | array => rfl
  cases schema with
  | object members =>
      have hfound : ((Json.object members).coarse.member? servesKey).bind Json.items? =
          (((Json.object members).member? servesKey).bind Json.items?).map coarseItems := by
        simp only [Json.member?, Json.coarse, Json.members?, Option.bind_some, get?_coarseMembers]
        cases Keyed.get? servesKey members with
        | none => rfl
        | some kinds => cases kinds <;> rfl
      rw [servedKinds, servedKinds, hfound]
      cases ((Json.object members).member? servesKey).bind Json.items? with
      | none => rfl
      | some items => exact hentries items
  | null | bool | number | string | array => rfl

end Definition

namespace Definitions

/-- A schema makes the same definition when numbers are made coarse, or a failure that differs in
them. -/
theorem define_coarse (name : String) (schema : Json) :
    define name schema.coarse = (define name schema).mapError SchemaError.coarse := by
  rw [define, define, Shape.ofJson_coarse, Definition.servedKinds_coarse]
  cases Shape.ofJson schema <;> rfl

/-- Schemas make the same definitions when numbers are made coarse, or a failure that differs in
them. -/
theorem ofSchemas_coarse (schemas : List (String × Json)) :
    ofSchemas (coarseMembers schemas) = (ofSchemas schemas).mapError SchemaError.coarse := by
  have hschemas : (coarseMembers schemas).mapM (fun schema => define schema.1 schema.2) =
      (schemas.mapM fun schema => define schema.1 schema.2).mapError SchemaError.coarse := by
    induction schemas with
    | nil => rfl
    | cons schema schemas ih =>
        rw [coarseMembers, List.mapM_cons, List.mapM_cons, define_coarse, ih]
        cases define schema.1 schema.2 with
        | error => rfl
        | ok definition =>
            cases schemas.mapM fun schema => define schema.1 schema.2 <;> rfl
  rw [ofSchemas, ofSchemas]
  exact (congrArg (Except.map Definitions.mk) hschemas).trans (by
    cases schemas.mapM fun schema => define schema.1 schema.2 <;> rfl)

/-- The definitions of a coarse document are those of the document. -/
theorem ofDocument_coarse (document : Json) :
    ofDocument document.coarse = (ofDocument document).mapError SchemaError.coarse := by
  cases document with
  | object members =>
      have hfound : ((Json.object members).coarse.member? "definitions").bind Json.members? =
          (((Json.object members).member? "definitions").bind Json.members?).map coarseMembers := by
        simp only [Json.member?, Json.coarse, Json.members?, Option.bind_some, get?_coarseMembers]
        cases Keyed.get? "definitions" members with
        | none => rfl
        | some schemas => cases schemas <;> rfl
      rw [ofDocument, ofDocument, hfound]
      cases ((Json.object members).member? "definitions").bind Json.members? with
      | none => rfl
      | some schemas => exact ofSchemas_coarse schemas
  | null | bool | number | string | array => rfl

/-- Documents that differ in binary64 numbers only have the same definitions, or neither has any. -/
theorem toOption_ofDocument_eq {document other : Json} (hsame : document.coarse = other.coarse) :
    (ofDocument document).toOption = (ofDocument other).toOption := by
  have hforget : ∀ document : Json,
      (ofDocument document).toOption = (ofDocument document.coarse).toOption := by
    intro document
    rw [ofDocument_coarse]
    cases ofDocument document <;> rfl
  rw [hforget document, hforget other, hsame]

end Definitions

end ApiCatalog
