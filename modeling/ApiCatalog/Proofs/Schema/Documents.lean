import ApiCatalog.Proofs.Json.Paths
import ApiCatalog.Proofs.Schema.Walk
import ApiCatalog.Proofs.Traversal

/-!
# The definitions of a document

The named schemas of a document are taken to definitions one by one (`ofSchemas_eq_ok_iff`). A
document in order has one definition under each name (`Definitions.Distinct`), so a schema that is
found for a kind names a definition that serves the kind and stands at the root of the schema
(`exists_of_lookup`). Whether that definition leads anywhere is not asked when it is found:
`Schema.hasField_nil_iff` says that a schema has so much as the empty path only if the references at
its root come to an end.
-/

namespace ApiCatalog

namespace Definitions

/-- No two definitions have one name. -/
def Distinct (d : Definitions) : Prop := (d.entries.map (·.name)).Nodup

variable {d : Definitions} {definition : Definition} {kind : GroupVersionKind} {name : String}
  {schemas : List (String × Json)} {schema document : Json} {failure : SchemaError}

/-- A schema makes a definition exactly if it has a shape. -/
theorem define_eq_ok_iff :
    define name schema = .ok definition ↔
      ∃ shape, Shape.ofJson schema = .ok shape ∧
        definition = ⟨name, shape, Definition.servedKinds schema⟩ := by
  rw [define]
  cases Shape.ofJson schema with
  | error cause => simp
  | ok shape => simp [eq_comm]

/-- A schema without a shape makes a failure that says its name. -/
theorem define_eq_error_iff :
    define name schema = .error failure ↔
      ∃ cause, Shape.ofJson schema = .error cause ∧ failure = .inDefinition name cause := by
  rw [define]
  cases Shape.ofJson schema with
  | error cause => simp [eq_comm]
  | ok shape => simp

/-- A definition has the name of its schema. -/
theorem name_of_define (h : define name schema = .ok definition) : definition.name = name := by
  obtain ⟨shape, -, rfl⟩ := define_eq_ok_iff.1 h
  rfl

/-- The first schema is taken to its definition, and then the others are. -/
theorem ofSchemas_cons (name : String) (schema : Json) (schemas : List (String × Json)) :
    ofSchemas ((name, schema) :: schemas) =
      (define name schema).bind fun definition =>
        (ofSchemas schemas).map fun d => ⟨definition :: d.entries⟩ := by
  simp only [ofSchemas, List.mapM_cons]
  cases define name schema with
  | error cause => rfl
  | ok definition => cases schemas.mapM fun schema => define schema.1 schema.2 <;> rfl

/-- There is a definition for each schema, in their order. -/
theorem ofSchemas_eq_ok_iff :
    ofSchemas schemas = .ok d ↔
      List.Forall₂ (fun schema definition => define schema.1 schema.2 = .ok definition)
        schemas d.entries := by
  rw [ofSchemas, Traversal.map_eq_ok_iff, ← Traversal.mapM_eq_ok_iff]
  constructor
  · intro h
    obtain ⟨entries, hentries, rfl⟩ := h
    exact hentries
  · intro h
    exact ⟨d.entries, h, rfl⟩

/-- The definitions have the names of the schemas, in their order. -/
theorem names_of_ofSchemas (h : ofSchemas schemas = .ok d) :
    d.entries.map (·.name) = schemas.map (·.1) := by
  refine (Traversal.map_eq_map (ofSchemas_eq_ok_iff.1 h) ?_).symm
  intro schema definition hdefine
  exact (name_of_define hdefine).symm

/-- Schemas with their names in order define every name once. -/
theorem distinct_of_ofSchemas (hordered : Keyed.Ordered schemas) (h : ofSchemas schemas = .ok d) :
    d.Distinct := by
  rw [Distinct, names_of_ofSchemas h]
  exact hordered.nodup_keys

/-- The named schemas of a document are the members of an object in it. -/
theorem bind_members?_eq_some_iff :
    (document.member? "definitions").bind Json.members? = some schemas ↔
      document.member? "definitions" = some (.object schemas) := by
  simp only [Option.bind_eq_some_iff, Json.members?_eq_some_iff, exists_eq_right]

/-- The definitions of a document are those of its named schemas. -/
theorem ofDocument_of_member?
    (h : document.member? "definitions" = some (.object schemas)) :
    ofDocument document = ofSchemas schemas := by
  rw [ofDocument, bind_members?_eq_some_iff.2 h]

/-- A document without named schemas has no definitions. -/
theorem ofDocument_of_forall_ne
    (h : ∀ schemas, document.member? "definitions" ≠ some (.object schemas)) :
    ofDocument document = .error .noDefinitions := by
  rw [ofDocument]
  split
  next schemas hschemas => exact absurd (bind_members?_eq_some_iff.1 hschemas) (h schemas)
  next => rfl

/-- A document whose members are in order defines every name once. -/
theorem distinct_of_ofDocument (hordered : document.Ordered)
    (h : ofDocument document = .ok d) : d.Distinct := by
  by_cases hschemas : ∃ schemas, document.member? "definitions" = some (.object schemas)
  · obtain ⟨schemas, hschemas⟩ := hschemas
    rw [ofDocument_of_member? hschemas] at h
    have hmembers : (Json.object schemas).Ordered := Json.ordered_of_member? hordered hschemas
    exact distinct_of_ofSchemas hmembers.1 h
  · rw [ofDocument_of_forall_ne (not_exists.1 hschemas)] at h
    cases h

/-- Every definition is found under its name. -/
theorem Distinct.shape?_of_mem (hdistinct : d.Distinct) (hmem : definition ∈ d.entries) :
    d.shape? definition.name = some definition.shape := by
  unfold shape?
  cases hfound : d.entries.find? (·.name = definition.name) with
  | none => simpa using List.find?_eq_none.1 hfound definition hmem
  | some found =>
      have hname : found.name = definition.name := by simpa using List.find?_some hfound
      obtain rfl := List.inj_on_of_nodup_map hdistinct (List.mem_of_find?_eq_some hfound) hmem hname
      rfl

/-- The definition that answers for a kind serves it. -/
theorem exists_of_serving? (h : d.serving? kind = some name) :
    ∃ definition ∈ d.entries, definition.name = name ∧ kind ∈ definition.serves := by
  obtain ⟨definition, hlast, rfl⟩ := Option.map_eq_some_iff.1 h
  obtain ⟨hmem, hserves⟩ := List.mem_filter.1 (List.mem_of_getLast? hlast)
  exact ⟨definition, hmem, rfl, of_decide_eq_true hserves⟩

/-- A schema that is found for a kind names the definition that answers for the kind. The definition
serves the kind and stands at the root of the schema. -/
theorem exists_of_lookup (hdistinct : d.Distinct) {schema : Schema}
    (h : d.lookup kind = some schema) :
    ∃ definition ∈ d.entries, d.serving? kind = some definition.name ∧
      schema = ⟨d, definition.name⟩ ∧ schema.root? = some definition.shape ∧
      kind ∈ definition.serves := by
  obtain ⟨name, hserving, rfl⟩ := Option.map_eq_some_iff.1 h
  obtain ⟨definition, hmem, rfl, hserves⟩ := exists_of_serving? hserving
  exact ⟨definition, hmem, hserving, rfl, hdistinct.shape?_of_mem hmem, hserves⟩

end Definitions

/-- A schema has the empty path exactly if the references at its root come to an end. -/
theorem Schema.hasField_nil_iff {s : Schema} {root : Shape} (hroot : s.root? = some root) :
    s.hasField [] = true ↔ ∃ target, s.definitions.Chased root target := by
  rw [hasField, Option.isSome_iff_exists]
  have hlookup : s.lookup [] = s.definitions.resolve hopLimit root := by
    rw [lookup, hroot]
    cases hroot : s.definitions.resolve hopLimit root with
    | none => simp [hroot]
    | some target => simp [hroot, Definitions.follow]
  simp only [hlookup, Definitions.resolve_hopLimit_eq_some_iff]

end ApiCatalog
