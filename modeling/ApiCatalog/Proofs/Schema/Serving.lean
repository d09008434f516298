import ApiCatalog.Proofs.Json.Paths
import ApiCatalog.Proofs.Schema.Documents
import ApiCatalog.Proofs.Schema.Forms
import ApiCatalog.Proofs.Text.Bytes
import ApiCatalog.Proofs.Traversal
import Mathlib.Data.List.Pairwise

/-!
# What a document defines

The definitions of a document in terms of the schemas that it names. `Definitions.mem_entries_iff`
says which definitions there are, and `Definitions.Reflects` what is found among them: under each
name the shape of its schema, and for each kind the greatest name of all whose schemas serve it.
`Definitions.ofDocument_spec` says when there are definitions at all, and which schema is at fault
if there are none.
-/

namespace ApiCatalog

namespace Definition

/-- The part of a kind under a key: its text, or the empty text if it is missing or no text. -/
def IsPart (entry : List (String × Json)) (key part : String) : Prop :=
  Keyed.get? key entry = some (.string part) ∨
    (∀ text, Keyed.get? key entry ≠ some (.string text)) ∧ part = ""

/-- The schema lists the kind: an object among the entries of its list gives the three parts. -/
def Serves (schema : Json) (kind : GroupVersionKind) : Prop :=
  ∃ entries entry, schema.member? servesKey = some (.array entries) ∧ .object entry ∈ entries ∧
    IsPart entry "group" kind.group ∧ IsPart entry "version" kind.version ∧
      IsPart entry "kind" kind.kind

/-- A part is what is read for it. -/
theorem part_eq_iff {entry : List (String × Json)} {key part : String} :
    ((Keyed.get? key entry).bind Json.text?).getD "" = part ↔ IsPart entry key part := by
  cases htext : (Keyed.get? key entry).bind Json.text? with
  | none =>
      have hno : ∀ text, Keyed.get? key entry ≠ some (.string text) := by
        intro text hfound
        rw [hfound] at htext
        cases htext
      constructor
      · intro h
        exact .inr ⟨hno, h.symm⟩
      · intro h
        obtain hfound | ⟨-, rfl⟩ := h
        · exact absurd hfound (hno part)
        · rfl
  | some text =>
      simp only [Option.bind_eq_some_iff, Json.text?_eq_some_iff, exists_eq_right] at htext
      rw [Option.getD_some, IsPart, htext]
      constructor
      · rintro rfl
        exact .inl rfl
      · intro h
        obtain hsame | ⟨hno, -⟩ := h
        · exact Json.string.inj (Option.some.inj hsame)
        · exact absurd rfl (hno text)

/-- The kinds that are noted for a schema are those that it lists. -/
theorem mem_servedKinds_iff {schema : Json} {kind : GroupVersionKind} :
    kind ∈ servedKinds schema ↔ Serves schema kind := by
  have hparts : ∀ entry, servedKind entry = kind ↔ IsPart entry "group" kind.group ∧
      IsPart entry "version" kind.version ∧ IsPart entry "kind" kind.kind := by
    intro entry
    obtain ⟨group, version, name⟩ := kind
    rw [← part_eq_iff, ← part_eq_iff, ← part_eq_iff, servedKind, GroupVersionKind.mk.injEq]
  rw [servedKinds, List.mem_filterMap]
  constructor
  · intro h
    obtain ⟨item, hitem, hkind⟩ := h
    obtain ⟨entry, hentry, hsame⟩ := Option.map_eq_some_iff.1 hkind
    obtain rfl := Json.members?_eq_some_iff.1 hentry
    cases hlist : (schema.member? servesKey).bind Json.items? with
    | none =>
        rw [hlist] at hitem
        exact absurd hitem List.not_mem_nil
    | some entries =>
        rw [hlist, Option.getD_some] at hitem
        simp only [Option.bind_eq_some_iff, Json.items?_eq_some_iff, exists_eq_right] at hlist
        exact ⟨entries, entry, hlist, hitem, (hparts entry).1 hsame⟩
  · intro h
    obtain ⟨entries, entry, hlist, hentry, hkind⟩ := h
    refine ⟨.object entry, ?_, ?_⟩
    · rw [hlist]
      exact hentry
    · exact congrArg some ((hparts entry).2 hkind)

end Definition

namespace Definitions

variable {d : Definitions} {definition : Definition} {schemas : List (String × Json)}
  {name : String} {schema : Json} {failure : SchemaError}

/-! ## The definitions of named schemas -/

/-- There is a definition for each schema, and no other. -/
theorem mem_entries_iff (h : ofSchemas schemas = .ok d) :
    definition ∈ d.entries ↔
      ∃ schema, (definition.name, schema) ∈ schemas ∧
        define definition.name schema = .ok definition := by
  rw [ofSchemas_eq_ok_iff] at h
  constructor
  · intro hmem
    obtain ⟨⟨name, schema⟩, hschema, hdefine⟩ := Traversal.exists_of_mem_right h hmem
    obtain rfl : definition.name = name := name_of_define hdefine
    exact ⟨schema, hschema, hdefine⟩
  · intro hschema
    obtain ⟨schema, hmem, hdefine⟩ := hschema
    obtain ⟨other, hother, hsame⟩ := Traversal.exists_of_mem_left h hmem
    obtain rfl : definition = other := Except.ok.inj (hdefine.symm.trans hsame)
    exact hother

/-- There is a definition exactly if the schema has a shape. -/
theorem exists_define_eq_ok_iff :
    (∃ definition, define name schema = .ok definition) ↔
      ∃ shape, Shape.ofJson schema = .ok shape := by
  simp only [define_eq_ok_iff]
  constructor
  · intro h
    obtain ⟨_, shape, hshape, -⟩ := h
    exact ⟨shape, hshape⟩
  · intro h
    obtain ⟨shape, hshape⟩ := h
    exact ⟨_, shape, hshape, rfl⟩

/-- The schemas make definitions exactly if each of them has a shape. -/
theorem exists_ofSchemas_eq_ok_iff :
    (∃ d, ofSchemas schemas = .ok d) ↔
      ∀ name schema, (name, schema) ∈ schemas → ∃ shape, Shape.ofJson schema = .ok shape := by
  have hall : (∃ d, ofSchemas schemas = .ok d) ↔
      ∃ entries, (schemas.mapM fun schema => define schema.1 schema.2) = .ok entries := by
    simp only [ofSchemas_eq_ok_iff, Traversal.mapM_eq_ok_iff]
    constructor
    · intro h
      obtain ⟨d, hd⟩ := h
      exact ⟨d.entries, hd⟩
    · intro h
      obtain ⟨entries, hentries⟩ := h
      exact ⟨⟨entries⟩, hentries⟩
  rw [hall, Traversal.exists_mapM_eq_ok_iff]
  simp only [exists_define_eq_ok_iff, Prod.forall]

/-- If the schemas make no definitions, the first one that has no shape is at fault. -/
theorem exists_split_of_ofSchemas_eq_error (h : ofSchemas schemas = .error failure) :
    ∃ before name schema after cause, schemas = before ++ (name, schema) :: after ∧
      (∀ entry ∈ before, ∃ shape, Shape.ofJson entry.2 = .ok shape) ∧
      Shape.ofJson schema = .error cause ∧ failure = .inDefinition name cause := by
  rw [ofSchemas, Traversal.map_eq_error_iff, Traversal.mapM_eq_error_iff] at h
  obtain ⟨before, ⟨name, schema⟩, after, hsplit, hbefore, hfails⟩ := h
  obtain ⟨cause, hcause, hfailure⟩ := define_eq_error_iff.1 hfails
  refine ⟨before, name, schema, after, cause, hsplit, ?_, hcause, hfailure⟩
  intro entry hentry
  exact exists_define_eq_ok_iff.1 (hbefore entry hentry)

/-! ## What is found among them -/

/-- What is found in definitions is what the schemas say that made them. -/
structure Reflects (d : Definitions) (schemas : List (String × Json)) : Prop where
  /-- There is one definition for each name. -/
  names : d.entries.map (·.name) = schemas.map (·.1)
  distinct : d.Distinct
  /-- Under a name is found the shape of its schema. -/
  shape? : ∀ name shape, d.shape? name = some shape ↔
    ∃ schema, (name, schema) ∈ schemas ∧ Shape.ofJson schema = .ok shape
  /-- The name that is found for a kind is the greatest of those whose schemas serve it. -/
  serving? : ∀ kind name, d.serving? kind = some name ↔
    (∃ schema, (name, schema) ∈ schemas ∧ Definition.Serves schema kind) ∧
      ∀ other schema, (other, schema) ∈ schemas → Definition.Serves schema kind →
        Text.bytes other ≤ Text.bytes name
  /-- None is found for a kind that no schema serves. -/
  unserved : ∀ kind, d.serving? kind = none ↔
    ∀ name schema, (name, schema) ∈ schemas → ¬ Definition.Serves schema kind

/-- The last one of texts in increasing order is the greatest. -/
theorem getLast?_eq_some_iff_greatest {names : List String} (hordered : names.Pairwise (· < ·)) :
    names.getLast? = some name ↔ name ∈ names ∧ ∀ other ∈ names, other ≤ name := by
  have hgreatest : ∀ {last}, names.getLast? = some last → ∀ other ∈ names, other ≤ last := by
    intro last hlast other hother
    obtain ⟨hne, rfl⟩ := List.mem_getLast?_eq_getLast hlast
    exact (hordered.imp Std.le_of_lt).rel_getLast hother
  constructor
  · intro hlast
    exact ⟨List.mem_of_getLast? hlast, hgreatest hlast⟩
  · intro h
    obtain ⟨hmem, hall⟩ := h
    cases hlast : names.getLast? with
    | none =>
        rw [List.getLast?_eq_none_iff] at hlast
        rw [hlast] at hmem
        exact absurd hmem List.not_mem_nil
    | some last =>
        have hle := hgreatest hlast name hmem
        have hge := hall last (List.mem_of_getLast? hlast)
        rw [String.le_antisymm hle hge]

/-- If the names are distinct, each has the shape of its definition. -/
theorem Distinct.shape?_eq_some_iff (hdistinct : d.Distinct) {shape : Shape} :
    d.shape? name = some shape ↔
      ∃ definition ∈ d.entries, definition.name = name ∧ definition.shape = shape := by
  constructor
  · intro h
    obtain ⟨definition, hfound, hshape⟩ := Option.map_eq_some_iff.1 h
    have hname : definition.name = name := by simpa using List.find?_some hfound
    exact ⟨definition, List.mem_of_find?_eq_some hfound, hname, hshape⟩
  · intro h
    obtain ⟨definition, hmem, rfl, rfl⟩ := h
    exact hdistinct.shape?_of_mem hmem

/-- The schemas that serve a kind are those of the definitions that do. -/
theorem exists_serving_iff (h : ofSchemas schemas = .ok d) {kind : GroupVersionKind} :
    (∃ definition ∈ d.entries, definition.name = name ∧ kind ∈ definition.serves) ↔
      ∃ schema, (name, schema) ∈ schemas ∧ Definition.Serves schema kind := by
  constructor
  · intro hdefinition
    obtain ⟨definition, hmem, rfl, hserves⟩ := hdefinition
    obtain ⟨schema, hschema, hdefine⟩ := (mem_entries_iff h).1 hmem
    obtain ⟨shape, -, hsame⟩ := define_eq_ok_iff.1 hdefine
    rw [hsame] at hserves
    exact ⟨schema, hschema, Definition.mem_servedKinds_iff.1 hserves⟩
  · intro hschema
    obtain ⟨schema, hmem, hserves⟩ := hschema
    -- There are definitions, so this schema has a shape like all others and makes one of them.
    obtain ⟨shape, hshape⟩ := exists_ofSchemas_eq_ok_iff.1 ⟨d, h⟩ name schema hmem
    refine ⟨⟨name, shape, Definition.servedKinds schema⟩, ?_, rfl,
      Definition.mem_servedKinds_iff.2 hserves⟩
    exact (mem_entries_iff h).2 ⟨schema, hmem, define_eq_ok_iff.2 ⟨shape, hshape, rfl⟩⟩

/-- The names of the definitions that serve a kind, in their order. -/
theorem serving?_eq_getLast? (d : Definitions) (kind : GroupVersionKind) :
    d.serving? kind = ((d.entries.filter (kind ∈ ·.serves)).map (·.name)).getLast? := by
  rw [serving?, List.getLast?_map]

/-- The names that serve a kind are those of definitions that do. -/
theorem mem_names_serving_iff {kind : GroupVersionKind} :
    name ∈ (d.entries.filter (kind ∈ ·.serves)).map (·.name) ↔
      ∃ definition ∈ d.entries, definition.name = name ∧ kind ∈ definition.serves := by
  simp only [List.mem_map, List.mem_filter, decide_eq_true_eq]
  constructor
  · intro h
    obtain ⟨definition, ⟨hmem, hserves⟩, hname⟩ := h
    exact ⟨definition, hmem, hname, hserves⟩
  · intro h
    obtain ⟨definition, hmem, hname, hserves⟩ := h
    exact ⟨definition, ⟨hmem, hserves⟩, hname⟩

/-- Under a name is found the shape of the schema with this name. -/
theorem shape?_eq_some_iff_of_ofSchemas (hdistinct : d.Distinct) (h : ofSchemas schemas = .ok d)
    {shape : Shape} :
    d.shape? name = some shape ↔
      ∃ schema, (name, schema) ∈ schemas ∧ Shape.ofJson schema = .ok shape := by
  rw [hdistinct.shape?_eq_some_iff]
  constructor
  · intro hfound
    obtain ⟨definition, hmem, rfl, rfl⟩ := hfound
    obtain ⟨schema, hschema, hdefine⟩ := (mem_entries_iff h).1 hmem
    obtain ⟨shape, hshape, hsame⟩ := define_eq_ok_iff.1 hdefine
    rw [hsame]
    exact ⟨schema, hsame ▸ hschema, hshape⟩
  · intro hfound
    obtain ⟨schema, hschema, hshape⟩ := hfound
    exact ⟨⟨name, shape, Definition.servedKinds schema⟩, (mem_entries_iff h).2
      ⟨schema, hschema, define_eq_ok_iff.2 ⟨shape, hshape, rfl⟩⟩, rfl, rfl⟩

/-- Of the names whose schemas serve a kind the greatest one answers for it. -/
theorem serving?_eq_some_iff_of_ofSchemas (hordered : Keyed.Ordered schemas)
    (h : ofSchemas schemas = .ok d) {kind : GroupVersionKind} :
    d.serving? kind = some name ↔
      (∃ schema, (name, schema) ∈ schemas ∧ Definition.Serves schema kind) ∧
        ∀ other schema, (other, schema) ∈ schemas → Definition.Serves schema kind →
          Text.bytes other ≤ Text.bytes name := by
  have hsorted : d.entries.Pairwise fun a b => a.name < b.name := by
    rw [← List.pairwise_map, names_of_ofSchemas h]
    exact List.pairwise_map.2 hordered
  have hserving : ((d.entries.filter (kind ∈ ·.serves)).map (·.name)).Pairwise (· < ·) :=
    List.pairwise_map.2 (hsorted.filter _)
  rw [serving?_eq_getLast?, getLast?_eq_some_iff_greatest hserving]
  simp only [mem_names_serving_iff, exists_serving_iff h, Text.bytes_le_iff]
  constructor
  · intro hfound
    refine ⟨hfound.1, ?_⟩
    intro other schema hschema hserves
    exact hfound.2 other ⟨schema, hschema, hserves⟩
  · intro hfound
    refine ⟨hfound.1, ?_⟩
    intro other hother
    obtain ⟨schema, hschema, hserves⟩ := hother
    exact hfound.2 other schema hschema hserves

/-- No name answers for a kind exactly if no schema serves it. -/
theorem serving?_eq_none_iff_of_ofSchemas (h : ofSchemas schemas = .ok d)
    {kind : GroupVersionKind} :
    d.serving? kind = none ↔
      ∀ name schema, (name, schema) ∈ schemas → ¬ Definition.Serves schema kind := by
  rw [serving?_eq_getLast?, List.getLast?_eq_none_iff, List.eq_nil_iff_forall_not_mem]
  simp only [mem_names_serving_iff, exists_serving_iff h, not_exists, not_and]

/-- What named schemas define, if their names are in order and each of them has a shape. -/
theorem reflects_of_ofSchemas (hordered : Keyed.Ordered schemas) (h : ofSchemas schemas = .ok d) :
    d.Reflects schemas :=
  { names := names_of_ofSchemas h
    distinct := distinct_of_ofSchemas hordered h
    shape? := fun _ _ => shape?_eq_some_iff_of_ofSchemas (distinct_of_ofSchemas hordered h) h
    serving? := fun _ _ => serving?_eq_some_iff_of_ofSchemas hordered h
    unserved := fun _ => serving?_eq_none_iff_of_ofSchemas h }

/-- The name that answers for a kind has a shape. -/
theorem Distinct.exists_shape_of_serving? (hdistinct : d.Distinct) {kind : GroupVersionKind}
    (h : d.serving? kind = some name) : ∃ shape, d.shape? name = some shape := by
  obtain ⟨definition, hmem, rfl, -⟩ := exists_of_serving? h
  exact ⟨definition.shape, hdistinct.shape?_of_mem hmem⟩

/-! ## Documents -/

variable {document : Json}

/-- There are definitions exactly if the document has schemas and each of them has a shape. -/
theorem exists_ofDocument_eq_ok_iff :
    (∃ d, ofDocument document = .ok d) ↔
      ∃ schemas, document.member? "definitions" = some (.object schemas) ∧
        ∀ name schema, (name, schema) ∈ schemas → ∃ shape, Shape.ofJson schema = .ok shape := by
  by_cases hschemas : ∃ schemas, document.member? "definitions" = some (.object schemas)
  · obtain ⟨schemas, hschemas⟩ := hschemas
    rw [ofDocument_of_member? hschemas, exists_ofSchemas_eq_ok_iff]
    constructor
    · intro hall
      exact ⟨schemas, hschemas, hall⟩
    · intro h
      obtain ⟨others, hothers, hall⟩ := h
      obtain rfl : schemas = others :=
        Json.object.inj (Option.some.inj (hschemas.symm.trans hothers))
      exact hall
  · rw [ofDocument_of_forall_ne (not_exists.1 hschemas)]
    constructor
    · intro h
      obtain ⟨d, h⟩ := h
      cases h
    · intro h
      obtain ⟨schemas, hfound, -⟩ := h
      exact absurd ⟨schemas, hfound⟩ hschemas

/-- If a document has no definitions, it does not name them in an object, or the first schema that
has no shape is at fault. -/
theorem ofDocument_eq_error_cases (hordered : document.Ordered)
    (h : ofDocument document = .error failure) :
    failure = .noDefinitions ∧
        (∀ schemas, document.member? "definitions" ≠ some (.object schemas)) ∨
      ∃ schemas name schema cause, document.member? "definitions" = some (.object schemas) ∧
        (name, schema) ∈ schemas ∧ Shape.ofJson schema = .error cause ∧
        (∀ other otherSchema, (other, otherSchema) ∈ schemas →
          Text.bytes other < Text.bytes name → ∃ shape, Shape.ofJson otherSchema = .ok shape) ∧
        failure = .inDefinition name cause := by
  by_cases hschemas : ∃ schemas, document.member? "definitions" = some (.object schemas)
  · obtain ⟨schemas, hschemas⟩ := hschemas
    have hmembers : (Json.object schemas).Ordered := Json.ordered_of_member? hordered hschemas
    rw [ofDocument_of_member? hschemas] at h
    obtain ⟨before, name, schema, after, cause, hsplit, hbefore, hcause, hfailure⟩ :=
      exists_split_of_ofSchemas_eq_error h
    subst hsplit
    refine .inr ⟨_, name, schema, cause, hschemas,
      List.mem_append_right _ List.mem_cons_self, hcause, ?_, hfailure⟩
    intro other otherSchema hmem hless
    exact hbefore _ (Keyed.mem_front_of_lt hmembers.1 hmem (Text.bytes_lt_iff.1 hless))
  · rw [ofDocument_of_forall_ne (not_exists.1 hschemas)] at h
    exact .inl ⟨(Except.error.inj h).symm, not_exists.1 hschemas⟩

/-- The definitions of a document reflect its schemas. -/
theorem exists_reflects_of_ofDocument (hordered : document.Ordered)
    (h : ofDocument document = .ok d) :
    ∃ schemas, document.member? "definitions" = some (.object schemas) ∧ d.Reflects schemas := by
  obtain ⟨schemas, hschemas, -⟩ := exists_ofDocument_eq_ok_iff.1 ⟨d, h⟩
  have hmembers : (Json.object schemas).Ordered := Json.ordered_of_member? hordered hschemas
  rw [ofDocument_of_member? hschemas] at h
  exact ⟨schemas, hschemas, reflects_of_ofSchemas hmembers.1 h⟩

/-- There are definitions in a document exactly if it names schemas in an object and each of them
has a shape. Otherwise there is no such object, or the first schema without a shape, in the order of
the bytes of the names, is at fault, and the message says its name. What is found among the
definitions is what the schemas say, and the name that answers for a kind always has a shape. -/
theorem ofDocument_spec (hordered : document.Ordered) :
    ((∃ d, ofDocument document = .ok d) ↔
      ∃ schemas, document.member? "definitions" = some (.object schemas) ∧
        ∀ name schema, (name, schema) ∈ schemas → ∃ shape, Shape.ofJson schema = .ok shape) ∧
    (∀ failure, ofDocument document = .error failure →
      failure = .noDefinitions ∧
          (∀ schemas, document.member? "definitions" ≠ some (.object schemas)) ∨
        ∃ schemas name schema cause, document.member? "definitions" = some (.object schemas) ∧
          (name, schema) ∈ schemas ∧ Shape.ofJson schema = .error cause ∧
          (∀ other otherSchema, (other, otherSchema) ∈ schemas →
            Text.bytes other < Text.bytes name → ∃ shape, Shape.ofJson otherSchema = .ok shape) ∧
          failure = .inDefinition name cause ∧ failure.message =
            "invalid OpenAPI document: definition " ++ name ++ ": " ++ cause.message) ∧
    ∀ d, ofDocument document = .ok d →
      (∃ schemas, document.member? "definitions" = some (.object schemas) ∧ d.Reflects schemas) ∧
        ∀ kind name, d.serving? kind = some name → ∃ shape, d.shape? name = some shape := by
  refine ⟨exists_ofDocument_eq_ok_iff, ?_, ?_⟩
  · intro failure h
    refine (ofDocument_eq_error_cases hordered h).imp_right ?_
    intro hfault
    obtain ⟨schemas, name, schema, cause, hschemas, hmem, hcause, hbefore, hfailure⟩ := hfault
    subst hfailure
    exact ⟨schemas, name, schema, cause, hschemas, hmem, hcause, hbefore, rfl, rfl⟩
  · intro d h
    refine ⟨exists_reflects_of_ofDocument hordered h, ?_⟩
    intro kind name
    exact (distinct_of_ofDocument hordered h).exists_shape_of_serving?

end Definitions

/-! ## A kind that two schemas serve -/

namespace Shared

/-- A schema without a description, which lists a kind of its own. -/
def schema (serves : List Json) : Json :=
  .object [("x-kubernetes-group-version-kind", .array serves)]

/-- A document in which two schemas serve the pods. The group is missing in one entry and is no text
in the other, and beside that entry stands one that is no object. -/
def document : Json :=
  .object [("definitions", .object
    [("Pod", schema [.object [("kind", .string "Pod"), ("version", .string "v1")]]),
      ("PodAlias", schema [.string "Pod", .object
        [("group", .null), ("kind", .string "Pod"), ("version", .string "v1")]])])]

/-- The definitions of the document. -/
theorem ofDocument_document : Definitions.ofDocument document = .ok
    ⟨[⟨"Pod", .anything, [⟨"", "v1", "Pod"⟩]⟩, ⟨"PodAlias", .anything, [⟨"", "v1", "Pod"⟩]⟩]⟩ := by
  have hdefine : ∀ name serves, Definitions.define name (schema serves) =
      .ok ⟨name, .anything, Definition.servedKinds (schema serves)⟩ := by
    intro name serves
    rw [Definitions.define_eq_ok_iff]
    refine ⟨.anything, ?_, rfl⟩
    rw [schema, Shape.ofJson_object]
    rfl
  rw [document, Definitions.ofDocument_of_member? rfl, Definitions.ofSchemas_cons, hdefine,
    Definitions.ofSchemas_cons, hdefine]
  rfl

/-- The greater of the two names answers for the pods. -/
theorem podAlias_answers_for_pods :
    document.Ordered ∧ ∃ d, Definitions.ofDocument document = .ok d ∧
      d.serving? ⟨"", "v1", "Pod"⟩ = some "PodAlias" ∧
      ∃ shape, d.shape? "PodAlias" = some shape := by
  have hordered : document.Ordered := by
    simp only [document, schema, Json.Ordered, Json.MembersOrdered, Json.ItemsOrdered,
      Keyed.Ordered]
    decide
  have hserving := (Definitions.ofDocument_spec hordered).2.2 _ ofDocument_document
  exact ⟨hordered, _, ofDocument_document, by decide, hserving.2 ⟨"", "v1", "Pod"⟩ _ (by decide)⟩

end Shared

end ApiCatalog
