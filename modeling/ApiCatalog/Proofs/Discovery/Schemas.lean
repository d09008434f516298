import ApiCatalog.Proofs.Discovery.Contents
import ApiCatalog.Proofs.Schema.Documents
import ApiCatalog.Proofs.Schema.Fractions

/-!
# The schemas of what is discovered

Every resource and subresource of a discovered catalog has the schema that is found for the kind its
descriptor names (`lookup_of_mem_described`), and whatever kind has a schema can be announced
(`mem_described_of_lookup`). So the definition at the root of the schema is there and serves that
kind. Discovery does not ask where it leads: `described_resolves_iff` says when the schema has at
least the empty path, and `Dangling` is a resource whose schema has no path at all.
-/

namespace ApiCatalog.Catalog

/-- The descriptors of all resources and subresources in the catalog, each with its schema. -/
def described (c : Catalog) : List (Descriptor × Schema) :=
  c.toList.flatMap fun r =>
    (r.descriptor, r.schema) :: r.subResources.map fun s => (s.descriptor, s.schema)

variable {lookup : SchemaLookup} {restriction : Restriction} {announcements : List Announcement}

/-- An offer has the schema that is found for the kind of its descriptor. -/
theorem lookup_of_mem_offers {o : Offer} (h : o ∈ offers lookup restriction announcements) :
    lookup o.descriptor.groupVersionKind = some o.schema := by
  obtain ⟨a, -, ho⟩ := List.mem_flatMap.1 h
  dsimp only at ho
  split at ho
  · obtain ⟨d, -, hd⟩ := List.mem_filterMap.1 ho
    obtain ⟨schema, hschema, rfl⟩ := Option.map_eq_some_iff.1 hd
    exact hschema
  · cases ho

/-- A resource or subresource has the schema that is found for the kind of its descriptor. -/
theorem lookup_of_mem_described {entity : Descriptor × Schema}
    (h : entity ∈ (discover lookup restriction announcements).described) :
    lookup entity.1.groupVersionKind = some entity.2 := by
  obtain ⟨r, hr, hentity⟩ := List.mem_flatMap.1 h
  obtain ⟨name, resources, hfound, hr⟩ := (mem_toList_iff _).1 hr
  rcases List.mem_cons.1 hentity with rfl | hentity
  · obtain ⟨o, ho, hbare⟩ := List.mem_map.1
      (bare_mem_offeredResources lookup restriction announcements hfound hr)
    have hlookup := lookup_of_mem_offers (List.mem_filter.1 ho).1
    have hdescriptor : o.descriptor = r.descriptor := congrArg Resource.descriptor hbare
    have hschema : o.schema = r.schema := congrArg Resource.schema hbare
    rwa [hdescriptor, hschema] at hlookup
  · obtain ⟨s, hs, rfl⟩ := List.mem_map.1 hentity
    obtain ⟨before, after, rfl⟩ := List.append_of_mem hr
    obtain ⟨o, ho, rfl⟩ := List.mem_map.1
      (of_mem_subResources lookup restriction announcements hfound hs).1
    exact lookup_of_mem_offers (List.mem_filter.1 ho).1

/-- An offered resource is described. -/
theorem mem_described_of_mem_offers {o : Offer} (h : o ∈ offers lookup restriction announcements)
    (hsub : o.isSub = false) :
    (o.descriptor, o.schema) ∈ (discover lookup restriction announcements).described := by
  have hoffered : o.resource ∈ offeredResources lookup restriction announcements
      o.descriptor.name := by
    refine List.mem_map.2 ⟨o, List.mem_filter.2 ⟨h, ?_⟩, rfl⟩
    rw [hsub, decide_eq_true rfl]
    rfl
  have hlists := (discover_lists_offered_resources lookup restriction announcements
    o.descriptor.name).1
  rw [← hlists] at hoffered
  obtain ⟨r, hr, hbare⟩ := List.mem_map.1 hoffered
  cases hfound : (discover lookup restriction announcements).get? o.descriptor.name with
  | none =>
      rw [hfound] at hr
      cases hr
  | some resources =>
      rw [hfound, Option.getD_some] at hr
      refine List.mem_flatMap.2 ⟨r, (mem_toList_iff _).2 ⟨_, resources, hfound, hr⟩, ?_⟩
      have hdescriptor : r.descriptor = o.descriptor := congrArg Resource.descriptor hbare
      have hschema : r.schema = o.schema := congrArg Resource.schema hbare
      rw [hdescriptor, hschema]
      exact List.mem_cons_self

/-- The descriptor of resources of a kind. -/
def resourcesOf (kind : GroupVersionKind) : Descriptor where
  name := "resources"
  kind := kind.kind
  group := some kind.group
  version := some kind.version

/-- The announcement of these resources, in a group and version without names. -/
def announcing (kind : GroupVersionKind) : Announcement where
  groupVersion := "/"
  resources := [resourcesOf kind]

/-- Every kind that has a schema can be announced. -/
theorem mem_described_of_lookup {kind : GroupVersionKind} {schema : Schema}
    (h : lookup kind = some schema) :
    (resourcesOf kind, schema) ∈ (discover lookup {} [announcing kind]).described := by
  -- An empty group or version counts as missing and is taken from the list, where it is empty too.
  have hempty : ∀ text : String, textOr "" (some text) = text := fun text => by
    by_cases htext : text = "" <;> simp [textOr, htext]
  have hgroup : GroupVersion.ofText "/" = ⟨"", ""⟩ := by decide
  have hoffer : (⟨resourcesOf kind, ⟨"", ""⟩, schema⟩ : Offer) ∈
      offers lookup {} [announcing kind] := by
    refine List.mem_flatMap.2 ⟨announcing kind, List.mem_singleton.2 rfl, ?_⟩
    simp [announcing, resourcesOf, hgroup, Restriction.admits, hempty, h]
  have hsub : "resources".toList.contains '/' = false := by decide
  exact mem_described_of_mem_offers hoffer hsub

/-- The schema of a resource or subresource names the definition that answers for its kind, and has
the empty path exactly if the references at this definition come to an end. -/
theorem exists_definition_of_mem_described {d : Definitions} (hdistinct : d.Distinct)
    {entity : Descriptor × Schema}
    (h : entity ∈ (discover d.lookup restriction announcements).described) :
    ∃ definition ∈ d.entries, d.serving? entity.1.groupVersionKind = some definition.name ∧
      entity.2 = ⟨d, definition.name⟩ ∧ entity.2.root? = some definition.shape ∧
      entity.1.groupVersionKind ∈ definition.serves ∧
      (entity.2.hasField [] = true ↔ ∃ target, d.Chased definition.shape target) := by
  obtain ⟨definition, hmem, hserving, hschema, hroot, hserves⟩ :=
    Definitions.exists_of_lookup hdistinct (lookup_of_mem_described h)
  refine ⟨definition, hmem, hserving, hschema, hroot, hserves, ?_⟩
  rw [Schema.hasField_nil_iff hroot, hschema]

/-- The definition that the schema of a resource or subresource names is in the document and serves
the kind that the descriptor names. The schema has the empty path exactly if that definition is no
reference, or fewer than `hopLimit` references lead from it to one that is none. All schemas of all
catalogs that can be discovered with the document have the empty path exactly if this is so for
every definition that answers for a kind. -/
theorem described_resolves_iff {document : Json} {d : Definitions} (hordered : document.Ordered)
    (hdocument : Definitions.ofDocument document = .ok d) :
    (∀ restriction announcements,
      ∀ entity ∈ (discover d.lookup restriction announcements).described,
        ∃ definition ∈ d.entries, entity.2 = ⟨d, definition.name⟩ ∧
          entity.2.root? = some definition.shape ∧
          entity.1.groupVersionKind ∈ definition.serves ∧
          (entity.2.hasField [] = true ↔ ∃ target, d.Chased definition.shape target)) ∧
    ((∀ restriction announcements,
      ∀ entity ∈ (discover d.lookup restriction announcements).described,
        entity.2.hasField [] = true) ↔
      ∀ definition ∈ d.entries, (∃ kind, d.serving? kind = some definition.name) →
        ∃ target, d.Chased definition.shape target) := by
  have hdistinct := Definitions.distinct_of_ofDocument hordered hdocument
  refine ⟨fun restriction announcements entity hentity => ?_, fun hall definition hmem => ?_,
    fun hall restriction announcements entity hentity => ?_⟩
  · obtain ⟨definition, hmem, -, hrest⟩ := exists_definition_of_mem_described hdistinct hentity
    exact ⟨definition, hmem, hrest⟩
  · rintro ⟨kind, hserving⟩
    have hlookup : d.lookup kind = some ⟨d, definition.name⟩ := by
      rw [Definitions.lookup, hserving, Option.map_some]
    have hroot : (⟨d, definition.name⟩ : Schema).root? = some definition.shape :=
      hdistinct.shape?_of_mem hmem
    exact (Schema.hasField_nil_iff hroot).1 (hall _ _ _ (mem_described_of_lookup hlookup))
  · obtain ⟨definition, hmem, hserving, -, -, -, hresolves⟩ :=
      exists_definition_of_mem_described hdistinct hentity
    exact hresolves.2 (hall definition hmem ⟨_, hserving⟩)

/-! ## A definition that leads nowhere -/

namespace Dangling

/-- The schema of a definition that is a reference to a missing one. -/
def widget : Json :=
  .object [("$ref", .string "#/definitions/Missing"),
    ("x-kubernetes-group-version-kind", .array [.object
      [("group", .string "example.org"), ("kind", .string "Widget"), ("version", .string "v1")]])]

/-- A document with this definition only. -/
def document : Json := .object [("definitions", .object [("Widget", widget)])]

/-- Its definitions. -/
def definitions : Definitions :=
  ⟨[⟨"Widget", .reference "Missing", [⟨"example.org", "v1", "Widget"⟩]⟩]⟩

/-- The announcement of a resource of the kind. -/
def announced : List Announcement :=
  [{ groupVersion := "example.org/v1", resources := [{ name := "widgets", kind := "Widget" }] }]

/-- The resource. -/
def widgets : Resource where
  descriptor :=
    { name := "widgets", kind := "Widget", group := some "example.org", version := some "v1" }
  groupVersion := ⟨"example.org", "v1"⟩
  schema := ⟨definitions, "Widget"⟩

/-- The definitions are those of the document. -/
theorem ofDocument_document : Definitions.ofDocument document = .ok definitions := by
  have hshape : Shape.ofJson widget = .ok (.reference "Missing") := by
    rw [widget, Shape.ofJson_object]
    rfl
  have hdefine : Definitions.define "Widget" widget = .ok
      ⟨"Widget", .reference "Missing", [⟨"example.org", "v1", "Widget"⟩]⟩ := by
    rw [Definitions.define, hshape]
    rfl
  show Definitions.ofSchemas [("Widget", widget)] = .ok definitions
  rw [Definitions.ofSchemas_cons, hdefine]
  rfl

/-- The definition that the schema of the resource names is there and serves its kind. -/
theorem widgets_serve_their_kind :
    document.Ordered ∧ Definitions.ofDocument document = .ok definitions ∧
      (widgets.descriptor, widgets.schema) ∈
        (discover definitions.lookup {} announced).described ∧
      ∃ definition ∈ definitions.entries, widgets.schema = ⟨definitions, definition.name⟩ ∧
        widgets.schema.root? = some definition.shape ∧
        widgets.descriptor.groupVersionKind ∈ definition.serves ∧
        (widgets.schema.hasField [] = true ↔
          ∃ target, definitions.Chased definition.shape target) := by
  have hordered : document.Ordered := by
    simp only [document, widget, Json.Ordered, Json.MembersOrdered, Json.ItemsOrdered,
      Keyed.Ordered]
    decide
  have hdescribed : (widgets.descriptor, widgets.schema) ∈
      (discover definitions.lookup {} announced).described := by decide
  exact ⟨hordered, ofDocument_document, hdescribed,
    (described_resolves_iff hordered ofDocument_document).1 {} announced _ hdescribed⟩

/-- The resource stands in the catalog, and its schema has not so much as the empty path. -/
theorem widgets_have_no_path :
    Definitions.ofDocument document = .ok definitions ∧
      (discover definitions.lookup {} announced).get? "widgets" = some [widgets] ∧
      widgets.hasField [] = false :=
  ⟨ofDocument_document, by decide, by decide⟩

end Dangling

end ApiCatalog.Catalog
