import ApiCatalog.Proofs.Catalog.Selecting
import ApiCatalog.Proofs.Schema.Reaching

/-!
# Catalogs over other definitions

A schema names a definition among those of a document. `Catalog.redefine` puts other definitions
behind all schemas of a catalog and leaves everything else. Where the schemas of the resources reach
the same definitions as before, they have the same fields, so selecting the resources that have a
field goes along with redefining (`select_redefine`). Discovery goes along with it as well if both
documents answer for the announced kinds by the same names (`discover_redefine`).
-/

namespace ApiCatalog

/-- The schema of the same name among other definitions. -/
def Schema.redefine (e : Definitions) (s : Schema) : Schema := { s with definitions := e }

/-- The subresource with other definitions behind its schema. -/
def SubResource.redefine (e : Definitions) (s : SubResource) : SubResource :=
  { s with schema := s.schema.redefine e }

/-- The resource with other definitions behind its schema and those of its subresources. -/
def Resource.redefine (e : Definitions) (r : Resource) : Resource :=
  { r with
    schema := r.schema.redefine e
    subResources := r.subResources.map (SubResource.redefine e) }

/-- A subresource keeps its owner under other definitions. -/
@[simp] theorem SubResource.parent_redefine (e : Definitions) (s : SubResource) :
    (s.redefine e).parent = s.parent := rfl

namespace Resource

variable (e : Definitions)

/-- A resource keeps its group and version under other definitions. -/
@[simp] theorem groupVersion_redefine (r : Resource) :
    (r.redefine e).groupVersion = r.groupVersion := rfl

/-- A resource has the same fields over other definitions that are the same as far as its schema
reaches. -/
theorem hasField_redefine {r : Resource}
    (hsame : r.schema.definitions.SameFrom e r.schema.name) (path : List String) :
    (r.redefine e).hasField path = r.hasField path :=
  (hsame.hasField_eq path).symm

/-- It does not matter whether a subresource is attached before other definitions are put behind. -/
theorem attach_redefine (r : Resource) (s : SubResource) :
    (r.redefine e).attach (s.redefine e) = (r.attach s).redefine e := by
  simp only [attach, redefine, List.map_append, List.map_singleton]

/-- Who gets a subresource does not depend on the definitions. -/
theorem attachLast_redefine (s : SubResource) (resources : List Resource) :
    attachLast (s.redefine e) (resources.map (redefine e)) =
      (attachLast s resources).map (redefine e) := by
  induction resources with
  | nil => rfl
  | cons r rest ih =>
      have hlater : (rest.map (redefine e)).any (·.groupVersion = s.parent.groupVersion) =
          rest.any (·.groupVersion = s.parent.groupVersion) := List.any_map
      rw [List.map_cons, attachLast, attachLast, SubResource.parent_redefine, hlater, ih,
        groupVersion_redefine, attach_redefine]
      by_cases hbehind : rest.any (·.groupVersion = s.parent.groupVersion) = true
      · rw [if_pos hbehind, if_pos hbehind, List.map_cons]
      · rw [if_neg hbehind, if_neg hbehind]
        by_cases howner : r.groupVersion = s.parent.groupVersion
        · rw [if_pos howner, if_pos howner, List.map_cons]
        · rw [if_neg howner, if_neg howner, List.map_cons]

end Resource

namespace Announced

variable {e : Definitions} {lookup other : SchemaLookup} {entry : Announced}

/-- An entry announces the same resource if its kind has the schema of the same name. -/
theorem resource?_redefine
    (hlookup : other entry.defaulted.groupVersionKind =
      (lookup entry.defaulted.groupVersionKind).map (Schema.redefine e)) :
    entry.resource? other = (entry.resource? lookup).map (Resource.redefine e) := by
  unfold resource?
  by_cases hsub : entry.descriptor.isSub = true
  · rw [if_pos hsub, if_pos hsub, Option.map_none]
  · rw [if_neg hsub, if_neg hsub, hlookup, Option.map_map, Option.map_map]
    rfl

/-- An entry announces the same subresource if its kind has the schema of the same name. -/
theorem subResource?_redefine
    (hlookup : other entry.defaulted.groupVersionKind =
      (lookup entry.defaulted.groupVersionKind).map (Schema.redefine e)) :
    entry.subResource? other = (entry.subResource? lookup).map (SubResource.redefine e) := by
  unfold subResource?
  by_cases hsub : entry.descriptor.isSub = true
  · rw [if_pos hsub, if_pos hsub, hlookup, Option.map_map, Option.map_map]
    rfl
  · rw [if_neg hsub, if_neg hsub, Option.map_none]

end Announced

namespace Catalog

/-- The catalog with other definitions behind all schemas. -/
def redefine (e : Definitions) (c : Catalog) : Catalog where
  entries := Keyed.filterMap (fun _ resources => some (resources.map (Resource.redefine e)))
    c.entries
  ordered := Keyed.ordered_filterMap c.ordered _

variable (e : Definitions) (c : Catalog)

/-- Under a name, other definitions are put behind all resources. -/
theorem get?_redefine (name : String) :
    (c.redefine e).get? name = (c.get? name).map (List.map (Resource.redefine e)) := by
  rw [get?, redefine, Keyed.get?_filterMap c.ordered, Option.map_eq_bind]
  rfl

/-- The same holds of the resources of a name if an absent one counts as having none. -/
theorem getD_get?_redefine (name : String) :
    ((c.redefine e).get? name).getD [] = ((c.get? name).getD []).map (Resource.redefine e) := by
  rw [get?_redefine]
  cases c.get? name <;> rfl

/-- The resources that have a field are the same before and after redefining if the schemas reach
the same definitions. -/
theorem select_redefine {e : Definitions} {c : Catalog}
    (hsame : ∀ r ∈ c.toList, r.schema.definitions.SameFrom e r.schema.name)
    (path : List String) :
    (c.redefine e).select (.withField path) = (c.select (.withField path)).redefine e := by
  refine ext_get? fun name => ?_
  have hkept : ((c.get? name).getD []).filter
        ((fun r => (Selection.withField path).keepsResource r) ∘ Resource.redefine e) =
      ((c.get? name).getD []).filter fun r => (Selection.withField path).keepsResource r := by
    refine List.filter_congr fun r hr => ?_
    exact Resource.hasField_redefine e (hsame r (mem_toList_of_mem_getD c hr)) path
  rw [get?_select, getD_get?_redefine, get?_redefine, get?_select, map_entryOf, List.filter_map,
    hkept, List.map_map, List.map_map]
  congr 2
  funext r
  simp only [Function.comp_apply, Selection.narrow_withField]

/-- It does not matter whether a catalog is made before other definitions are put behind. -/
theorem redefine_ofList (resources : List Resource) :
    (ofList resources).redefine e = ofList (resources.map (Resource.redefine e)) := by
  refine ext_get? fun name => ?_
  rw [get?_redefine, get?_ofList, get?_ofList, map_entryOf, List.filter_map]
  rfl

/-- It does not matter whether a catalog takes a subresource before other definitions are put
behind. -/
theorem redefine_attach (s : SubResource) :
    (c.attach s).redefine e = (c.redefine e).attach (s.redefine e) := by
  refine ext_get? fun name => ?_
  rw [get?_redefine, attach, attach, get?_modify, get?_modify, get?_redefine,
    SubResource.parent_redefine]
  by_cases hname : s.parent.name = name
  · rw [if_pos hname, if_pos hname, Option.map_map, Option.map_map]
    congr 1
    funext resources
    exact (Resource.attachLast_redefine e s resources).symm
  · rw [if_neg hname, if_neg hname]

/-- Two searches for schemas that find, for every announced kind, definitions of the same name lead
to the same catalog but for the definitions. -/
theorem discover_redefine {e : Definitions} {lookup other : SchemaLookup}
    {restriction : Restriction} {announcements : List Announcement}
    (hlookup : ∀ entry ∈ admitted restriction announcements,
      other entry.defaulted.groupVersionKind =
        (lookup entry.defaulted.groupVersionKind).map (Schema.redefine e)) :
    discover other restriction announcements =
      (discover lookup restriction announcements).redefine e := by
  have hresources : (admitted restriction announcements).filterMap (Announced.resource? other) =
      ((admitted restriction announcements).filterMap (Announced.resource? lookup)).map
        (Resource.redefine e) := by
    rw [List.map_filterMap]
    exact List.filterMap_congr fun entry hentry =>
      Announced.resource?_redefine (hlookup entry hentry)
  have hsubResources :
      (admitted restriction announcements).filterMap (Announced.subResource? other) =
        ((admitted restriction announcements).filterMap (Announced.subResource? lookup)).map
          (SubResource.redefine e) := by
    rw [List.map_filterMap]
    exact List.filterMap_congr fun entry hentry =>
      Announced.subResource?_redefine (hlookup entry hentry)
  rw [discover_eq_foldl_attach, discover_eq_foldl_attach, hresources, hsubResources,
    ← redefine_ofList, List.foldl_map]
  exact List.foldl_hom (redefine e) fun c s => (redefine_attach e c s).symm

/-- The schema of a discovered resource was found for the kind of an announced entry. -/
theorem exists_admitted_of_mem_toList {lookup : SchemaLookup} {restriction : Restriction}
    {announcements : List Announcement} {r : Resource}
    (hr : r ∈ (discover lookup restriction announcements).toList) :
    ∃ entry ∈ admitted restriction announcements,
      lookup entry.defaulted.groupVersionKind = some r.schema := by
  obtain ⟨name, resources, hfound, hr⟩ := (mem_toList_iff _).1 hr
  obtain ⟨o, ho, hbare⟩ := List.mem_map.1
    (bare_mem_offeredResources lookup restriction announcements hfound hr)
  have ho := (List.mem_filter.1 ho).1
  rw [← filterMap_offer?_admitted] at ho
  obtain ⟨entry, hentry, hoffer⟩ := List.mem_filterMap.1 ho
  obtain ⟨schema, hschema, rfl⟩ := Option.map_eq_some_iff.1 hoffer
  have hsame : schema = r.schema := congrArg Resource.schema hbare
  exact ⟨entry, hentry, hsame ▸ hschema⟩

/-- Definitions that are not reached do not count. If two documents define all names that are
reached from a name alike, the same names are reached in both, and every path leads to the same
shape or to none. So the resources of any catalog that have a field are the same after other
definitions are put behind the schemas, if what these reach stays as it is; and two documents that
answer for every announced kind by the same name, and define alike what this name reaches, lead to
the same choice of discovered resources. -/
theorem unreached_definitions_do_not_count (d e : Definitions) :
    (∀ name, d.SameFrom e name →
      (∀ reached, d.Reaches name reached ↔ e.Reaches name reached) ∧
      ∀ path, (⟨d, name⟩ : Schema).lookup path = (⟨e, name⟩ : Schema).lookup path ∧
        (⟨d, name⟩ : Schema).hasField path = (⟨e, name⟩ : Schema).hasField path) ∧
    (∀ c : Catalog, (∀ r ∈ c.toList, r.schema.definitions.SameFrom e r.schema.name) →
      ∀ path,
        (c.redefine e).select (.withField path) = (c.select (.withField path)).redefine e) ∧
    (∀ restriction announcements,
      (∀ entry ∈ admitted restriction announcements,
        d.serving? entry.defaulted.groupVersionKind =
            e.serving? entry.defaulted.groupVersionKind ∧
          ∀ name, d.serving? entry.defaulted.groupVersionKind = some name →
            d.SameFrom e name) →
      ∀ path,
        (discover e.lookup restriction announcements).select (.withField path) =
          ((discover d.lookup restriction announcements).select (.withField path)).redefine
            e) := by
  refine ⟨fun name hsame => ⟨hsame.reaches_iff, fun path => ?_⟩, fun c => select_redefine,
    fun restriction announcements hserving path => ?_⟩
  · exact ⟨hsame.lookup_eq path, hsame.hasField_eq path⟩
  · have hlookup : ∀ entry ∈ admitted restriction announcements,
        e.lookup entry.defaulted.groupVersionKind =
          (d.lookup entry.defaulted.groupVersionKind).map (Schema.redefine e) := by
      intro entry hentry
      rw [Definitions.lookup, Definitions.lookup, ← (hserving entry hentry).1, Option.map_map]
      rfl
    rw [discover_redefine hlookup]
    refine select_redefine (fun r hr => ?_) path
    obtain ⟨entry, hentry, hschema⟩ := exists_admitted_of_mem_toList hr
    obtain ⟨name, hname, hr⟩ := Option.map_eq_some_iff.1 hschema
    rw [← hr]
    exact (hserving entry hentry).2 name hname

namespace Detached

/-- A deployment has links to deployments and a specification whose values are not defined. A volume
has nothing to do with it. -/
def before : Definitions :=
  ⟨[⟨"Deployment",
      .record [("links", .list (.reference "Deployment")), ("spec", .map (.reference "Missing"))],
      [⟨"apps", "v1", "Deployment"⟩]⟩,
    ⟨"Volume", .scalar "string" none, [⟨"", "v1", "Volume"⟩]⟩]⟩

/-- Another shape for volumes, and zones besides. -/
def after : Definitions :=
  ⟨[⟨"Deployment",
      .record [("links", .list (.reference "Deployment")), ("spec", .map (.reference "Missing"))],
      [⟨"apps", "v1", "Deployment"⟩]⟩,
    ⟨"Volume", .anything, []⟩,
    ⟨"Zone", .reference "Deployment", [⟨"", "v1", "Zone"⟩]⟩]⟩

/-- Both define alike all that is reached from deployments. -/
theorem sameFrom_deployment : before.SameFrom after "Deployment" := by
  have hreached : ∀ name, before.Reaches "Deployment" name →
      name = "Deployment" ∨ name = "Missing" := by
    intro name hreaches
    induction hreaches with
    | here => exact .inl rfl
    | reference name shape next _ hshape hmentions ih =>
        rcases ih with rfl | rfl
        · cases hshape
          cases hmentions with
          | field _ field shape _ hmem hbelow =>
              rcases List.mem_pair.1 hmem with hfield | hfield
              · cases hfield
                cases hbelow with
                | item _ _ hitem => cases hitem; exact .inl rfl
              · cases hfield
                cases hbelow with
                | value _ _ hvalue => cases hvalue; exact .inr rfl
        · cases hshape
  intro name hreaches
  rcases hreached name hreaches with rfl | rfl <;> rfl

/-- The links of a deployment are found as before, and so are the resources that have them. -/
theorem links_found_after :
    before.SameFrom after "Deployment" ∧
      (⟨after, "Deployment"⟩ : Schema).lookup ["links", "spec"] =
        some (.map (.reference "Missing")) ∧
      (⟨after, "Deployment"⟩ : Schema).hasField ["spec", "replicas"] = false ∧
      (discover after.lookup {} Repeated.announced).select (.withField ["links", "spec"]) =
        ((discover before.lookup {} Repeated.announced).select
          (.withField ["links", "spec"])).redefine after := by
  have hserving : ∀ entry ∈ admitted {} Repeated.announced,
      before.serving? entry.defaulted.groupVersionKind = some "Deployment" ∧
        after.serving? entry.defaulted.groupVersionKind = some "Deployment" := by decide
  obtain ⟨hsearch, -, hdiscover⟩ := unreached_definitions_do_not_count before after
  obtain ⟨-, hpath⟩ := hsearch "Deployment" sameFrom_deployment
  refine ⟨sameFrom_deployment, (hpath _).1.symm.trans (by rfl), (hpath _).2.symm.trans (by rfl),
    hdiscover {} Repeated.announced (fun entry hentry => ?_) _⟩
  obtain ⟨hbefore, hafter⟩ := hserving entry hentry
  refine ⟨hbefore.trans hafter.symm, fun name hname => ?_⟩
  obtain rfl : "Deployment" = name := Option.some.inj (hbefore.symm.trans hname)
  exact sameFrom_deployment

end Detached

end Catalog

end ApiCatalog
