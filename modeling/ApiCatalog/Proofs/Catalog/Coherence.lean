import ApiCatalog.Proofs.Discovery.Contents
import ApiCatalog.Report.Table

/-!
# Coherent catalogs

In a coherent catalog every name has resources, which bear that name, and every subresource names
the resource that lists it as its owner. Discovery makes coherent catalogs, and selecting, adding
and collecting keep them so (`Reachable.coherent`). A coherent catalog is known by its resources:
`ofList_flatMap_get?` collects it again from them, whatever the order of the names, and the reports
about a name have rows if there are any.
-/

namespace ApiCatalog

/-- A subresource stands with the resource that it names as its owner: it is announced in the same
group and version, and its name is that of the resource, a slash and its own name. -/
structure SubResource.BelongsTo (s : SubResource) (r : Resource) : Prop where
  parent : s.parent = r.ref
  groupVersion : s.groupVersion = r.groupVersion
  name : s.name = r.name ++ "/" ++ s.ownName

/-- The name of a resource has no slash, and its subresources belong to it. -/
structure Resource.Coherent (r : Resource) : Prop where
  noSlash : '/' ∉ r.name.toList
  owned : ∀ s ∈ r.subResources, s.BelongsTo r

namespace Catalog

/-- No name is without resources, and all resources stand under their names and are coherent. -/
structure Coherent (c : Catalog) : Prop where
  nonempty : ∀ name, c.get? name ≠ some []
  named : ∀ name resources, c.get? name = some resources → ∀ r ∈ resources, r.name = name
  resource : ∀ name resources, c.get? name = some resources → ∀ r ∈ resources, r.Coherent

/-- The catalogs that discovery makes, and those that come of them by selecting, by adding a
resource of one catalog to another and by collecting resources of any catalogs. -/
inductive Reachable : Catalog → Prop where
  | empty : Reachable empty
  | discover (lookup restriction announcements) :
      Reachable (discover lookup restriction announcements)
  | select {c : Catalog} (selection) : Reachable c → Reachable (c.select selection)
  | insert {c source : Catalog} {r : Resource} :
      Reachable c → Reachable source → r ∈ source.toList → Reachable (c.insert r)
  | ofList {resources : List Resource} (source : Resource → Catalog) :
      (∀ r ∈ resources, Reachable (source r)) → (∀ r ∈ resources, r ∈ (source r).toList) →
      Reachable (ofList resources)

variable {c : Catalog}

/-! ## What keeps a catalog coherent -/

/-- A catalog is coherent if every name has what coherent resources of that name make. -/
theorem coherent_of_get? (resources : String → List Resource)
    (hget : ∀ name, c.get? name = entryOf (resources name))
    (hresources : ∀ name, ∀ r ∈ resources name, r.name = name ∧ r.Coherent) : c.Coherent := by
  have hfound : ∀ name found, c.get? name = some found → resources name = found ∧ found ≠ [] := by
    intro name found h
    rwa [hget, entryOf_eq_some_iff] at h
  constructor
  · intro name h
    exact (hfound name [] h).2 rfl
  · intro name found h r hr
    rw [← (hfound name found h).1] at hr
    exact (hresources name r hr).1
  · intro name found h r hr
    rw [← (hfound name found h).1] at hr
    exact (hresources name r hr).2

/-- What a coherent catalog has under a name is made by the resources that it has there. -/
theorem Coherent.get?_eq (h : c.Coherent) (name : String) :
    c.get? name = entryOf ((c.get? name).getD []) :=
  (get?_eq_entryOf_iff c name).2 (h.nonempty name)

/-- The resources under a name of a coherent catalog bear the name and are coherent. -/
theorem Coherent.of_mem_getD (h : c.Coherent) {name : String} {r : Resource}
    (hr : r ∈ (c.get? name).getD []) : r.name = name ∧ r.Coherent := by
  obtain ⟨resources, hfound, hr⟩ := (mem_getD_get?_iff c).1 hr
  exact ⟨h.named name resources hfound r hr, h.resource name resources hfound r hr⟩

/-- All resources of a coherent catalog are coherent. -/
theorem Coherent.of_mem_toList (h : c.Coherent) {r : Resource} (hr : r ∈ c.toList) :
    r.Coherent := by
  obtain ⟨name, resources, hfound, hr⟩ := (mem_toList_iff c).1 hr
  exact h.resource name resources hfound r hr

/-- The catalog without resources is coherent. -/
theorem coherent_empty : empty.Coherent :=
  coherent_of_get? (fun _ => []) (fun _ => rfl) fun _ _ hr => nomatch hr

/-- Narrowing takes subresources away and leaves the rest. -/
theorem coherent_narrow {r : Resource} (h : r.Coherent) (selection : Selection) :
    (selection.narrow r).Coherent where
  noSlash := h.noSlash
  owned s hs := by
    obtain ⟨hparent, hgv, hname⟩ := h.owned s (List.mem_of_mem_filter hs)
    exact ⟨hparent, hgv, hname⟩

/-- What is selected from a coherent catalog is coherent. -/
theorem Coherent.select (h : c.Coherent) (selection : Selection) :
    (c.select selection).Coherent := by
  refine coherent_of_get? _ (fun name => get?_select c name selection) fun name r hr => ?_
  obtain ⟨q, hq, rfl⟩ := List.mem_map.1 hr
  obtain ⟨hname, hcoherent⟩ := h.of_mem_getD (List.mem_of_mem_filter hq)
  exact ⟨hname, coherent_narrow hcoherent selection⟩

/-- A coherent catalog with a coherent resource more is coherent. -/
theorem Coherent.insert (h : c.Coherent) {r : Resource} (hr : r.Coherent) :
    (c.insert r).Coherent := by
  refine coherent_of_get?
    (fun name => (c.get? name).getD [] ++ if r.name = name then [r] else [])
    (fun name => ?_) fun name q hq => ?_
  · rw [get?_insert]
    split
    · rw [eq_comm, entryOf_eq_some_iff]
      exact ⟨rfl, List.append_ne_nil_of_right_ne_nil _ (List.cons_ne_nil r [])⟩
    · rw [List.append_nil]
      exact h.get?_eq name
  · rcases List.mem_append.1 hq with hq | hq
    · exact h.of_mem_getD hq
    · split at hq
      next hname => exact List.mem_singleton.1 hq ▸ ⟨hname, hr⟩
      next => cases hq

/-- Coherent resources make a coherent catalog. -/
theorem coherent_ofList {resources : List Resource} (h : ∀ r ∈ resources, r.Coherent) :
    (ofList resources).Coherent := by
  refine coherent_of_get? _ (fun name => get?_ofList name resources) fun name r hr => ?_
  obtain ⟨hmem, hname⟩ := List.mem_filter.1 hr
  exact ⟨of_decide_eq_true hname, h r hmem⟩

/-- In a discovered catalog the resources bear the names under which they are on offer, and own
subresources that are on offer for them. -/
theorem coherent_discover (lookup : SchemaLookup) (restriction : Restriction)
    (announcements : List Announcement) :
    (discover lookup restriction announcements).Coherent := by
  refine coherent_of_get? _ (get?_discover lookup restriction announcements) fun name r hr => ?_
  obtain ⟨before, after, hsplit⟩ := List.append_of_mem hr
  have hfound : (discover lookup restriction announcements).get? name =
      some (before ++ r :: after) := by
    rw [get?_discover, entryOf_eq_some_iff]
    exact ⟨hsplit, List.append_ne_nil_of_right_ne_nil before (List.cons_ne_nil r after)⟩
  have hoffered := bare_mem_offeredResources lookup restriction announcements hfound
    (List.mem_append_right before List.mem_cons_self)
  have hname : r.bare.name = name :=
    (of_mem_offeredResources lookup restriction announcements hoffered).1
  have hslash : '/' ∉ r.bare.name.toList :=
    not_slash_mem_of_mem_offeredResources lookup restriction announcements hoffered
  refine ⟨hname, hslash, fun s howned => ?_⟩
  obtain ⟨hsub, hparent, -⟩ :=
    of_mem_subResources lookup restriction announcements hfound howned
  obtain ⟨hgv, hsubName⟩ := of_mem_offeredSubResources lookup restriction announcements hsub
  rw [hparent] at hgv hsubName
  subst hname
  exact ⟨hparent, hgv, hsubName⟩

/-- Whatever comes of discovery by selecting, adding and collecting is coherent. -/
theorem Reachable.coherent (h : Reachable c) : c.Coherent := by
  -- A resource that is added or collected is coherent because the catalog that it is taken from is.
  induction h with
  | empty => exact coherent_empty
  | discover lookup restriction announcements =>
      exact coherent_discover lookup restriction announcements
  | select selection _ ih => exact ih.select selection
  | insert _ _ hr ih ihSource => exact ih.insert (ihSource.of_mem_toList hr)
  | ofList source _ hmem ih =>
      exact coherent_ofList fun r hr => (ih r hr).of_mem_toList (hmem r hr)

/-! ## What a coherent catalog is good for -/

/-- The names of a coherent catalog have no slash. -/
theorem Coherent.not_slash_mem (h : c.Coherent) {name : String} (hname : name ∈ c.names) :
    '/' ∉ name.toList := by
  obtain ⟨resources, hfound⟩ := Option.ne_none_iff_exists'.1 ((mem_names_iff c name).1 hname)
  cases resources with
  | nil => exact absurd hfound (h.nonempty name)
  | cons r rest =>
      rw [← h.named name _ hfound r List.mem_cons_self]
      exact (h.resource name _ hfound r List.mem_cons_self).noSlash

/-- Of all resources of a coherent catalog, those of a name are what the catalog has there, if the
name is among those that are looked at. -/
theorem Coherent.filter_flatMap_get? (h : c.Coherent) {order : List String} (hnodup : order.Nodup)
    (name : String) :
    (order.flatMap fun other => (c.get? other).getD []).filter (·.name = name) =
      if name ∈ order then (c.get? name).getD [] else [] :=
  Catalog.filter_flatMap_get? c (fun _ _ hr => (h.of_mem_getD hr).1) hnodup name

/-- Collecting the resources of a coherent catalog, its names taken in any order, makes the same
catalog. -/
theorem Coherent.ofList_flatMap_get? (h : c.Coherent) {order : List String}
    (horder : order.Perm c.names) :
    ofList (order.flatMap fun name => (c.get? name).getD []) = c := by
  refine ext_get? fun name => ?_
  rw [get?_ofList, h.filter_flatMap_get? (horder.nodup_iff.2 (nodup_names c))]
  by_cases hname : name ∈ order
  · rw [if_pos hname]
    exact (h.get?_eq name).symm
  · rw [if_neg hname, entryOf_nil]
    rw [horder.mem_iff, mem_names_iff, not_not] at hname
    exact hname.symm

/-- A report about a name that makes rows of resources either says that there is no such resource,
because the name is absent, or it has a row. -/
theorem Coherent.report_cases (h : c.Coherent) (name : String) (table : List Resource → Table)
    (hrows : ∀ r rest, (table (r :: rest)).rows ≠ []) :
    (c.get? name = none ∧
        (Table.resourcesOf c name).map table = .error (.noSuchResource name)) ∨
      ∃ report, (Table.resourcesOf c name).map table = .ok report ∧ report.rows ≠ [] := by
  unfold Table.resourcesOf
  cases hfound : c.get? name with
  | none => exact .inl ⟨rfl, rfl⟩
  | some resources =>
      cases resources with
      | nil => exact absurd hfound (h.nonempty name)
      | cons r rest => exact .inr ⟨table (r :: rest), rfl, hrows r rest⟩

/-- In every catalog that comes of discovery by selecting, adding and collecting, a name has at
least one resource, has no slash and is borne by all resources under it, and every subresource
belongs to the resource that lists it. So all resources, by the names in any order, can be collected
to the same catalog, and a description or a report on a field has a row unless the name is
absent. -/
theorem reachable_catalog_coherent (h : Reachable c) :
    (c.Coherent ∧ ∀ name ∈ c.names, '/' ∉ name.toList) ∧
    (∀ order : List String, order.Perm c.names →
      ofList (order.flatMap fun name => (c.get? name).getD []) = c) ∧
    (∀ name,
      (c.get? name = none ∧ Table.description c name = .error (.noSuchResource name)) ∨
        ∃ report, Table.description c name = .ok report ∧ report.rows ≠ []) ∧
    (∀ name path,
      (c.get? name = none ∧ Table.fieldSupport c name path = .error (.noSuchResource name)) ∨
        ∃ report, Table.fieldSupport c name path = .ok report ∧ report.rows ≠ []) := by
  have hcoherent := h.coherent
  refine ⟨⟨hcoherent, fun name => hcoherent.not_slash_mem⟩, fun order => ?_, fun name => ?_,
    fun name path => ?_⟩
  · exact hcoherent.ofList_flatMap_get?
  · exact hcoherent.report_cases name _ fun r rest => List.cons_ne_nil _ _
  · exact hcoherent.report_cases name _ fun r rest => List.cons_ne_nil _ _

namespace Repeated

/-- The catalog of the core group. -/
def core : Catalog :=
  discover (fun _ => some schema) {}
    [{ groupVersion := "v1", resources := [{ name := "pods", kind := "Pod" }] }]

/-- What the core group has, and the resource with a status from the other catalog. -/
def edited : Catalog := (core.select .withoutStatus).insert (deployments [status])

/-- The edited catalog is coherent, and it is collected again from its last name on. -/
theorem edited_collected_backwards :
    Reachable edited ∧
      edited.get? "deployments" = some [deployments [status]] ∧
      status.BelongsTo (deployments [status]) ∧
      ofList (["pods", "deployments"].flatMap fun name => (edited.get? name).getD []) = edited := by
  have hcore : Reachable core := .discover _ _ _
  have hreachable : Reachable edited :=
    .insert (.select _ hcore) (.discover _ _ _ : Reachable catalog) (by decide)
  have hfound : edited.get? "deployments" = some [deployments [status]] := by decide
  have horder : ["pods", "deployments"].Perm edited.names := by decide
  obtain ⟨⟨hcoherent, -⟩, hcollected, -, -⟩ := reachable_catalog_coherent hreachable
  have howner := hcoherent.resource _ _ hfound (deployments [status]) List.mem_cons_self
  exact ⟨hreachable, hfound, howner.owned status List.mem_cons_self, hcollected _ horder⟩

end Repeated

end Catalog

end ApiCatalog
