import ApiCatalog.Proofs.Discovery.Attachment

/-!
# What discovery finds

The catalog of announcements in terms of what they offer. `get?_discover` is the whole answer for
one name. Read off it are the resources, which are those on offer under the name and no others, in
the order of the announcements (`map_bare_get?_discover`), and the subresources, each of which goes
to the last resource of its owner's name, group and version (`subResources_of_get?_discover`).
-/

namespace ApiCatalog.Catalog

variable (lookup : SchemaLookup) (restriction : Restriction) (announcements : List Announcement)

/-- Under a name a discovered catalog has the resources on offer, with the subresources on offer
shared out among them. -/
theorem get?_discover (name : String) :
    (discover lookup restriction announcements).get? name =
      entryOf (Resource.shareOut
        ((offeredSubResources lookup restriction announcements).filter (·.parent.name = name))
        (offeredResources lookup restriction announcements name)) := by
  rw [discover_eq_foldl_attach, filterMap_subResource?_admitted, get?_foldl_attach,
    ← catalog_indexResources, get?_indexResources]
  cases offeredResources lookup restriction announcements name <;> rfl

/-- Resources on offer have the name that they are offered under, and no subresources. -/
theorem of_mem_offeredResources {name : String} {r : Resource}
    (h : r ∈ offeredResources lookup restriction announcements name) :
    r.name = name ∧ r.subResources = [] := by
  obtain ⟨o, ho, rfl⟩ := List.mem_map.1 h
  have hname := (List.mem_filter.1 ho).2
  rw [Bool.and_eq_true, decide_eq_true_eq] at hname
  exact ⟨hname.1, rfl⟩

/-- Names of resources on offer have no slash. -/
theorem not_slash_mem_of_mem_offeredResources {name : String} {r : Resource}
    (h : r ∈ offeredResources lookup restriction announcements name) : '/' ∉ r.name.toList := by
  obtain ⟨o, ho, rfl⟩ := List.mem_map.1 h
  have hsub := (Bool.and_eq_true_iff.1 (List.mem_filter.1 ho).2).2
  rw [Offer.isSub, Bool.not_eq_true', List.contains_eq_mem, decide_eq_false_iff_not] at hsub
  exact hsub

/-- Subresources on offer are announced where their owner is, and their names are that of the owner,
a slash and their own. -/
theorem of_mem_offeredSubResources {s : SubResource}
    (h : s ∈ offeredSubResources lookup restriction announcements) :
    s.groupVersion = s.parent.groupVersion ∧ s.name = s.parent.name ++ "/" ++ s.ownName := by
  obtain ⟨o, ho, rfl⟩ := List.mem_map.1 h
  have hsub := (List.mem_filter.1 ho).2
  rw [Offer.isSub, List.contains_iff_mem] at hsub
  exact ⟨rfl, (Text.before_append_afterFirst hsub).symm⟩

/-- A resource that stands in a discovered catalog owns its share of the subresources on offer. -/
theorem subResources_of_get?_discover {name : String} {before after : List Resource} {r : Resource}
    (h : (discover lookup restriction announcements).get? name = some (before ++ r :: after)) :
    r.subResources = if after.any (·.groupVersion = r.groupVersion) then []
      else (offeredSubResources lookup restriction announcements).filter
        (·.parent = ⟨name, r.groupVersion⟩) := by
  rw [get?_discover, entryOf_eq_some_iff] at h
  rw [Resource.subResources_of_shareOut
    (fun q hq => (of_mem_offeredResources lookup restriction announcements hq).2) h.1,
    Resource.share, List.filter_filter]
  congr 1
  refine List.filter_congr fun s _ => ?_
  rw [Bool.eq_iff_iff]
  simp only [Bool.and_eq_true, decide_eq_true_eq]
  constructor
  · rintro ⟨hgv, hname⟩
    rw [← hgv, ← hname]
  · intro h
    rw [h]
    exact ⟨rfl, rfl⟩

/-- A subresource that is owned is on offer for its owner, and no later resource of the name has the
owner's group and version. -/
theorem of_mem_subResources {name : String} {before after : List Resource} {r : Resource}
    {s : SubResource}
    (hfound : (discover lookup restriction announcements).get? name = some (before ++ r :: after))
    (howned : s ∈ r.subResources) :
    s ∈ offeredSubResources lookup restriction announcements ∧ s.parent = ⟨name, r.groupVersion⟩ ∧
      ∀ q ∈ after, q.groupVersion ≠ r.groupVersion := by
  have hshare := subResources_of_get?_discover lookup restriction announcements hfound
  split at hshare
  next => rw [hshare] at howned; cases howned
  next hlast =>
    rw [hshare, List.mem_filter, decide_eq_true_eq] at howned
    exact ⟨howned.1, howned.2, by simpa using hlast⟩

/-- The resources of a discovered catalog, their subresources left aside, are those of the first
pass. -/
theorem map_bare_get?_discover (name : String) :
    ((discover lookup restriction announcements).get? name).map (List.map Resource.bare) =
      entryOf (offeredResources lookup restriction announcements name) := by
  rw [get?_discover, map_entryOf, Resource.map_bare_shareOut]
  congr 1
  refine (List.map_congr_left fun r hr => ?_).trans (List.map_id _)
  have hnone := (of_mem_offeredResources lookup restriction announcements hr).2
  rw [Resource.bare, ← hnone]
  rfl

/-- A resource of a discovered catalog is on offer, its subresources left aside. -/
theorem bare_mem_offeredResources {name : String} {resources : List Resource} {r : Resource}
    (hfound : (discover lookup restriction announcements).get? name = some resources)
    (hr : r ∈ resources) :
    r.bare ∈ offeredResources lookup restriction announcements name := by
  have hbare := map_bare_get?_discover lookup restriction announcements name
  rw [hfound, Option.map_some, eq_comm, entryOf_eq_some_iff] at hbare
  rw [hbare.1]
  exact List.mem_map_of_mem hr

/-- No resource owns anything before the second pass. -/
theorem owned_indexResources :
    (indexResources lookup (admitted restriction announcements)).catalog.owned = [] := by
  rw [owned, List.flatMap_eq_nil_iff]
  intro r hr
  -- Every resource stands under its name, and what stands there is on offer.
  obtain ⟨name, resources, hfound, hr⟩ := (mem_toList_iff _).1 hr
  have hindexed := get?_indexResources lookup restriction announcements name
  rw [hfound, eq_comm, entryOf_eq_some_iff] at hindexed
  exact (of_mem_offeredResources lookup restriction announcements (hindexed.1 ▸ hr)).2

/-! ## The two passes -/

/-- Under a name a discovered catalog has, their subresources left aside, exactly the resources on
offer under that name, in the order of the announcements and in each announcement in the order of
its descriptors. The name is absent exactly when there are none. -/
theorem discover_lists_offered_resources (name : String) :
    (((discover lookup restriction announcements).get? name).getD []).map Resource.bare =
        offeredResources lookup restriction announcements name ∧
      ((discover lookup restriction announcements).get? name = none ↔
        offeredResources lookup restriction announcements name = []) := by
  have hbare := map_bare_get?_discover lookup restriction announcements name
  constructor
  · rw [← getD_entryOf (offeredResources lookup restriction announcements name), ← hbare]
    cases (discover lookup restriction announcements).get? name <;> rfl
  · rw [← entryOf_eq_none_iff, ← hbare, Option.map_eq_none_iff]

/-- The second pass leaves the resources of the first as they are, in their order. A resource owns
exactly the subresources on offer for its name, group and version, in the order of the
announcements, if it is the last resource of that name, group and version, and none otherwise. All
in all every subresource on offer is owned once if the first pass has a resource for it, and never
otherwise. -/
theorem discover_attaches_each_offer_once :
    (∀ name,
      ((discover lookup restriction announcements).get? name).map (List.map Resource.bare) =
        (indexResources lookup (admitted restriction announcements)).catalog.get? name) ∧
    (∀ name before r after,
      (discover lookup restriction announcements).get? name = some (before ++ r :: after) →
      r.subResources = if after.any (·.groupVersion = r.groupVersion) then []
        else (offeredSubResources lookup restriction announcements).filter
          (·.parent = ⟨name, r.groupVersion⟩)) ∧
    (discover lookup restriction announcements).owned.Perm
      ((offeredSubResources lookup restriction announcements).filter fun s =>
        (indexResources lookup (admitted restriction announcements)).catalog.hosts s.parent) := by
  refine ⟨fun name => ?_, fun name before r after hfound => ?_, ?_⟩
  · rw [get?_indexResources, map_bare_get?_discover]
  · exact subResources_of_get?_discover lookup restriction announcements hfound
  · have hrun := owned_foldl_attach_perm
      (offeredSubResources lookup restriction announcements)
      (indexResources lookup (admitted restriction announcements)).catalog
    rw [owned_indexResources, List.nil_append] at hrun
    rwa [discover_eq_foldl_attach, filterMap_subResource?_admitted, ← catalog_indexResources]

/-! ## A resource that is announced twice -/

namespace Repeated

/-- The one schema of all kinds. -/
def schema : Schema := ⟨⟨[⟨"Deployment", .anything, []⟩]⟩, "Deployment"⟩

/-- A group and version in which `deployments` is announced twice, and its status once. -/
def announced : List Announcement :=
  [{ groupVersion := "apps/v1"
     resources :=
       [{ name := "deployments", kind := "Deployment" },
        { name := "deployments", kind := "Deployment" },
        { name := "deployments/status", kind := "Deployment" }] }]

/-- The resource, with given subresources. -/
def deployments (subResources : List SubResource) : Resource where
  descriptor :=
    { name := "deployments", kind := "Deployment", group := some "apps", version := some "v1" }
  groupVersion := ⟨"apps", "v1"⟩
  schema := schema
  subResources := subResources

/-- The subresource for its status. -/
def status : SubResource where
  descriptor :=
    { name := "deployments/status", kind := "Deployment", group := some "apps"
      version := some "v1" }
  parent := ⟨"deployments", ⟨"apps", "v1"⟩⟩
  groupVersion := ⟨"apps", "v1"⟩
  schema := schema

/-- The catalog of what is announced. -/
def catalog : Catalog := discover (fun _ => some schema) {} announced

/-- Both resources stand in the catalog, and the last one has the status. -/
theorem get?_catalog :
    catalog.get? "deployments" = some ([deployments []] ++ deployments [status] :: []) := by
  decide

/-- The last resource owns what is on offer for `deployments`. -/
theorem status_attached_to_last :
    catalog.get? "deployments" = some ([deployments []] ++ deployments [status] :: []) ∧
      [status] = (offeredSubResources (fun _ => some schema) {} announced).filter
        (·.parent = ⟨"deployments", ⟨"apps", "v1"⟩⟩) :=
  ⟨get?_catalog, (discover_attaches_each_offer_once (fun _ => some schema) {} announced).2.1
    "deployments" [deployments []] (deployments [status]) [] get?_catalog⟩

end Repeated

end ApiCatalog.Catalog
