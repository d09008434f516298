import ApiCatalog.Proofs.Discovery.Restriction

/-!
# Discovery of rearranged announcements

Two ways to announce the same. A catalog depends on the announced resources in their order and on
the announced subresources in theirs, but not on how the two are interleaved and cut into lists
(`discover_eq_of_same_announced`). And announcements of different groups and versions may change
places: each group and version has what it had before (`discover_rearranged`), since what it has is
made of its own announcements alone.
-/

namespace ApiCatalog

/-! ## Resources and subresources apart -/

/-- The announced resources, each with the group and version that announces it. -/
def announcedResources (announcements : List Announcement) : List Announced :=
  (announcements.flatMap Announcement.entries).filter (!·.descriptor.isSub)

/-- The announced subresources, each with the group and version that announces it. -/
def announcedSubResources (announcements : List Announcement) : List Announced :=
  (announcements.flatMap Announcement.entries).filter (·.descriptor.isSub)

namespace Catalog

variable (lookup : SchemaLookup) (restriction : Restriction)

/-- A pass that takes nothing of some entries goes over the other ones only. -/
theorem filterMap_admitted_filter {α : Type} {pass : Announced → Option α}
    {heeds : Announced → Bool} (hpass : ∀ e, heeds e = false → pass e = none)
    (announcements : List Announcement) :
    (admitted restriction announcements).filterMap pass =
      (((announcements.flatMap Announcement.entries).filter heeds).filter
        (restriction.admits ·.groupVersion)).filterMap pass := by
  rw [List.filter_comm, ← admitted, List.filterMap_filter]
  refine List.filterMap_congr fun e _ => ?_
  cases hheeds : heeds e with
  | false => exact hpass e hheeds
  | true => rfl

/-- The first pass goes over the announced resources only. -/
theorem filterMap_resource?_eq (announcements : List Announcement) :
    (admitted restriction announcements).filterMap (Announced.resource? lookup) =
      ((announcedResources announcements).filter (restriction.admits ·.groupVersion)).filterMap
        (Announced.resource? lookup) := by
  refine filterMap_admitted_filter restriction (fun e hsub => ?_) announcements
  rw [Bool.not_eq_false'] at hsub
  rw [Announced.resource?, if_pos hsub]

/-- The second pass goes over the announced subresources only. -/
theorem filterMap_subResource?_eq (announcements : List Announcement) :
    (admitted restriction announcements).filterMap (Announced.subResource? lookup) =
      ((announcedSubResources announcements).filter
        (restriction.admits ·.groupVersion)).filterMap (Announced.subResource? lookup) := by
  refine filterMap_admitted_filter restriction (fun e hsub => ?_) announcements
  rw [Announced.subResource?, hsub, if_neg Bool.false_ne_true]

/-- Discovery sees the resources and the subresources, each in their order, and nothing else. -/
theorem discover_congr {announcements others : List Announcement}
    (hresources : announcedResources announcements = announcedResources others)
    (hsubs : announcedSubResources announcements = announcedSubResources others) :
    discover lookup restriction announcements = discover lookup restriction others := by
  rw [discover_eq_foldl_attach, discover_eq_foldl_attach, filterMap_resource?_eq,
    filterMap_subResource?_eq, hresources, hsubs, ← filterMap_resource?_eq,
    ← filterMap_subResource?_eq]

/-- Announcements with the same resources in the same order, and the same subresources in the same
order, make the same catalog. So it does not matter how the entries are cut into announcements, nor
on which side of any resources, its own among them, a subresource is announced. -/
theorem discover_eq_of_same_announced :
    (∀ announcements others,
      announcedResources announcements = announcedResources others →
      announcedSubResources announcements = announcedSubResources others →
      discover lookup restriction announcements = discover lookup restriction others) ∧
    (∀ announcements others : List Announcement,
      announcements.flatMap Announcement.entries = others.flatMap Announcement.entries →
      discover lookup restriction announcements = discover lookup restriction others) ∧
    (∀ (announcements others : List Announcement) before sub resources after,
      sub.descriptor.isSub = true →
      (∀ e ∈ resources, e.descriptor.isSub = false) →
      announcements.flatMap Announcement.entries = before ++ sub :: resources ++ after →
      others.flatMap Announcement.entries = before ++ resources ++ sub :: after →
      discover lookup restriction announcements = discover lookup restriction others) := by
  refine ⟨fun _ _ => discover_congr lookup restriction, ?_, ?_⟩
  · intro announcements others hentries
    apply discover_congr
    · rw [announcedResources, hentries, announcedResources]
    · rw [announcedSubResources, hentries, announcedSubResources]
  · intro announcements others before sub resources after hsub hresources hfirst hlast
    -- No subresource stands between the two places of this one.
    have hnone : resources.filter (·.descriptor.isSub) = [] :=
      List.filter_eq_nil_iff.2 fun e he => by simp [hresources e he]
    apply discover_congr
    · rw [announcedResources, hfirst, announcedResources, hlast]
      simp [hsub]
    · rw [announcedSubResources, hfirst, announcedSubResources, hlast]
      simp [hsub, hnone]

namespace Interleaved

/-- The resource with the group and version that announces it. -/
def deployments : Announced := ⟨⟨"apps", "v1"⟩, { name := "deployments", kind := "Deployment" }⟩

/-- The subresource for its status. -/
def status : Announced := ⟨⟨"apps", "v1"⟩, { name := "deployments/status", kind := "Deployment" }⟩

/-- Both in one list, the resource first. -/
def together : List Announcement :=
  [{ groupVersion := "apps/v1", resources := [deployments.descriptor, status.descriptor] }]

/-- Each in a list of its own, the subresource first. -/
def apart : List Announcement :=
  [{ groupVersion := "apps/v1", resources := [status.descriptor] },
   { groupVersion := "apps/v1", resources := [deployments.descriptor] }]

/-- The status is found though it is announced before the resource, in another list. -/
theorem discover_apart :
    (announcedResources apart = announcedResources together ∧
      announcedSubResources apart = announcedSubResources together) ∧
    apart.flatMap Announcement.entries = [] ++ status :: [deployments] ++ [] ∧
    discover (fun _ => some Repeated.schema) {} apart =
      discover (fun _ => some Repeated.schema) {} together := by
  have hresources : announcedResources apart = announcedResources together := by decide
  have hsubs : announcedSubResources apart = announcedSubResources together := by decide
  refine ⟨⟨hresources, hsubs⟩, by decide, ?_⟩
  exact (discover_eq_of_same_announced (fun _ => some Repeated.schema) {}).1 apart together
    hresources hsubs

end Interleaved

end Catalog

/-! ## Groups and versions apart -/

/-- Lists that agree on every class of entries, in its order, have the same entries. -/
theorem perm_of_filter_eq {α β : Type} [DecidableEq α] [DecidableEq β] (classOf : α → β)
    {entries others : List α}
    (hsame : ∀ b, entries.filter (classOf · = b) = others.filter (classOf · = b)) :
    entries.Perm others := by
  rw [List.perm_iff_count]
  intro a
  -- An entry is found only in its own class, so it is counted there.
  have hcount : ∀ list : List α, (list.filter (classOf · = classOf a)).count a = list.count a :=
    fun list => List.count_filter (decide_eq_true rfl)
  rw [← hcount entries, ← hcount others, hsame]

/-- Announcements have changed places, but those of each group and version stand in the order in
which they stood before. They are a permutation of those before, by `perm_of_filter_eq`. -/
def Rearranged (announcements others : List Announcement) : Prop :=
  ∀ gv, announcements.filter (GroupVersion.ofText ·.groupVersion = gv) =
    others.filter (GroupVersion.ofText ·.groupVersion = gv)

namespace Catalog

variable (lookup : SchemaLookup) (restriction : Restriction)
  {announcements others : List Announcement}

/-- Rearranging the announcements leaves what a group and version has as it is. -/
theorem within_discover_rearranged (h : Rearranged announcements others) (gv : GroupVersion) :
    (discover lookup restriction announcements).within (· = gv) =
      (discover lookup restriction others).within (· = gv) := by
  have hwithin : announcedWithin (· = gv) announcements = announcedWithin (· = gv) others := h gv
  rw [within_discover, within_discover, hwithin]

/-- A name is absent from a discovered catalog exactly when there is nothing to list. -/
theorem get?_discover_eq_none_iff (name : String) :
    (discover lookup restriction announcements).get? name = none ↔
      ((discover lookup restriction announcements).get? name).getD [] = [] := by
  rw [get?_discover, getD_entryOf, entryOf_eq_none_iff]

/-- If announcements are rearranged, every name has in every group and version the resources that it
had before, in the same order and with the same subresources. All in all the resources of a name are
a permutation of those before, and the same names are absent. -/
theorem discover_rearranged (h : Rearranged announcements others) (name : String) :
    (∀ gv,
      (((discover lookup restriction announcements).get? name).getD []).filter
          (·.groupVersion = gv) =
        (((discover lookup restriction others).get? name).getD []).filter
          (·.groupVersion = gv)) ∧
    (((discover lookup restriction announcements).get? name).getD []).Perm
      (((discover lookup restriction others).get? name).getD []) ∧
    ((discover lookup restriction announcements).get? name = none ↔
      (discover lookup restriction others).get? name = none) := by
  have hsame : ∀ gv,
      (((discover lookup restriction announcements).get? name).getD []).filter
          (·.groupVersion = gv) =
        (((discover lookup restriction others).get? name).getD []).filter
          (·.groupVersion = gv) := by
    intro gv
    rw [← getD_get?_within (· = gv), within_discover_rearranged lookup restriction h gv,
      getD_get?_within]
  have hperm := perm_of_filter_eq Resource.groupVersion hsame
  refine ⟨hsame, hperm, ?_⟩
  rw [get?_discover_eq_none_iff, get?_discover_eq_none_iff, ← List.length_eq_zero_iff,
    hperm.length_eq, List.length_eq_zero_iff]

namespace TwoGroups

/-- What two groups announce under one name. -/
def events : Descriptor := { name := "events", kind := "Event" }

/-- The core group. -/
def core : Announcement := { groupVersion := "v1", resources := [events] }

/-- A group of its own. -/
def own : Announcement := { groupVersion := "events.k8s.io/v1", resources := [events] }

/-- The groups may change places. -/
theorem rearranged : Rearranged [core, own] [own, core] := by
  intro gv
  have hcore : GroupVersion.ofText core.groupVersion = ⟨"", "v1"⟩ := by decide
  have hown : GroupVersion.ofText own.groupVersion = ⟨"events.k8s.io", "v1"⟩ := by decide
  by_cases hgv : (⟨"", "v1"⟩ : GroupVersion) = gv
  · subst hgv
    simp [hcore, hown]
  · simp [List.filter_cons, hcore, hown, hgv]

/-- The resources of the name change places with their groups, and each group has the one that it
had before. -/
theorem discover_own_first :
    Rearranged [core, own] [own, core] ∧
    discover (fun _ => some Repeated.schema) {} [core, own] ≠
      discover (fun _ => some Repeated.schema) {} [own, core] ∧
    ∀ gv,
      (((discover (fun _ => some Repeated.schema) {} [core, own]).get? "events").getD []).filter
          (·.groupVersion = gv) =
        (((discover (fun _ => some Repeated.schema) {} [own, core]).get? "events").getD []).filter
          (·.groupVersion = gv) :=
  ⟨rearranged, by decide,
    (discover_rearranged (fun _ => some Repeated.schema) {} rearranged "events").1⟩

end TwoGroups

end Catalog

end ApiCatalog
