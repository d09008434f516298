import ApiCatalog.Proofs.Discovery.Contents

/-!
# Discovery of some groups and versions

No resource owns a subresource of another group and version, so a catalog falls apart into what its
groups and versions have. `within_discover` says so for any choice of them: what a discovered
catalog has within the choice is what their own announcements make. A restriction is such a choice,
and `discover_eq_within_unrestricted` says that it does not matter whether it is applied to the
announcements or to the catalog of all of them.
-/

namespace ApiCatalog

/-- Everything is admitted unless a group or a version is asked for. -/
@[simp] theorem Restriction.admits_unrestricted (gv : GroupVersion) :
    ({} : Restriction).admits gv = true := rfl

namespace Resource

variable (choice : GroupVersion → Bool) (subs : List SubResource)

/-- A resource of a chosen group and version has the same share of what is chosen as of
everything. -/
theorem share_filter {r : Resource} (hchosen : choice r.groupVersion = true)
    (later : List Resource) :
    share (subs.filter (choice ·.parent.groupVersion)) r (later.filter (choice ·.groupVersion)) =
      share subs r later := by
  -- Whoever has the group and version of the resource is chosen with it.
  have hlater : (later.filter (choice ·.groupVersion)).any (·.groupVersion = r.groupVersion) =
      later.any (·.groupVersion = r.groupVersion) := by
    rw [List.any_filter, Bool.eq_iff_iff, List.any_eq_true, List.any_eq_true]
    refine exists_congr fun q => and_congr_right fun _ => ?_
    rw [Bool.and_eq_true, decide_eq_true_eq]
    exact and_iff_right_of_imp fun hsame => hsame ▸ hchosen
  have hsubs : (subs.filter (choice ·.parent.groupVersion)).filter
        (·.parent.groupVersion = r.groupVersion) =
      subs.filter (·.parent.groupVersion = r.groupVersion) := by
    rw [List.filter_filter]
    refine List.filter_congr fun s _ => ?_
    rw [Bool.eq_iff_iff, Bool.and_eq_true, decide_eq_true_eq]
    exact and_iff_left_of_imp fun hsame => hsame ▸ hchosen
  rw [share, share, hlater, hsubs]

/-- Sharing out among the resources of chosen groups and versions is sharing out what is for
them. -/
theorem filter_shareOut (resources : List Resource) :
    (shareOut subs resources).filter (choice ·.groupVersion) =
      shareOut (subs.filter (choice ·.parent.groupVersion))
        (resources.filter (choice ·.groupVersion)) := by
  induction resources with
  | nil => rfl
  | cons r rest ih =>
      rw [shareOut, List.filter_cons, List.filter_cons, ih]
      -- A resource that is not chosen drops out on both sides: no chosen one is in its way.
      by_cases hchosen : choice r.groupVersion = true
      · rw [if_pos hchosen, if_pos hchosen, shareOut, share_filter choice subs hchosen]
      · rw [if_neg hchosen, if_neg hchosen]

end Resource

namespace Catalog

variable (lookup : SchemaLookup) (restriction : Restriction) (choice : GroupVersion → Bool)
  (announcements : List Announcement)

/-- The resources of chosen groups and versions, with all their subresources. Names that are left
with no resource are dropped. -/
def within (choice : GroupVersion → Bool) (c : Catalog) : Catalog :=
  c.filterMap fun r => if choice r.groupVersion then some r else none

/-- Under a name there is an entry of the chosen resources. -/
theorem get?_within (c : Catalog) (name : String) :
    (c.within choice).get? name =
      entryOf (((c.get? name).getD []).filter (choice ·.groupVersion)) := by
  rw [within, get?_filterMap, ← List.filterMap_eq_filter]
  rfl

/-- Under a name stand the chosen resources. -/
theorem getD_get?_within (c : Catalog) (name : String) :
    ((c.within choice).get? name).getD [] =
      ((c.get? name).getD []).filter (choice ·.groupVersion) := by
  rw [get?_within, getD_entryOf]

/-- The announcements of the chosen groups and versions. -/
def announcedWithin (choice : GroupVersion → Bool) (announcements : List Announcement) :
    List Announcement :=
  announcements.filter fun a => choice (GroupVersion.ofText a.groupVersion)

/-- Choosing among the entries is choosing among the announcements. -/
theorem flatMap_entries_announcedWithin :
    (announcedWithin choice announcements).flatMap Announcement.entries =
      (announcements.flatMap Announcement.entries).filter (choice ·.groupVersion) := by
  induction announcements with
  | nil => rfl
  | cons a rest ih =>
      rw [List.flatMap_cons, List.filter_append, filter_entries, ← ih, announcedWithin,
        List.filter_cons]
      split
      · rw [List.flatMap_cons]
        rfl
      · rfl

/-- Choosing among the admitted entries is admitting those of the chosen announcements. -/
theorem filter_admitted :
    (admitted restriction announcements).filter (choice ·.groupVersion) =
      admitted restriction (announcedWithin choice announcements) := by
  unfold admitted
  rw [flatMap_entries_announcedWithin, List.filter_comm]

/-- Without a restriction all announced entries are admitted. -/
theorem admitted_unrestricted :
    admitted {} announcements = announcements.flatMap Announcement.entries := by
  simp [admitted]

/-- A restriction admits all entries of the announcements of the groups and versions that it
admits. -/
theorem admitted_eq_unrestricted :
    admitted restriction announcements =
      admitted {} (announcedWithin restriction.admits announcements) := by
  rw [admitted_unrestricted, flatMap_entries_announcedWithin]
  rfl

/-- What is on offer in the chosen groups and versions is what their own announcements offer. -/
theorem filter_offers :
    (offers lookup restriction announcements).filter (choice ·.groupVersion) =
      offers lookup restriction (announcedWithin choice announcements) := by
  rw [← filterMap_offer?_admitted, ← filterMap_offer?_admitted, ← filter_admitted,
    List.filter_filterMap, List.filterMap_filter]
  refine List.filterMap_congr fun e _ => ?_
  rw [Announced.offer?]
  cases lookup e.defaulted.groupVersionKind <;> simp [Option.filter]

/-- The resources on offer in the chosen groups and versions. -/
theorem filter_offeredResources (name : String) :
    (offeredResources lookup restriction announcements name).filter (choice ·.groupVersion) =
      offeredResources lookup restriction (announcedWithin choice announcements) name := by
  rw [offeredResources, offeredResources, ← filter_offers, List.filter_map, List.filter_comm]
  rfl

/-- The subresources on offer in the chosen groups and versions. -/
theorem filter_offeredSubResources :
    (offeredSubResources lookup restriction announcements).filter
        (choice ·.parent.groupVersion) =
      offeredSubResources lookup restriction (announcedWithin choice announcements) := by
  rw [offeredSubResources, offeredSubResources, ← filter_offers, List.filter_map,
    List.filter_comm]
  rfl

/-- What a discovered catalog has within a choice of groups and versions is what their own
announcements make. -/
theorem within_discover :
    (discover lookup restriction announcements).within choice =
      discover lookup restriction (announcedWithin choice announcements) := by
  refine ext_get? fun name => ?_
  rw [get?_within, get?_discover, get?_discover, getD_entryOf, Resource.filter_shareOut,
    filter_offeredResources, List.filter_comm, filter_offeredSubResources]

/-- Discovery with a restriction is discovery without one of the announcements that it admits. -/
theorem discover_eq_unrestricted :
    discover lookup restriction announcements =
      discover lookup {} (announcedWithin restriction.admits announcements) := by
  unfold discover
  rw [admitted_eq_unrestricted]

/-- Discovery with a restriction finds what discovery without one has in the groups and versions
that are admitted: under every name the resources of these groups and versions, in their order and
with all their subresources. A name is absent exactly when none of its resources is admitted. -/
theorem discover_eq_within_unrestricted :
    discover lookup restriction announcements =
        (discover lookup {} announcements).within restriction.admits ∧
      ∀ name,
        ((discover lookup restriction announcements).get? name).getD [] =
            (((discover lookup {} announcements).get? name).getD []).filter
              (restriction.admits ·.groupVersion) ∧
          ((discover lookup restriction announcements).get? name = none ↔
            ∀ r ∈ ((discover lookup {} announcements).get? name).getD [],
              restriction.admits r.groupVersion = false) := by
  have hwithin : discover lookup restriction announcements =
      (discover lookup {} announcements).within restriction.admits := by
    rw [within_discover, ← discover_eq_unrestricted]
  refine ⟨hwithin, ?_⟩
  intro name
  rw [hwithin]
  refine ⟨getD_get?_within restriction.admits _ name, ?_⟩
  rw [get?_within, entryOf_eq_none_iff, List.filter_eq_nil_iff]
  simp only [Bool.not_eq_true]

end Catalog

end ApiCatalog
