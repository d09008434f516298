import ApiCatalog.Proofs.Discovery.Contents

/-!
# Discovery in the order of the announcements

A discovered catalog is the catalog of a list of resources (`discover_eq_ofList`): those on offer,
in the order of the announcements, each with the subresources that it owns. `settle` gives every
resource of a list its subresources, in one go and whatever the names of the resources.
-/

namespace ApiCatalog

namespace Resource

/-- Give every resource of a list the subresources that name it as their owner, in their order. Of
several resources with one name, group and version only the last one gets them. -/
def settle (subs : List SubResource) : List Resource → List Resource
  | [] => []
  | r :: rest =>
    { r with subResources :=
        if rest.any (·.ref = r.ref) then [] else subs.filter (·.parent = r.ref) } ::
      settle subs rest

variable (subs : List SubResource)

/-- A resource is settled as its share of the subresources among the resources of its name. -/
theorem settle_share (r : Resource) (rest : List Resource) :
    (if rest.any (·.ref = r.ref) then [] else subs.filter (·.parent = r.ref)) =
      share (subs.filter (·.parent.name = r.name)) r (rest.filter (·.name = r.name)) := by
  have hlater : rest.any (·.ref = r.ref) =
      (rest.filter (·.name = r.name)).any (·.groupVersion = r.groupVersion) := by
    rw [List.any_filter]
    congr 1
    funext q
    rw [ref, ref, ← Bool.decide_and]
    simp only [ParentRef.mk.injEq]
  have howned : subs.filter (·.parent = r.ref) =
      (subs.filter (·.parent.name = r.name)).filter (·.parent.groupVersion = r.groupVersion) := by
    rw [List.filter_filter]
    refine List.filter_congr fun s _ => ?_
    obtain ⟨name, gv⟩ := s.parent
    rw [ref, ← Bool.decide_and]
    simp only [ParentRef.mk.injEq, and_comm]
  rw [share, hlater, howned]

/-- Among the resources of a name settling is sharing out what is for that name. -/
theorem filter_settle (name : String) {resources : List Resource}
    (hbare : ∀ r ∈ resources, r.subResources = []) :
    (settle subs resources).filter (·.name = name) =
      shareOut (subs.filter (·.parent.name = name)) (resources.filter (·.name = name)) := by
  induction resources with
  | nil => rfl
  | cons r rest ih =>
      have hrest := ih fun q hq => hbare q (List.mem_cons_of_mem _ hq)
      rw [settle, settle_share, List.filter_cons, List.filter_cons, hrest]
      -- Settling leaves the name as it is.
      show (if decide (r.name = name) then _ else _) = _
      by_cases hname : r.name = name
      · rw [if_pos (decide_eq_true hname), if_pos (decide_eq_true hname), shareOut,
          hbare r List.mem_cons_self, List.nil_append, hname]
      · rw [if_neg (by simpa using hname), if_neg (by simpa using hname)]

end Resource

namespace Catalog

variable (lookup : SchemaLookup) (restriction : Restriction) (announcements : List Announcement)

/-- The resources on offer in the order of the announcements, each with the subresources that it
owns. -/
def settledResources : List Resource :=
  Resource.settle (offeredSubResources lookup restriction announcements)
    (((offers lookup restriction announcements).filter (!·.isSub)).map Offer.resource)

/-- Discovery makes the catalog of the settled resources. -/
theorem discover_eq_ofList :
    discover lookup restriction announcements =
      ofList (settledResources lookup restriction announcements) := by
  refine ext_get? fun name => ?_
  have hbare : ∀ r ∈ ((offers lookup restriction announcements).filter (!·.isSub)).map
      Offer.resource, r.subResources = [] := by
    intro r hr
    obtain ⟨o, -, rfl⟩ := List.mem_map.1 hr
    rfl
  rw [get?_discover, get?_ofList, settledResources, Resource.filter_settle _ _ hbare,
    List.filter_map, List.filter_filter]
  rfl

end Catalog

end ApiCatalog
