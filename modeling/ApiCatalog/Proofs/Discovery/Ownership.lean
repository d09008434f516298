import ApiCatalog.Proofs.Discovery.Contents

/-!
# Owners of subresources

Discovery hands a subresource to the last resource of a name, group and version, and
`Catalog.parentOf` finds the first. `parentOf_select_discover` says which resource is found in what
a selection keeps of a discovered catalog. It is the one that owns the subresource, whatever is
selected, exactly when no other resource of that name is on offer in its group and version.
-/

namespace ApiCatalog

namespace Catalog

section Owners

variable {lookup : SchemaLookup} {restriction : Restriction} {announcements : List Announcement}
  {name : String} {before after : List Resource} {r : Resource} {s : SubResource}

/-- The resource that owns a subresource is the last of the name, group and version that the
subresource names. -/
theorem parent_of_mem_subResources
    (hfound : (discover lookup restriction announcements).get? name = some (before ++ r :: after))
    (howned : s ∈ r.subResources) :
    s.parent = ⟨name, r.groupVersion⟩ ∧ ∀ q ∈ after, q.groupVersion ≠ r.groupVersion :=
  (of_mem_subResources lookup restriction announcements hfound howned).2

/-- A resource with another of its name, group and version behind it owns nothing. -/
theorem subResources_eq_nil_of_mem_before
    (hfound : (discover lookup restriction announcements).get? name = some (before ++ r :: after))
    {q : Resource} (hq : q ∈ before) (hsame : q.groupVersion = r.groupVersion) :
    q.subResources = [] := by
  -- Seen from `q`, the resource `r` is one of those behind.
  obtain ⟨first, between, rfl⟩ := List.append_of_mem hq
  have hsplit : (first ++ q :: between) ++ r :: after = first ++ q :: (between ++ r :: after) := by
    rw [List.append_assoc, List.cons_append]
  rw [hsplit] at hfound
  rw [subResources_of_get?_discover lookup restriction announcements hfound, if_pos]
  simp [hsame]

/-- No more resources of its name, group and version are on offer than stand up to the owner. -/
theorem countP_offeredResources
    (hfound : (discover lookup restriction announcements).get? name = some (before ++ r :: after))
    (howned : s ∈ r.subResources) :
    (offeredResources lookup restriction announcements name).countP
        (·.groupVersion = r.groupVersion) =
      before.countP (·.groupVersion = r.groupVersion) + 1 := by
  have hbare := map_bare_get?_discover lookup restriction announcements name
  rw [hfound, Option.map_some, eq_comm, entryOf_eq_some_iff] at hbare
  have hafter : after.countP (·.groupVersion = r.groupVersion) = 0 := by
    rw [List.countP_eq_zero]
    intro q hq
    simpa using (parent_of_mem_subResources hfound howned).2 q hq
  have hcount : ((before ++ r :: after).map Resource.bare).countP
        (·.groupVersion = r.groupVersion) =
      (before ++ r :: after).countP (·.groupVersion = r.groupVersion) := by
    rw [List.countP_map]
    rfl
  rw [hbare.1, hcount, List.countP_append, List.countP_cons, hafter]
  simp

/-- In what a selection keeps, the owner that is found is the first accepted resource of the name,
group and version, up to the resource that owns the subresource. -/
theorem parentOf_select_discover
    (hfound : (discover lookup restriction announcements).get? name = some (before ++ r :: after))
    (howned : s ∈ r.subResources) (selection : Selection) :
    ((discover lookup restriction announcements).select selection).parentOf s =
      ((before.find? fun q => selection.keepsResource q && q.groupVersion = r.groupVersion).map
        selection.narrow).or (selection.kept? r) := by
  obtain ⟨hparent, hlast⟩ := parent_of_mem_subResources hfound howned
  have hafter : after.find? (fun q =>
      selection.keepsResource q && q.groupVersion = r.groupVersion) = none := by
    rw [List.find?_eq_none]
    intro q hq
    simp [hlast q hq]
  rw [parentOf_select, hparent, hfound, Option.getD_some, List.find?_append, Option.map_or,
    List.find?_cons, hafter, Selection.kept?]
  congr 1
  cases selection.keepsResource r <;> simp

/-- The owner is found if the selection accepts no resource of the name, group and version in front
of it. -/
theorem parentOf_select_of_forall_before
    (hfound : (discover lookup restriction announcements).get? name = some (before ++ r :: after))
    (howned : s ∈ r.subResources) {selection : Selection}
    (hfirst : ∀ q ∈ before, q.groupVersion = r.groupVersion →
      selection.keepsResource q = false) :
    ((discover lookup restriction announcements).select selection).parentOf s =
      selection.kept? r := by
  have hnone : before.find? (fun q =>
      selection.keepsResource q && q.groupVersion = r.groupVersion) = none := by
    rw [List.find?_eq_none]
    intro q hq
    by_cases hsame : q.groupVersion = r.groupVersion
    · simp [hfirst q hq hsame]
    · simp [hsame]
  rw [parentOf_select_discover hfound howned, hnone, Option.map_none, Option.none_or]

/-- If the owner is found with the subresource, no resource of its name, group and version that
stands in front of it is accepted. -/
theorem forall_before_of_parentOf_select
    (hfound : (discover lookup restriction announcements).get? name = some (before ++ r :: after))
    (howned : s ∈ r.subResources) (selection : Selection)
    (hkeeps : selection.keepsSubResource s = true)
    (hparent : ((discover lookup restriction announcements).select selection).parentOf s =
      selection.kept? r) :
    ∀ q ∈ before, q.groupVersion = r.groupVersion → selection.keepsResource q = false := by
  rw [parentOf_select_discover hfound howned] at hparent
  cases hfind : before.find? (fun q =>
      selection.keepsResource q && q.groupVersion = r.groupVersion) with
  | none =>
      intro q hq hsame
      simpa [hsame] using List.find?_eq_none.1 hfind q hq
  | some first =>
      -- The resource that is found owns nothing, and the owner keeps the subresource.
      exfalso
      rw [hfind, Option.map_some, Option.some_or, Selection.kept?] at hparent
      have hsame := List.find?_some hfind
      rw [Bool.and_eq_true, decide_eq_true_eq] at hsame
      have hnone := subResources_eq_nil_of_mem_before hfound (List.mem_of_find?_eq_some hfind)
        hsame.2
      split at hparent
      next =>
        have hmem : s ∈ (selection.narrow r).subResources :=
          List.mem_filter.2 ⟨howned, hkeeps⟩
        rw [← Option.some.inj hparent, Selection.narrow, hnone] at hmem
        cases hmem
      next => cases hparent

/-- In what a selection keeps of a discovered catalog, the owner that is found of a subresource is
the first resource of its owner's name, group and version that the selection accepts. It is the
resource that owns the subresource for every selection exactly when no other resource of that name
is on offer in that group and version; for one selection that keeps the subresource, exactly when
the selection accepts no such resource in front of the owner. -/
theorem parentOf_select_is_owner_iff
    (hfound : (discover lookup restriction announcements).get? name = some (before ++ r :: after))
    (howned : s ∈ r.subResources) :
    (∀ selection : Selection,
      ((discover lookup restriction announcements).select selection).parentOf s =
        ((before.find? fun q => selection.keepsResource q && q.groupVersion = r.groupVersion).map
          selection.narrow).or (selection.kept? r)) ∧
    (∀ selection : Selection, selection.keepsSubResource s = true →
      (((discover lookup restriction announcements).select selection).parentOf s =
          selection.kept? r ↔
        ∀ q ∈ before, q.groupVersion = r.groupVersion → selection.keepsResource q = false)) ∧
    ((∀ selection : Selection,
        ((discover lookup restriction announcements).select selection).parentOf s =
          selection.kept? r) ↔
      (offeredResources lookup restriction announcements name).countP
        (·.groupVersion = r.groupVersion) = 1) := by
  refine ⟨parentOf_select_discover hfound howned, fun selection hkeeps => ⟨?_, ?_⟩, ?_⟩
  · exact forall_before_of_parentOf_select hfound howned selection hkeeps
  · exact parentOf_select_of_forall_before hfound howned
  · rw [countP_offeredResources hfound howned, Nat.add_eq_right, List.countP_eq_zero]
    constructor
    · intro hall q hq hsame
      have hkeeps : Selection.everything.keepsSubResource s = true := by
        simp [Selection.keepsSubResource]
      have hrejected := forall_before_of_parentOf_select hfound howned .everything hkeeps
        (hall .everything) q hq (of_decide_eq_true hsame)
      simp [Selection.keepsResource] at hrejected
    · intro hnone selection
      refine parentOf_select_of_forall_before hfound howned fun q hq hsame => ?_
      exact absurd (decide_eq_true hsame) (hnone q hq)

end Owners

namespace Repeated

/-- Of the two resources of one name, group and version the first is found for the status, which the
last one owns. -/
theorem parentOf_status_is_not_owner :
    catalog.get? "deployments" = some ([deployments []] ++ deployments [status] :: []) ∧
      status ∈ (deployments [status]).subResources ∧
      (catalog.select .everything).parentOf status = some (deployments []) ∧
      Selection.everything.kept? (deployments [status]) = some (deployments [status]) ∧
      deployments [] ≠ deployments [status] := by
  decide

/-- Two resources of the name are on offer in the group and version of the status, so that some
selection does not find the owner. -/
theorem parentOf_status_is_not_always_owner :
    (catalog.get? "deployments" = some ([deployments []] ++ deployments [status] :: []) ∧
      status ∈ (deployments [status]).subResources) ∧
    ¬ ∀ selection : Selection,
      (catalog.select selection).parentOf status = selection.kept? (deployments [status]) := by
  have howned : status ∈ (deployments [status]).subResources := by decide
  refine ⟨⟨get?_catalog, howned⟩, fun hall => ?_⟩
  have hone := (parentOf_select_is_owner_iff get?_catalog howned).2.2.1 hall
  exact absurd hone (by decide)

end Repeated

end Catalog

end ApiCatalog
