import ApiCatalog.Proofs.Catalog.Order
import ApiCatalog.Proofs.Discovery.Ownership
import ApiCatalog.Proofs.Discovery.Settling
import ApiCatalog.Proofs.Text.Pieces
import ApiCatalog.Report.Table

/-!
# The listing of a catalog

The listing of what a selection keeps of a discovered catalog is made of the announcements directly:
it has a row for each resource on offer that the selection accepts, by the bytes of the names, and
the resources of one name in the order of their announcement (`rows_listing_select_discover`). In
which order the names of a catalog are met, while it is filtered or listed, is of no account.
-/

namespace ApiCatalog

namespace Catalog

variable (c : Catalog)

/-- If the resources bear the names under which they stand, the listing has a row for each. -/
theorem rows_listing (hnamed : ∀ name, ∀ r ∈ (c.get? name).getD [], r.name = name) :
    (Table.listing c).rows = c.toList.map fun r => Table.listingRow r.name r := by
  rw [toList, List.map_flatMap]
  refine List.flatMap_congr fun entry hmem => ?_
  refine List.map_congr_left fun r hr => ?_
  have hfound : c.get? entry.1 = some entry.2 := Keyed.get?_of_mem c.ordered hmem
  rw [hnamed entry.1 r (by rw [hfound]; exact hr)]

/-- The listing goes over the names in order, in whatever order they are met before. -/
theorem rows_listing_of_perm {order : List String} (horder : order.Perm c.names) :
    (Table.listing c).rows =
      (order.mergeSort (bytesLe id)).flatMap fun name =>
        ((c.get? name).getD []).map (Table.listingRow name) := by
  rw [mergeSort_names c horder, names, List.flatMap_map]
  refine List.flatMap_congr fun entry hmem => ?_
  have hfound : c.get? entry.1 = some entry.2 := Keyed.get?_of_mem c.ordered hmem
  rw [hfound, Option.getD_some]

/-- What a selection keeps is collected from the names in any order. -/
theorem select_eq_ofList_of_perm (hnamed : ∀ name, ∀ r ∈ (c.get? name).getD [], r.name = name)
    (selection : Selection) {order : List String} (horder : order.Perm c.names) :
    c.select selection =
      ofList (order.flatMap fun name =>
        ((c.get? name).getD []).filterMap selection.kept?) := by
  have hcollected : c.select selection =
      (ofList (order.flatMap fun name => (c.get? name).getD [])).select selection := by
    refine ext_get? fun name => ?_
    rw [get?_select, get?_select, get?_ofList, getD_entryOf,
      filter_flatMap_get? c hnamed (horder.nodup_iff.2 (nodup_names c))]
    split
    next => rfl
    next hname =>
      rw [horder.mem_iff, mem_names_iff, not_not] at hname
      rw [hname, Option.getD_none]
  rw [hcollected, select_ofList, List.filter_flatMap, List.map_flatMap]
  congr 2
  funext name
  rw [← List.filterMap_eq_map, List.filterMap_filter]
  rfl

variable (lookup : SchemaLookup) (restriction : Restriction) (announcements : List Announcement)

/-- The listing of what a selection keeps of a discovered catalog has one row for each resource on
offer that the selection accepts. The rows are sorted by the bytes of the names, and those of one
name stand in the order of the announcements. The subresources in a row are those that the selection
keeps of those that the resource owns, in the order of the announcements. It makes no difference in
which order the names of the discovered catalog are met when the selection is made, nor in which
order those of the selected catalog are met when their list is sorted. -/
theorem rows_listing_select_discover (selection : Selection) :
    (Table.listing ((discover lookup restriction announcements).select selection)).rows =
        (((settledResources lookup restriction announcements).filter fun r =>
            selection.keepsResource r).mergeSort fun r q =>
              Text.bytes r.name ≤ Text.bytes q.name).map (fun r =>
          [r.name,
            if r.groupVersion.group = "" then "core" else r.groupVersion.group,
            r.groupVersion.version,
            r.descriptor.kind,
            if r.descriptor.namespaced then "true" else "false",
            ",".intercalate ((r.subResources.filter fun s =>
              selection.keepsSubResource s).map SubResource.ownName),
            ",".intercalate (r.descriptor.shortNames.getD [])]) ∧
    (∀ order : List String, order.Perm (discover lookup restriction announcements).names →
      (discover lookup restriction announcements).select selection =
        ofList (order.flatMap fun name =>
          (((discover lookup restriction announcements).get? name).getD []).filterMap
            selection.kept?)) ∧
    (∀ order : List String,
      order.Perm ((discover lookup restriction announcements).select selection).names →
      (Table.listing ((discover lookup restriction announcements).select selection)).rows =
        (order.mergeSort fun a b => Text.bytes a ≤ Text.bytes b).flatMap fun name =>
          ((((discover lookup restriction announcements).select selection).get? name).getD []).map
            (Table.listingRow name)) := by
  refine ⟨?_, fun order => ?_, fun order => ?_⟩
  · have hnarrow : ∀ r q : Resource, bytesLe Resource.name (selection.narrow r)
        (selection.narrow q) = bytesLe Resource.name r q := fun _ _ => rfl
    rw [discover_eq_ofList, select_ofList, rows_listing _ (name_of_mem_get?_ofList _),
      toList_ofList, ← List.map_mergeSort fun r _ q _ => (hnarrow r q).symm, List.map_map]
    refine List.map_congr_left fun r _ => ?_
    simp only [Function.comp_apply, Table.listingRow, Table.listCell, Text.join_eq_intercalate]
    rfl
  · rw [discover_eq_ofList]
    exact select_eq_ofList_of_perm _ (name_of_mem_get?_ofList _) selection
  · exact rows_listing_of_perm _

namespace Repeated

/-- The core group in front of the group in which `deployments` is announced twice. -/
def announcedWithPods : List Announcement :=
  { groupVersion := "v1"
    resources :=
      [{ name := "pods", kind := "Pod", namespaced := true, shortNames := some ["po", "pod"] },
       { name := "pods/log", kind := "Pod" }, { name := "pods/status", kind := "Pod" }] } ::
    announced

/-- What is left of the catalog without the subresources for the status. -/
def withoutStatus : Catalog :=
  (discover (fun _ => some schema) {} announcedWithPods).select .withoutStatus

/-- The names are met from the last one on, and still the rows of the resource that is announced
twice come first. -/
theorem rows_listing_backwards :
    (["pods", "deployments"].Perm (discover (fun _ => some schema) {} announcedWithPods).names ∧
      ["pods", "deployments"].Perm withoutStatus.names) ∧
    withoutStatus =
      ofList (["pods", "deployments"].flatMap fun name =>
        (((discover (fun _ => some schema) {} announcedWithPods).get? name).getD []).filterMap
          Selection.withoutStatus.kept?) ∧
    (Table.listing withoutStatus).rows =
      (["pods", "deployments"].mergeSort fun a b => Text.bytes a ≤ Text.bytes b).flatMap
        (fun name => ((withoutStatus.get? name).getD []).map (Table.listingRow name)) ∧
    (Table.listing withoutStatus).rows =
      [["deployments", "apps", "v1", "Deployment", "false", "", ""],
       ["deployments", "apps", "v1", "Deployment", "false", "", ""],
       ["pods", "core", "v1", "Pod", "true", "log", "po,pod"]] := by
  have hdiscovered : ["pods", "deployments"].Perm
      (discover (fun _ => some schema) {} announcedWithPods).names := by decide
  have hselected : ["pods", "deployments"].Perm withoutStatus.names := by decide
  have hrows := rows_listing_select_discover (fun _ => some schema) {} announcedWithPods
    .withoutStatus
  exact ⟨⟨hdiscovered, hselected⟩, hrows.2.1 _ hdiscovered, hrows.2.2 _ hselected, by decide⟩

end Repeated

end Catalog

end ApiCatalog
