import ApiCatalog.Config
import ApiCatalog.Proofs.Discovery.Restriction
import ApiCatalog.Proofs.Report.Listing

/-!
# Cells as choices

The listing shows the group and the version of every row, and a command line that names both of them
chooses the rows that show them, in their order (`rows_listing_of_cells`). The core group goes by
the same name in both places. So a group that really bears this name is shown like the core group
and cannot be chosen: its rows are the exception (`named_core_not_chosen`).
-/

namespace ApiCatalog

namespace Table

/-- Two rows of a listing show the same group and version. -/
def SameVersion (row other : List String) : Prop := other[1]? = row[1]? ∧ other[2]? = row[2]?

instance (row other : List String) : Decidable (SameVersion row other) :=
  inferInstanceAs (Decidable (_ ∧ _))

/-- The row of a resource under its own name. -/
def rowOf (r : Resource) : List String := listingRow r.name r

/-- Rows show the same group and version if these are shown by the same cells. -/
theorem sameVersion_rowOf_iff {r q : Resource} :
    SameVersion (rowOf r) (rowOf q) ↔
      groupCell q.groupVersion.group = groupCell r.groupVersion.group ∧
        q.groupVersion.version = r.groupVersion.version := by
  simp [SameVersion, rowOf, listingRow]

/-- The cell of a group names this group, except for one that is called as the core group is
shown. -/
theorem groupOf_groupCell (group : String) :
    Options.groupOf (groupCell group) = if group = coreGroup then "" else group := by
  unfold Options.groupOf groupCell
  by_cases hempty : group = ""
  · subst hempty
    rfl
  · rw [if_neg hempty]

/-- What a cell names is the group that shows this cell and is not called as the core group is
shown. -/
theorem groupOf_groupCell_eq_iff {group other : String} :
    Options.groupOf (groupCell group) = other ↔
      groupCell other = groupCell group ∧ other ≠ coreGroup := by
  have hcore : coreGroup ≠ "" := by decide
  rw [groupOf_groupCell]
  unfold groupCell
  by_cases hgroup : group = coreGroup
  · subst hgroup
    by_cases hother : other = "" <;> simp [hcore, hother, eq_comm]
  · by_cases hempty : group = "" <;> by_cases hother : other = "" <;> grind

end Table

namespace Catalog

open Table (SameVersion rowOf groupCell coreGroup)

/-- What is kept of a catalog is kept of all its resources, in their order. -/
theorem toList_filterMap (c : Catalog) (keep : Resource → Option Resource) :
    (c.filterMap keep).toList = c.toList.filterMap keep := by
  obtain ⟨entries, hordered⟩ := c
  unfold filterMap toList
  dsimp only
  clear hordered
  induction entries with
  | nil => rfl
  | cons entry rest ih =>
      obtain ⟨name, resources⟩ := entry
      rw [List.flatMap_cons, List.filterMap_append, ← ih]
      simp only [Keyed.filterMap, List.filterMap_cons]
      cases resources.filterMap keep <;> rfl

/-- The resources of a catalog within a choice are those of the chosen groups and versions. -/
theorem toList_within (choice : GroupVersion → Bool) (c : Catalog) :
    (c.within choice).toList = c.toList.filter (choice ·.groupVersion) := by
  rw [within, toList_filterMap, ← List.filterMap_eq_filter]
  rfl

variable (lookup : SchemaLookup) (announcements : List Announcement)

/-- The listing of a discovered catalog has a row for each of its resources. -/
theorem rows_listing_discover (restriction : Restriction) :
    (Table.listing (discover lookup restriction announcements)).rows =
      (discover lookup restriction announcements).toList.map rowOf := by
  rw [discover_eq_ofList]
  exact rows_listing _ (name_of_mem_get?_ofList _)

/-- The listing of what a restriction admits has the rows of the resources that it admits. -/
theorem rows_listing_restricted (restriction : Restriction) :
    (Table.listing (discover lookup restriction announcements)).rows =
      ((discover lookup {} announcements).toList.filter (restriction.admits ·.groupVersion)).map
        rowOf := by
  rw [rows_listing_discover, (discover_eq_within_unrestricted lookup restriction announcements).1,
    toList_within]

/-- The group and the version that a row shows choose the resources that show both, except those of
a group that is called as the core group is shown. -/
theorem admits_cells_iff (config : Config) (o : Options) {r q : Resource} :
    (config.override
        { o with
          group := some (groupCell r.groupVersion.group)
          apiVersion := some r.groupVersion.version }).restriction.admits q.groupVersion = true ↔
      SameVersion (rowOf r) (rowOf q) ∧ q.groupVersion.group ≠ coreGroup := by
  rw [Table.sameVersion_rowOf_iff, and_right_comm, ← Table.groupOf_groupCell_eq_iff,
    Restriction.admits, Bool.and_eq_true]
  exact and_congr decide_eq_true_iff (decide_eq_true_iff.trans eq_comm)

/-- For every row of the listing, the command line that gives its cells for the group and the
version lists the rows that show the same group and version, in their order, except those of a group
that is called as the core group is shown. If the row does not show the core group, or no group is
called like that, it lists all of them. -/
theorem rows_listing_of_cells (config : Config) (o : Options) {row : List String}
    (hrow : row ∈ (Table.listing (discover lookup {} announcements)).rows) :
    ∃ group version, row[1]? = some group ∧ row[2]? = some version ∧
      let chosen := (config.override
        { o with group := some group, apiVersion := some version }).restriction
      let resources := (discover lookup {} announcements).toList
      (Table.listing (discover lookup {} announcements)).rows = resources.map rowOf ∧
      (Table.listing (discover lookup chosen announcements)).rows =
        (resources.filter fun r =>
          SameVersion row (rowOf r) ∧ r.groupVersion.group ≠ coreGroup).map rowOf ∧
      (group ≠ coreGroup ∨ (∀ r ∈ resources, r.groupVersion.group ≠ coreGroup) →
        (Table.listing (discover lookup chosen announcements)).rows =
          (Table.listing (discover lookup {} announcements)).rows.filter
            (SameVersion row ·)) := by
  have hrows := rows_listing_discover lookup announcements {}
  obtain ⟨r, hr, rfl⟩ := List.mem_map.1 (hrows ▸ hrow)
  refine ⟨groupCell r.groupVersion.group, r.groupVersion.version, rfl, rfl, hrows, ?_, ?_⟩
  · rw [rows_listing_restricted]
    congr 2
    funext q
    rw [Bool.eq_iff_iff, decide_eq_true_eq]
    exact admits_cells_iff config o
  · intro hnamed
    rw [rows_listing_restricted, hrows, List.filter_map]
    congr 1
    refine List.filter_congr fun q hq => ?_
    rw [Bool.eq_iff_iff, admits_cells_iff]
    simp only [Function.comp_apply, decide_eq_true_eq]
    refine and_iff_left_of_imp fun hsame => ?_
    rcases hnamed with hshown | hnone
    · -- A group with the name of the core group would show it, as the row does not.
      intro hcore
      have hcell := (Table.sameVersion_rowOf_iff.1 hsame).1
      rw [hcore] at hcell
      exact hshown (hcell.symm.trans rfl)
    · exact hnone q hq

namespace NamedCore

/-- The core group, two versions of one group, and a group that is called as the core group is
shown. -/
def announced : List Announcement :=
  [{ groupVersion := "v1", resources := [{ name := "pods", kind := "Pod" }] },
   { groupVersion := "apps/v1beta1",
     resources := [{ name := "deployments", kind := "Deployment" }] },
   { groupVersion := "apps/v1", resources := [{ name := "deployments", kind := "Deployment" }] },
   { groupVersion := "core/v1", resources := [{ name := "widgets", kind := "Widget" }] }]

/-- The rows of the listing of what a restriction admits. -/
def rows (restriction : Restriction) : List (List String) :=
  (Table.listing (discover (fun _ => some Repeated.schema) restriction announced)).rows

/-- What a command line admits that names a group and a version. -/
def chosen (group version : String) : Restriction :=
  (({} : Config).override { group := some group, apiVersion := some version }).restriction

/-- The cells of one version of a group choose this version. -/
theorem rows_chosen_apps :
    ["deployments", "apps", "v1", "Deployment", "false", "", ""] ∈ rows {} ∧
      rows (chosen "apps" "v1") =
        [["deployments", "apps", "v1", "Deployment", "false", "", ""]] := by
  have hrow : ["deployments", "apps", "v1", "Deployment", "false", "", ""] ∈ rows {} := by decide
  obtain ⟨group, version, hgroup, hversion, -, -, hall⟩ :=
    rows_listing_of_cells (fun _ => some Repeated.schema) announced {} {} hrow
  cases hgroup
  cases hversion
  exact ⟨hrow, (hall (.inl (by decide))).trans (by decide)⟩

/-- The cells of a group that is called as the core group is shown choose the core group instead,
and not the rows that show these cells. -/
theorem named_core_not_chosen :
    ["widgets", "core", "v1", "Widget", "false", "", ""] ∈ rows {} ∧
      rows (chosen "core" "v1") = [["pods", "core", "v1", "Pod", "false", "", ""]] ∧
      rows (chosen "core" "v1") ≠
        (rows {}).filter
          (SameVersion ["widgets", "core", "v1", "Widget", "false", "", ""] ·) := by
  decide

end NamedCore

end Catalog

end ApiCatalog
