import ApiCatalog.Proofs.Catalog.Coherence

/-!
# Descriptions and the listing

The listing of a catalog goes over its entries, and the description of a name looks the name up. The
rows of the listing that show a name are those of the resources that are found under it
(`rowsOf_listing`), and they stand together (`rowsOf_listing_infix`). So in a catalog where no name
is without resources the description of a name fails exactly if the listing does not show it, and
otherwise the two have the same resources in the same order
(`description_agrees_with_listing`).
-/

namespace ApiCatalog

namespace Table

/-- The cell of a row in a column of the table. -/
def cell? (t : Table) (row : List String) (column : String) : Option String :=
  Keyed.get? column (t.columns.zip row)

/-- The rows of a listing that show a name. -/
def rowsOf (t : Table) (name : String) : List (List String) :=
  t.rows.filter fun row => t.cell? row "name" = some name

/-- The columns that a listing and a description have in common. -/
def sharedColumns : List String := ["group", "version", "kind", "namespaced", "subresources"]

/-- Two rows of two tables have the same cells in the columns that listings and descriptions have in
common. -/
def SharesCells (t other : Table) (row otherRow : List String) : Prop :=
  ∀ column ∈ sharedColumns, ∃ cell,
    t.cell? row column = some cell ∧ other.cell? otherRow column = some cell

/-- The description that resources make. -/
def descriptionOf (resources : List Resource) : Table where
  columns := ["group", "version", "kind", "namespaced", "verbs", "categories", "subresources"]
  rows := resources.map descriptionRow

/-- There is a description exactly if there are resources to describe. -/
theorem description_eq (c : Catalog) (name : String) :
    description c name = (resourcesOf c name).map descriptionOf := rfl

variable (c : Catalog) (name : String)

/-- The row of a resource in a listing shows the name under which the resource stands. -/
theorem cell?_listingRow_name (other : String) (r : Resource) :
    (listing c).cell? (listingRow other r) "name" = some other := by
  simp [cell?, listing, listingRow, Keyed.get?]

/-- What the row of a resource in a listing shows in the common columns is what the row of this
resource shows in a description. -/
theorem sharesCells_descriptionRow (resources : List Resource) (r : Resource) :
    SharesCells (listing c) (descriptionOf resources) (listingRow name r) (descriptionRow r) := by
  intro column hcolumn
  simp only [sharedColumns, List.mem_cons, List.not_mem_nil, or_false] at hcolumn
  rcases hcolumn with rfl | rfl | rfl | rfl | rfl <;>
    simp [cell?, listing, listingRow, descriptionOf, descriptionRow, Keyed.get?]

/-- The rows of one entry. -/
def entryRows (entry : String × List Resource) : List (List String) :=
  entry.2.map (listingRow entry.1)

/-- The rows of a listing are those of its entries. -/
theorem listing_rows_eq : (listing c).rows = c.entries.flatMap entryRows := rfl

/-- An entry shows its own name only. -/
theorem filter_entryRows (entry : String × List Resource) :
    (entryRows entry).filter (fun row => (listing c).cell? row "name" = some name) =
      if entry.1 = name then entryRows entry else [] := by
  simp only [entryRows, List.filter_map, Function.comp_def, cell?_listingRow_name,
    Option.some.injEq]
  by_cases hname : entry.1 = name <;> simp [hname]

/-- Of the rows of all entries those show a name that belong to the entry of the name. -/
theorem filter_flatMap_entryRows (entries : List (String × List Resource)) :
    (entries.flatMap entryRows).filter
        (fun row => (listing c).cell? row "name" = some name) =
      (entries.filter (·.1 = name)).flatMap entryRows := by
  induction entries with
  | nil => rfl
  | cons entry rest ih =>
      rw [List.flatMap_cons, List.filter_append, filter_entryRows, ih]
      by_cases hname : entry.1 = name <;> simp [hname]

/-- The rows of a listing that show a name are those of the resources under the name. -/
theorem rowsOf_listing :
    (listing c).rowsOf name = ((c.get? name).getD []).map (listingRow name) := by
  have hentry : (c.entries.filter (·.1 = name)).flatMap entryRows =
      ((c.get? name).toList.map (name, ·)).flatMap entryRows := by
    rw [Keyed.filter_eq_toList_get? (Keyed.Ordered.nodup_keys c.ordered)]
    rfl
  rw [rowsOf, listing_rows_eq, filter_flatMap_entryRows, hentry]
  cases c.get? name <;> simp [entryRows]

/-- The rows of a listing that show a name stand together. -/
theorem rowsOf_listing_infix : (listing c).rowsOf name <:+: (listing c).rows := by
  rw [rowsOf_listing]
  cases hfound : c.get? name with
  | none => exact List.nil_infix
  | some resources =>
      have hmem : (name, resources) ∈ c.entries := (Keyed.mem_iff_get?_eq_some c.ordered).2 hfound
      rw [listing_rows_eq, List.flatMap_def]
      exact List.infix_of_mem_flatten (List.mem_map_of_mem hmem)

/-- No row shows a name exactly if the name has no resources. -/
theorem rowsOf_listing_eq_nil_iff : (listing c).rowsOf name = [] ↔ (c.get? name).getD [] = [] := by
  rw [rowsOf_listing, List.map_eq_nil_iff]

end Table

namespace Catalog

variable {c : Catalog}

/-- A coherent catalog has a name exactly if it has resources under it. -/
theorem Coherent.getD_get?_eq_nil_iff (h : c.Coherent) (name : String) :
    (c.get? name).getD [] = [] ↔ c.get? name = none := by
  conv_rhs => rw [h.get?_eq name]
  exact entryOf_eq_none_iff.symm

/-- In every catalog that comes of discovery by selecting, adding and collecting, the description of
a name says that there is no such resource exactly if no row of the listing shows the name.
Otherwise the rows of the description are, one by one and in order, those of the listing that show
the name: they have the same group, version, kind, namespaced and subresources. And in the listing
these rows stand together. -/
theorem description_agrees_with_listing (h : Reachable c) (name : String) :
    (Table.description c name = .error (.noSuchResource name) ↔
      ∀ row ∈ (Table.listing c).rows, (Table.listing c).cell? row "name" ≠ some name) ∧
    ((∃ row ∈ (Table.listing c).rows, (Table.listing c).cell? row "name" = some name) →
      ∃ report, Table.description c name = .ok report ∧
        List.Forall₂ ((Table.listing c).SharesCells report) ((Table.listing c).rowsOf name)
          report.rows ∧
        (Table.listing c).rowsOf name <:+: (Table.listing c).rows) := by
  have hshown : (∀ row ∈ (Table.listing c).rows,
      (Table.listing c).cell? row "name" ≠ some name) ↔ c.get? name = none := by
    rw [← h.coherent.getD_get?_eq_nil_iff, ← Table.rowsOf_listing_eq_nil_iff, Table.rowsOf,
      List.filter_eq_nil_iff]
    simp only [decide_eq_true_eq, ne_eq]
  rw [hshown, Table.description_eq, Table.resourcesOf]
  cases hfound : c.get? name with
  | none =>
      refine ⟨iff_of_true rfl rfl, fun ⟨row, hrow, hname⟩ => ?_⟩
      exact absurd hname (hshown.2 hfound row hrow)
  | some resources =>
      refine ⟨iff_of_false nofun nofun, fun _ => ⟨Table.descriptionOf resources, rfl, ?_, ?_⟩⟩
      · rw [Table.rowsOf_listing, hfound, Option.getD_some, Table.descriptionOf,
          List.forall₂_map_left_iff, List.forall₂_map_right_iff, List.forall₂_same]
        exact fun r _ => Table.sharesCells_descriptionRow c name resources r
      · exact Table.rowsOf_listing_infix c name

namespace TwoGroups

/-- What is left, without the subresources for the status, of the deployments of two groups and the
pods of the core group. -/
def catalog : Catalog :=
  (discover (fun _ => some Repeated.schema) {}
    [{ groupVersion := "v1"
       resources := [{ name := "pods", kind := "Pod", namespaced := true, verbs := ["get"] },
         { name := "pods/log", kind := "Pod" }, { name := "pods/status", kind := "Pod" }] },
     { groupVersion := "apps/v1"
       resources := [{ name := "deployments", kind := "Deployment", namespaced := true },
         { name := "deployments/scale", kind := "Scale" },
         { name := "deployments/status", kind := "Deployment" }] },
     { groupVersion := "extensions/v1beta1"
       resources := [{ name := "deployments", kind := "Deployment", namespaced := true }] }]).select
    .withoutStatus

/-- The deployments of both groups are described in the order of the listing, and services are
not. -/
theorem deployments_of_two_groups :
    (Reachable catalog ∧
      ∃ row ∈ (Table.listing catalog).rows,
        (Table.listing catalog).cell? row "name" = some "deployments") ∧
    (∃ report, Table.description catalog "deployments" = .ok report ∧
      List.Forall₂ ((Table.listing catalog).SharesCells report)
        ((Table.listing catalog).rowsOf "deployments") report.rows ∧
      (Table.listing catalog).rowsOf "deployments" =
        [["deployments", "apps", "v1", "Deployment", "true", "scale", ""],
         ["deployments", "extensions", "v1beta1", "Deployment", "true", "", ""]] ∧
      report.rows =
        [["apps", "v1", "Deployment", "true", "", "", "scale"],
         ["extensions", "v1beta1", "Deployment", "true", "", "", ""]]) ∧
    Table.description catalog "services" = .error (.noSuchResource "services") := by
  have hreachable : Reachable catalog := .select _ (.discover _ _ _)
  have hshown : ∃ row ∈ (Table.listing catalog).rows,
      (Table.listing catalog).cell? row "name" = some "deployments" := by decide
  obtain ⟨report, hreport, hshared, -⟩ :=
    (description_agrees_with_listing hreachable "deployments").2 hshown
  have hmissing := (description_agrees_with_listing hreachable "services").1
  have hknown : Table.description catalog "deployments" = .ok
      { columns := ["group", "version", "kind", "namespaced", "verbs", "categories", "subresources"]
        rows := [["apps", "v1", "Deployment", "true", "", "", "scale"],
          ["extensions", "v1beta1", "Deployment", "true", "", "", ""]] } := by decide
  obtain rfl := Except.ok.inj (hreport.symm.trans hknown)
  exact ⟨⟨hreachable, hshown⟩, ⟨_, hreport, hshared, by decide, rfl⟩, hmissing.2 (by decide)⟩

end TwoGroups

end Catalog

end ApiCatalog
