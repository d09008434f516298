import ApiCatalog.Proofs.Catalog.Coherence
import ApiCatalog.Proofs.CommandLine.Choosing

/-!
# Reports on a field and selections by a field

The report on a field has a row for each resource of a name and below it one for each of its
subresources. In a coherent catalog the rows of the resources are told from the others by the name
that they show (`filter_rows_fieldReport`). The resources whose rows say that they have the field
are those that are kept when resources with this field are selected, and if there is none, the
selection drops the name (`fieldSupport_agrees_with_selection`).
-/

namespace ApiCatalog

namespace Table

/-- The row of a resource in the report on a field. -/
def fieldRow (path : List String) (r : Resource) : List String :=
  [groupCell r.groupVersion.group, r.groupVersion.version, r.name, flagCell (r.hasField path)]

/-- The row of a subresource. It shows the group and the version of the resource. -/
def subFieldRow (path : List String) (r : Resource) (s : SubResource) : List String :=
  [groupCell r.groupVersion.group, r.groupVersion.version, s.name, flagCell (s.hasField path)]

/-- A row of the report on a field shows the name of a resource or subresource. -/
def ShowsName (name : String) (row : List String) : Prop := row[2]? = some name

instance (name : String) (row : List String) : Decidable (ShowsName name row) :=
  inferInstanceAs (Decidable (_ = _))

/-- A row of the report on a field says that the field is there. -/
def SaysYes (row : List String) : Prop := row[3]? = some "true"

instance (row : List String) : Decidable (SaysYes row) := inferInstanceAs (Decidable (_ = _))

/-- The rows of a report on a field that show a name and say that the field is there. -/
def yesRows (t : Table) (name : String) : List (List String) :=
  t.rows.filter fun row => ShowsName name row ∧ SaysYes row

variable {path : List String} {r : Resource} {s : SubResource} {name : String}

/-- A resource has a row and one for each of its subresources. -/
theorem fieldRows_eq (path : List String) (r : Resource) :
    fieldRows path r = fieldRow path r :: r.subResources.map (subFieldRow path r) := rfl

/-- The row of a resource shows the name of the resource. -/
theorem showsName_fieldRow_iff : ShowsName name (fieldRow path r) ↔ r.name = name := by
  simp [ShowsName, fieldRow]

/-- The row of a subresource shows the name of the subresource. -/
theorem showsName_subFieldRow_iff : ShowsName name (subFieldRow path r s) ↔ s.name = name := by
  simp [ShowsName, subFieldRow]

/-- The row of a resource says yes exactly if the resource has the field. -/
theorem saysYes_fieldRow_iff : SaysYes (fieldRow path r) ↔ r.hasField path = true := by
  simp [SaysYes, fieldRow, flagCell]

/-- What the row of a resource says is computed as the field is looked up. -/
theorem decide_saysYes_fieldRow : decide (SaysYes (fieldRow path r)) = r.hasField path := by
  rw [Bool.eq_iff_iff, decide_eq_true_eq, saysYes_fieldRow_iff]

end Table

/-- A subresource does not bear the name of the resource to which it belongs. -/
theorem SubResource.BelongsTo.name_ne {s : SubResource} {r : Resource} (h : s.BelongsTo r)
    (hslash : '/' ∉ r.name.toList) : s.name ≠ r.name := by
  intro hname
  rw [← hname, h.name] at hslash
  simp at hslash

namespace Table

variable {path : List String} {name : String}

/-- Of the rows of a coherent resource only its own shows its name. -/
theorem filter_fieldRows {r : Resource} (h : r.Coherent) :
    (fieldRows path r).filter (ShowsName r.name) = [fieldRow path r] := by
  have hown : ShowsName r.name (fieldRow path r) := showsName_fieldRow_iff.2 rfl
  have hothers : (r.subResources.map (subFieldRow path r)).filter (ShowsName r.name) = [] := by
    rw [List.filter_map, List.map_eq_nil_iff, List.filter_eq_nil_iff]
    intro s hs
    rw [Function.comp_apply, decide_eq_true_eq, showsName_subFieldRow_iff]
    exact (h.owned s hs).name_ne h.noSlash
  rw [fieldRows_eq, List.filter_cons, if_pos (decide_eq_true hown), hothers]

/-- The rows that show a name are those of the resources of that name, in their order. -/
theorem filter_flatMap_fieldRows {resources : List Resource}
    (h : ∀ r ∈ resources, r.name = name ∧ r.Coherent) :
    (resources.flatMap (fieldRows path)).filter (ShowsName name) =
      resources.map (fieldRow path) := by
  rw [List.filter_flatMap, List.map_eq_flatMap]
  refine List.flatMap_congr fun r hr => ?_
  obtain ⟨rfl, hcoherent⟩ := h r hr
  exact filter_fieldRows hcoherent

end Table

namespace Catalog

open Table (ShowsName SaysYes fieldRow subFieldRow)

variable {c : Catalog} {name path : String}

/-- The report on a field of the resources of a name. -/
def fieldReport (resources : List Resource) (fields : List String) : Table where
  columns := ["group", "version", "resource", "has_field"]
  rows := resources.flatMap (Table.fieldRows fields)

/-- There is a report on a field exactly if there are resources of the name. -/
theorem fieldSupport_eq (c : Catalog) (name path : String) :
    Table.fieldSupport c name path =
      (Table.resourcesOf c name).map fun resources =>
        fieldReport resources (Selection.segments path) := rfl

/-- In the report on a field of the resources of a name, the rows that show the name are those of
the resources. -/
theorem filter_rows_fieldReport (h : c.Coherent) {resources : List Resource}
    (hfound : c.get? name = some resources) (fields : List String) :
    (fieldReport resources fields).rows.filter (ShowsName name) =
      resources.map (fieldRow fields) :=
  Table.filter_flatMap_fieldRows fun r hr =>
    ⟨h.named name resources hfound r hr, h.resource name resources hfound r hr⟩

/-- A selection that judges resources by a field keeps those whose rows say that they have it. The
subresources that it takes from them are not seen in these rows. -/
theorem yesRows_eq_map_select (h : c.Coherent) {resources : List Resource}
    (hfound : c.get? name = some resources) {fields : List String} (selection : Selection)
    (hjudges : ∀ r, selection.keepsResource r = r.hasField fields) :
    (fieldReport resources fields).yesRows name =
      (((c.select selection).get? name).getD []).map (fieldRow fields) := by
  have hrows : (fieldReport resources fields).yesRows name =
      ((fieldReport resources fields).rows.filter (ShowsName name)).filter SaysYes := by
    rw [Table.yesRows, List.filter_filter]
    refine List.filter_congr fun row _ => ?_
    rw [Bool.decide_and, Bool.and_comm]
  have hkept : resources.filter ((fun row => decide (SaysYes row)) ∘ fieldRow fields) =
      resources.filter fun r => selection.keepsResource r := by
    refine List.filter_congr fun r _ => ?_
    rw [Function.comp_apply, Table.decide_saysYes_fieldRow, hjudges]
  rw [hrows, filter_rows_fieldReport h hfound, List.filter_map, hkept, get?_select, getD_entryOf,
    hfound, Option.getD_some, List.map_map]
  rfl

/-- No row of a resource says that it has the field exactly if the selection drops the name. -/
theorem yesRows_eq_nil_iff (h : c.Coherent) {resources : List Resource}
    (hfound : c.get? name = some resources) {fields : List String} (selection : Selection)
    (hjudges : ∀ r, selection.keepsResource r = r.hasField fields) :
    (fieldReport resources fields).yesRows name = [] ↔ (c.select selection).get? name = none := by
  rw [yesRows_eq_map_select h hfound selection hjudges, List.map_eq_nil_iff, get?_select,
    getD_entryOf, entryOf_eq_none_iff]

/-- Resources with a field are selected as they are. -/
theorem get?_select_withField (c : Catalog) (name : String) (fields : List String) :
    (c.select (.withField fields)).get? name =
      entryOf (((c.get? name).getD []).filter fun r => r.hasField fields) := by
  rw [get?_select]
  congr 1
  exact (List.map_congr_left fun r _ => Selection.narrow_withField fields r).trans (List.map_id _)

/-- The report on a field fails exactly for a name that the catalog does not have. Otherwise it has
a row for each resource of the name, in order, and below it one for each of its subresources; the
rows that show the name are those of the resources. The resources whose rows say that they have the
field are those that are kept when resources with the field are selected, in the same order and with
all that they have, and if no row of a resource says so, the selection drops the name. Options that
ask for this field alone keep the same resources. -/
theorem fieldSupport_agrees_with_selection (h : Reachable c) (name path : String) :
    (c.get? name = none →
      Table.fieldSupport c name path = .error (.noSuchResource name)) ∧
    ∀ resources, c.get? name = some resources →
      ∃ report, Table.fieldSupport c name path = .ok report ∧
        let fields := Selection.segments path
        let selected := (c.select (.withDottedField path)).get? name
        report.rows = resources.flatMap (fun r =>
          fieldRow fields r :: r.subResources.map (subFieldRow fields r)) ∧
        report.rows.filter (ShowsName name) = resources.map (fieldRow fields) ∧
        selected = entryOf (resources.filter fun r => SaysYes (fieldRow fields r)) ∧
        report.yesRows name = (selected.getD []).map (fieldRow fields) ∧
        (report.yesRows name = [] ↔ selected = none) ∧
        ∀ o : Options, o.fields = [path] →
          report.yesRows name =
              (((c.select o.selection).get? name).getD []).map (fieldRow fields) ∧
            (report.yesRows name = [] ↔ (c.select o.selection).get? name = none) := by
  have hcoherent := h.coherent
  have hfield : ∀ r, (Selection.withDottedField path).keepsResource r =
      r.hasField (Selection.segments path) := fun _ => rfl
  refine ⟨fun hnone => ?_, fun resources hfound =>
    ⟨fieldReport resources (Selection.segments path), ?_, rfl, ?_, ?_, ?_, ?_, fun o hfields => ?_⟩⟩
  · rw [Table.fieldSupport, Table.resourcesOf, hnone]
    rfl
  · rw [fieldSupport_eq, Table.resourcesOf, hfound]
    rfl
  · exact filter_rows_fieldReport hcoherent hfound _
  · rw [Selection.withDottedField, get?_select_withField, hfound, Option.getD_some]
    simp only [Table.decide_saysYes_fieldRow]
  · exact yesRows_eq_map_select hcoherent hfound _ hfield
  · exact yesRows_eq_nil_iff hcoherent hfound _ hfield
  · have hasks : ∀ r, o.selection.keepsResource r = r.hasField (Selection.segments path) := by
      intro r
      rw [Bool.eq_iff_iff, o.keepsResource_selection_iff, o.asksFor_iff_of_fields_eq r hfields]
    exact ⟨yesRows_eq_map_select hcoherent hfound _ hasks,
      yesRows_eq_nil_iff hcoherent hfound _ hasks⟩

namespace TwoVersions

/-- A group and version whose deployments have replicas, and an older one whose deployments have no
fields. -/
def lookup : SchemaLookup := fun kind =>
  if kind.group = "apps" then
    some ⟨⟨[⟨"Deployment", .record [("replicas", .scalar "integer" none)], []⟩]⟩, "Deployment"⟩
  else some ⟨⟨[⟨"Deployment", .record [], []⟩]⟩, "Deployment"⟩

/-- The catalog of both, with the status in the newer one. -/
def catalog : Catalog :=
  discover lookup {}
    [{ groupVersion := "apps/v1"
       resources :=
         [{ name := "deployments", kind := "Deployment" },
          { name := "deployments/status", kind := "Deployment" }] },
     { groupVersion := "extensions/v1beta1"
       resources := [{ name := "deployments", kind := "Deployment" }] }]

/-- The report on the replicas says yes to one of the two versions, and this one is selected. -/
theorem replicas_in_one_version :
    Reachable catalog ∧
      ∃ report, Table.fieldSupport catalog "deployments" ".replicas" = .ok report ∧
        report.rows =
          [["apps", "v1", "deployments", "true"], ["apps", "v1", "deployments/status", "true"],
           ["extensions", "v1beta1", "deployments", "false"]] ∧
        report.yesRows "deployments" =
          (((catalog.select (.withDottedField ".replicas")).get? "deployments").getD []).map
            (fieldRow ["replicas"]) ∧
        report.yesRows "deployments" = [["apps", "v1", "deployments", "true"]] ∧
        (catalog.select { fields := [".status"] : Options }.selection).get? "deployments" =
          none := by
  have hreachable : Reachable catalog := .discover _ _ _
  obtain ⟨resources, hfound⟩ := Option.ne_none_iff_exists'.1
    (by decide : catalog.get? "deployments" ≠ none)
  obtain ⟨-, hreports⟩ :=
    fieldSupport_agrees_with_selection hreachable "deployments" ".replicas"
  obtain ⟨report, hreport, -, -, -, hyes, -⟩ := hreports resources hfound
  have hknown : Table.fieldSupport catalog "deployments" ".replicas" = .ok
      { columns := ["group", "version", "resource", "has_field"]
        rows :=
          [["apps", "v1", "deployments", "true"], ["apps", "v1", "deployments/status", "true"],
           ["extensions", "v1beta1", "deployments", "false"]] } := by decide
  obtain rfl := Except.ok.inj (hreport.symm.trans hknown)
  exact ⟨hreachable, _, hreport, rfl, hyes, by decide, by decide⟩

end TwoVersions

end Catalog

end ApiCatalog
