import ApiCatalog.CommandLine.Options
import ApiCatalog.Proofs.Catalog.Selecting

/-!
# What the options choose

The options of a command line make one selection out of several. `Options.AsksFor` and
`Options.LeavesOut` say in words of the options what it does: the fields decide which resources are
kept (`keepsResource_selection_iff`), and the switch for the status decides which subresources they
show (`keepsSubResource_selection_iff`). Neither has a say in the other's matter, and of the fields
only counts which ones are given (`selection_of_options`).
-/

namespace ApiCatalog

namespace Options

/-- The options ask for a resource: it has all fields that are given or, if one is enough and any
are given, at least one of them. -/
def AsksFor (o : Options) (r : Resource) : Prop :=
  if o.anyField = true ∧ o.fields ≠ [] then
    ∃ path ∈ o.fields, r.hasField (Selection.segments path) = true
  else ∀ path ∈ o.fields, r.hasField (Selection.segments path) = true

/-- The options leave out a subresource: it is one for the status, and these are not wanted. -/
def LeavesOut (o : Options) (s : SubResource) : Prop :=
  o.skipStatus = true ∧ ∃ front, s.name = front ++ "/status"

variable (o : Options) (r : Resource) (s : SubResource)

/-! ## The selections that are made of the options -/

/-- If one field is enough, there is one selection for all fields. -/
theorem fieldSelections_of_any (hany : o.anyField = true ∧ o.fields ≠ []) :
    o.fieldSelections = [.any (o.fields.map Selection.withDottedField)] := by
  have hchoice : (o.anyField && !o.fields.isEmpty) = true := by simpa using hany
  rw [fieldSelections, if_pos hchoice]

/-- If all fields are wanted, there is a selection for each of them. -/
theorem fieldSelections_of_all (hall : ¬ (o.anyField = true ∧ o.fields ≠ [])) :
    o.fieldSelections = o.fields.map Selection.withDottedField := by
  have hchoice : ¬ (o.anyField && !o.fields.isEmpty) = true := by simpa using hall
  rw [fieldSelections, if_neg hchoice]

/-- The fields alone decide on resources. -/
theorem keepsResource_selection :
    o.selection.keepsResource r = o.fieldSelections.all (·.keepsResource r) := by
  rw [selection, selections, Selection.keepsResource_all, List.all_append]
  cases o.skipStatus <;> rfl

/-- The fields and the switch for the status decide on subresources. -/
theorem keepsSubResource_selection :
    o.selection.keepsSubResource s =
      ((!o.skipStatus || Selection.withoutStatus.keepsSubResource s) &&
        o.fieldSelections.all (·.keepsSubResource s)) := by
  rw [selection, selections, Selection.keepsSubResource_all, List.all_append]
  cases o.skipStatus with
  | false => rfl
  | true =>
      rw [if_pos rfl, List.all_cons, List.all_nil, Bool.and_true, Bool.not_true, Bool.false_or]

/-! ## What is kept -/

/-- The fields alone decide which resources are kept. -/
theorem keepsResource_selection_iff : o.selection.keepsResource r = true ↔ o.AsksFor r := by
  rw [keepsResource_selection, AsksFor]
  by_cases hany : o.anyField = true ∧ o.fields ≠ []
  · rw [if_pos hany, fieldSelections_of_any o hany, List.all_cons, List.all_nil, Bool.and_true,
      Selection.keepsResource_any, List.any_map, List.any_eq_true]
    rfl
  · rw [if_neg hany, fieldSelections_of_all o hany, List.all_map, List.all_eq_true]
    rfl

/-- The fields have no say in which subresources are kept. If one of them is enough, there is one,
so that one is a selection that keeps every subresource. -/
theorem all_keepsSubResource_fieldSelections :
    o.fieldSelections.all (·.keepsSubResource s) = true := by
  by_cases hany : o.anyField = true ∧ o.fields ≠ []
  · obtain ⟨path, hpath⟩ := List.exists_mem_of_ne_nil o.fields hany.2
    rw [fieldSelections_of_any o hany, List.all_cons, List.all_nil, Bool.and_true,
      Selection.keepsSubResource_any, List.any_map, List.any_eq_true]
    exact ⟨path, hpath, rfl⟩
  · rw [fieldSelections_of_all o hany, List.all_map, List.all_eq_true]
    exact fun _ _ => rfl

/-- Without the status, the subresources are left whose names do not end in one for it. -/
theorem keepsSubResource_withoutStatus_iff :
    Selection.withoutStatus.keepsSubResource s = true ↔ ¬ ∃ front, s.name = front ++ "/status" := by
  rw [Selection.keepsSubResource, Bool.not_eq_true', ← Bool.not_eq_true, List.isSuffixOf_iff_suffix]
  refine not_congr ⟨?_, ?_⟩
  · rintro ⟨front, hfront⟩
    refine ⟨String.ofList front, String.toList_inj.1 ?_⟩
    rw [String.toList_append, String.toList_ofList, ← hfront]
    rfl
  · rintro ⟨front, hfront⟩
    refine ⟨front.toList, ?_⟩
    rw [hfront, String.toList_append]
    rfl

/-- The switch for the status alone decides which subresources are kept. -/
theorem keepsSubResource_selection_iff :
    o.selection.keepsSubResource s = true ↔ ¬ o.LeavesOut s := by
  rw [keepsSubResource_selection, all_keepsSubResource_fieldSelections, Bool.and_true,
    Bool.or_eq_true, keepsSubResource_withoutStatus_iff, LeavesOut, not_and, Bool.not_eq_true',
    ← Bool.not_eq_true, imp_iff_not_or]

/-- Whether a resource is asked for can be tested on the selection. -/
instance : Decidable (o.AsksFor r) := decidable_of_iff _ (o.keepsResource_selection_iff r)

/-- Whether a subresource is left out can be tested on the selection. -/
instance : Decidable (o.LeavesOut s) :=
  decidable_of_iff (¬ o.selection.keepsSubResource s = true)
    ((not_congr (o.keepsSubResource_selection_iff s)).trans not_not)

/-- The options ask for a resource exactly if their selection keeps it. -/
theorem decide_asksFor : decide (o.AsksFor r) = o.selection.keepsResource r := by
  rw [Bool.eq_iff_iff, decide_eq_true_eq, keepsResource_selection_iff]

/-- The options leave out a subresource exactly if their selection does not keep it. -/
theorem decide_not_leavesOut : decide (¬ o.LeavesOut s) = o.selection.keepsSubResource s := by
  rw [Bool.eq_iff_iff, decide_eq_true_eq, keepsSubResource_selection_iff]

/-! ## What does not count -/

/-- Options that ask for a resource alike agree on keeping it. -/
theorem keepsResource_selection_congr {other : Options} (hasks : other.AsksFor r ↔ o.AsksFor r) :
    other.selection.keepsResource r = o.selection.keepsResource r := by
  rw [Bool.eq_iff_iff, keepsResource_selection_iff, keepsResource_selection_iff, hasks]

/-- Options that treat the status alike keep the same subresources. -/
theorem keepsSubResource_selection_congr {other : Options}
    (hstatus : other.skipStatus = o.skipStatus) :
    other.selection.keepsSubResource s = o.selection.keepsSubResource s := by
  rw [Bool.eq_iff_iff, keepsSubResource_selection_iff, keepsSubResource_selection_iff, LeavesOut,
    LeavesOut, hstatus]

/-- Options with the same switch for the status leave the same of a resource. -/
theorem narrow_selection_congr {other : Options} (hstatus : other.skipStatus = o.skipStatus) :
    other.selection.narrow r = o.selection.narrow r := by
  simp only [Selection.narrow, o.keepsSubResource_selection_congr _ hstatus]

/-- Options with the same fields, in whatever order and however often each is given, ask for the
same resources if they agree on whether one is enough. -/
theorem asksFor_congr {other : Options} (hany : other.anyField = o.anyField)
    (hfields : ∀ path, path ∈ other.fields ↔ path ∈ o.fields) :
    other.AsksFor r ↔ o.AsksFor r := by
  have hnone : other.fields ≠ [] ↔ o.fields ≠ [] := by
    rw [ne_eq, ne_eq, List.eq_nil_iff_forall_not_mem, List.eq_nil_iff_forall_not_mem]
    simp only [hfields]
  simp only [AsksFor, hany, hnone, hfields]

/-- Options that ask for the same resources keep the same resources, but for what these show. -/
theorem map_bare_get?_select_congr {other : Options}
    (hasks : ∀ r, other.AsksFor r ↔ o.AsksFor r) (c : Catalog) (name : String) :
    ((c.select other.selection).get? name).map (List.map Resource.bare) =
      ((c.select o.selection).get? name).map (List.map Resource.bare) := by
  have hkeeps : ∀ r, other.selection.keepsResource r = o.selection.keepsResource r := fun r =>
    o.keepsResource_selection_congr r (hasks r)
  simp only [Catalog.get?_select, Catalog.map_entryOf, List.map_map, hkeeps]
  rfl

/-- A single field must be there, whether or not one is enough. -/
theorem asksFor_iff_of_fields_eq {path : String} (hfields : o.fields = [path]) :
    o.AsksFor r ↔ r.hasField (Selection.segments path) = true := by
  rw [AsksFor, hfields]
  split
  · simp only [List.mem_singleton, exists_eq_left]
  · simp only [List.mem_singleton, forall_eq]

/-- What the options keep of a catalog: under each name the resources that are asked for, in their
order, each without the subresources that are left out. -/
theorem get?_select_selection (c : Catalog) (name : String) :
    (c.select o.selection).get? name =
      Catalog.entryOf ((((c.get? name).getD []).filter fun r => o.AsksFor r).map fun r =>
        { r with subResources := r.subResources.filter fun s => ¬ o.LeavesOut s }) := by
  simp only [Catalog.get?_select, decide_asksFor, decide_not_leavesOut]
  rfl

/-- The options keep a resource exactly if it has all fields that are given or, where one is enough
and any are given, one of them. They keep a subresource exactly unless the status is not wanted and
its full name ends like that of a subresource for the status. So the fields make no difference to
the subresources that a resource shows, the switch for the status makes none to the resources that
are kept, and the fields may be given in any order and more than once. -/
theorem selection_of_options :
    (∀ r, o.selection.keepsResource r = true ↔ o.AsksFor r) ∧
    (∀ s, o.selection.keepsSubResource s = true ↔ ¬ o.LeavesOut s) ∧
    (∀ (c : Catalog) name,
      (c.select o.selection).get? name =
        Catalog.entryOf ((((c.get? name).getD []).filter fun r => o.AsksFor r).map fun r =>
          { r with subResources := r.subResources.filter fun s => ¬ o.LeavesOut s })) ∧
    (∀ fields anyField r,
      { o with fields := fields, anyField := anyField }.selection.narrow r =
        o.selection.narrow r) ∧
    (∀ skipStatus (c : Catalog) name,
      ((c.select { o with skipStatus := skipStatus }.selection).get? name).map
          (List.map Resource.bare) =
        ((c.select o.selection).get? name).map (List.map Resource.bare)) ∧
    (∀ fields, (∀ path, path ∈ fields ↔ path ∈ o.fields) → ∀ c : Catalog,
      c.select { o with fields := fields }.selection = c.select o.selection) := by
  refine ⟨o.keepsResource_selection_iff, o.keepsSubResource_selection_iff, o.get?_select_selection,
    fun fields anyField r => o.narrow_selection_congr r rfl,
    fun skipStatus => o.map_bare_get?_select_congr fun r => Iff.rfl,
    fun fields hfields c => Catalog.select_congr c (fun r => ?_) fun s => ?_⟩
  · exact o.keepsResource_selection_congr r (o.asksFor_congr r rfl hfields)
  · exact o.keepsSubResource_selection_congr s rfl

namespace Scaled

/-- A resource that can be scaled, with its status. -/
def schema : Schema :=
  ⟨⟨[⟨"Deployment", .record [("spec", .record [("replicas", .scalar "integer" none)])], []⟩]⟩,
    "Deployment"⟩

/-- The catalog of what is announced twice, once with its status. -/
def catalog : Catalog := Catalog.discover (fun _ => some schema) {} Catalog.Repeated.announced

/-- Ask for resources that can be scaled or are bound to a node, and for no status. -/
def options : Options where
  fields := ["spec.replicas", "spec.nodeName"]
  anyField := true
  skipStatus := true

/-- The fields may change places and be given twice. -/
theorem select_fields_again :
    (∀ path, path ∈ ["spec.nodeName", "spec.replicas", "spec.nodeName"] ↔
      path ∈ options.fields) ∧
    catalog.select
        { options with
          fields := ["spec.nodeName", "spec.replicas", "spec.nodeName"] }.selection =
      catalog.select options.selection ∧
    ((catalog.select options.selection).get? "deployments").map (List.map (·.subResources)) =
      some [[], []] ∧
    (catalog.select { options with anyField := false }.selection).get? "deployments" = none := by
  have hfields : ∀ path, path ∈ ["spec.nodeName", "spec.replicas", "spec.nodeName"] ↔
      path ∈ options.fields := by
    intro path
    simp [options, or_comm]
  exact ⟨hfields, (selection_of_options options).2.2.2.2.2 _ hfields catalog, by decide, by decide⟩

end Scaled

end Options

end ApiCatalog
