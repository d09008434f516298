import ApiCatalog.Proofs.Discovery.Contents

/-!
# Selecting name by name

What a selection keeps can be gathered in one pass over the names of a catalog. `Catalog.gather`
goes over the resources of each name and puts those that the selection accepts, narrowed, behind
what it has under that name already; the first of them makes the entry. In whatever order the names
are met, this is `Catalog.select` (`gather_eq_select`), since each name is met once and touches no
other. `select_keeps_accepted` says what a selected catalog has under a name. Nothing is asked of
the catalog: names may be without resources, and resources may stand under other names than theirs.
-/

namespace ApiCatalog

namespace Catalog

/-- Put a resource behind those that stand under a name, whatever name it bears. -/
def push (c : Catalog) (name : String) (r : Resource) : Catalog :=
  c.put name ((c.get? name).getD [] ++ [r])

/-- Meet a resource under a name: what the selection keeps of it is put with what was kept
before. -/
def meet (selection : Selection) (name : String) (kept : Catalog) (r : Resource) : Catalog :=
  if selection.keepsResource r then kept.push name (selection.narrow r) else kept

/-- Meet all resources of a name. -/
def meetName (c : Catalog) (selection : Selection) (kept : Catalog) (name : String) : Catalog :=
  ((c.get? name).getD []).foldl (meet selection name) kept

/-- Gather what a selection keeps of a catalog, meeting the names in a given order. -/
def gather (c : Catalog) (selection : Selection) (order : List String) : Catalog :=
  order.foldl (c.meetName selection) empty

variable (c : Catalog) (selection : Selection) {kept : Catalog} {name other : String}

/-! ## Meeting a resource, a name, and all names -/

/-- A resource that is met under a name changes nothing under other names. -/
theorem get?_meet_of_ne (hne : name ≠ other) (r : Resource) :
    (meet selection name kept r).get? other = kept.get? other := by
  unfold meet
  split
  · rw [push, get?_put, if_neg hne]
  · rfl

/-- An entry that is no empty list grows by what is kept of the resource. -/
theorem get?_meet_self {before : List Resource} (hbefore : kept.get? name = entryOf before)
    (r : Resource) :
    (meet selection name kept r).get? name = entryOf (before ++ (selection.kept? r).toList) := by
  rw [meet, Selection.kept?]
  by_cases hkeeps : selection.keepsResource r = true
  · rw [if_pos hkeeps, if_pos hkeeps, push, get?_put, if_pos rfl, hbefore, getD_entryOf, eq_comm,
      entryOf_eq_some_iff]
    exact ⟨rfl, List.append_ne_nil_of_right_ne_nil before (List.cons_ne_nil _ [])⟩
  · rw [if_neg hkeeps, if_neg hkeeps, Option.toList_none, List.append_nil, hbefore]

/-- Resources that are met under a name change nothing under other names. -/
theorem get?_foldl_meet_of_ne (hne : name ≠ other) (resources : List Resource) :
    (resources.foldl (meet selection name) kept).get? other = kept.get? other := by
  induction resources generalizing kept with
  | nil => rfl
  | cons r rest ih => rw [List.foldl_cons, ih, get?_meet_of_ne selection hne]

/-- Resources that are met under a name are found there after those before, as far as they are kept.
-/
theorem get?_foldl_meet_self {before : List Resource} (hbefore : kept.get? name = entryOf before)
    (resources : List Resource) :
    (resources.foldl (meet selection name) kept).get? name =
      entryOf (before ++ resources.filterMap selection.kept?) := by
  induction resources generalizing kept before with
  | nil => rw [List.foldl_nil, hbefore, List.filterMap_nil, List.append_nil]
  | cons r rest ih =>
      have hmet := get?_meet_self selection hbefore r
      rw [List.foldl_cons, ih hmet, List.append_assoc, List.filterMap_cons]
      cases selection.kept? r <;> rfl

/-- Names that are met once, and have nothing before, get what is kept of their resources. All other
names are left as they are. -/
theorem get?_foldl_meetName {order : List String} (hnodup : order.Nodup)
    (hfresh : ∀ name ∈ order, kept.get? name = none) (name : String) :
    (order.foldl (c.meetName selection) kept).get? name =
      if name ∈ order then entryOf (((c.get? name).getD []).filterMap selection.kept?)
      else kept.get? name := by
  induction order generalizing kept with
  | nil => simp
  | cons first rest ih =>
      obtain ⟨hfirst, hrest⟩ := List.nodup_cons.1 hnodup
      -- The first name is not met again, so the names behind it are still without entries.
      have hfresh' : ∀ name ∈ rest, (c.meetName selection kept first).get? name = none := by
        intro name hname
        have hne : first ≠ name := fun h => hfirst (h ▸ hname)
        rw [meetName, get?_foldl_meet_of_ne selection hne]
        exact hfresh name (List.mem_cons_of_mem _ hname)
      rw [List.foldl_cons, ih hrest hfresh']
      by_cases hname : name = first
      · subst hname
        have hnone : kept.get? name = entryOf [] := hfresh name List.mem_cons_self
        rw [if_neg hfirst, if_pos List.mem_cons_self, meetName,
          get?_foldl_meet_self selection hnone, List.nil_append]
      · have hmem : name ∈ first :: rest ↔ name ∈ rest := by
          rw [List.mem_cons, or_iff_right hname]
        simp only [hmem]
        rw [meetName, get?_foldl_meet_of_ne selection (Ne.symm hname)]

/-- Whatever the order in which the names are met, what is gathered is what the selection keeps. -/
theorem gather_eq_select {order : List String} (horder : order.Perm c.names) :
    c.gather selection order = c.select selection := by
  have hnodup : order.Nodup := horder.nodup_iff.2 (nodup_names c)
  refine ext_get? fun name => ?_
  have hselect : (c.select selection).get? name =
      entryOf (((c.get? name).getD []).filterMap selection.kept?) := get?_filterMap c name _
  rw [gather, get?_foldl_meetName c selection hnodup fun _ _ => rfl, hselect]
  split
  next => rfl
  next hname =>
    rw [horder.mem_iff, mem_names_iff, not_not] at hname
    rw [hname]
    rfl

/-! ## What is selected -/

/-- A name is absent from a selection exactly if none of its resources is kept. -/
theorem get?_select_eq_none_iff (name : String) :
    (c.select selection).get? name = none ↔
      ∀ r ∈ (c.get? name).getD [], selection.keepsResource r = false := by
  rw [get?_select, entryOf_eq_none_iff, List.map_eq_nil_iff, List.filter_eq_nil_iff]
  simp only [Bool.not_eq_true]

/-- Selecting everything drops the names without resources and nothing else. -/
theorem get?_select_everything (name : String) :
    (c.select .everything).get? name = entryOf ((c.get? name).getD []) := by
  have hnarrow : Selection.everything.narrow = id := by
    funext r
    simp only [Selection.narrow, Selection.keepsSubResource, List.filter_true, id_eq]
  rw [get?_select, hnarrow, List.map_id]
  simp only [Selection.keepsResource, List.filter_true]

/-- To select everything changes nothing unless there is a name without resources. -/
theorem select_everything_eq_self_iff :
    c.select .everything = c ↔ ∀ name, c.get? name ≠ some [] := by
  have hname : ∀ name, c.get? name = (c.select .everything).get? name ↔ c.get? name ≠ some [] := by
    intro name
    rw [get?_select_everything, get?_eq_entryOf_iff]
  constructor
  · intro hsame name
    exact (hname name).1 (by rw [hsame])
  · intro hnonempty
    exact ext_get? fun name => ((hname name).2 (hnonempty name)).symm

/-- A selection keeps a name exactly if it accepts one of the resources there. It keeps the accepted
resources in their order, each as it is but for the subresources, of which it keeps the accepted
ones in their order. The names may be met in any order to gather this. Selecting everything yields
the same catalog exactly if no name is without resources. -/
theorem select_keeps_accepted :
    (∀ order : List String, order.Perm c.names →
      c.gather selection order = c.select selection) ∧
    (∀ name,
      ((c.select selection).get? name ≠ none ↔
        ∃ r ∈ (c.get? name).getD [], selection.keepsResource r = true) ∧
      ∀ resources, (c.select selection).get? name = some resources →
        resources =
          (((c.get? name).getD []).filter fun r => selection.keepsResource r).map fun r =>
            { descriptor := r.descriptor
              groupVersion := r.groupVersion
              schema := r.schema
              subResources := r.subResources.filter fun s => selection.keepsSubResource s }) ∧
    (c.select .everything = c ↔ ∀ name, c.get? name ≠ some []) := by
  refine ⟨fun order => gather_eq_select c selection, fun name => ⟨?_, fun resources hfound => ?_⟩,
    select_everything_eq_self_iff c⟩
  · rw [ne_eq, get?_select_eq_none_iff]
    simp only [not_forall, Bool.not_eq_false, exists_prop]
  · rw [get?_select, entryOf_eq_some_iff] at hfound
    exact hfound.1.symm

namespace Repeated

/-- The catalog with a name that has no resources. -/
def withEmptyName : Catalog := catalog.put "pods" []

/-- The name without resources is met first, and it is gone afterwards. -/
theorem gather_withEmptyName :
    ["pods", "deployments"].Perm withEmptyName.names ∧
      withEmptyName.gather .withoutStatus ["pods", "deployments"] =
        withEmptyName.select .withoutStatus ∧
      (withEmptyName.select .withoutStatus).get? "pods" = none ∧
      (withEmptyName.select .withoutStatus).get? "deployments" =
        some [deployments [], deployments []] := by
  have horder : ["pods", "deployments"].Perm withEmptyName.names := by decide
  have hgather := (select_keeps_accepted withEmptyName .withoutStatus).1 _ horder
  exact ⟨horder, hgather, by decide, by decide⟩

end Repeated

end Catalog

end ApiCatalog
