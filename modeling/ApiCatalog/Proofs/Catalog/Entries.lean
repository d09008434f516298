import ApiCatalog.Catalog.Selection
import ApiCatalog.Proofs.Keyed
import Mathlib.Data.List.Induction

/-!
# What a catalog holds under a name

One equation for each operation says what `Catalog.get?` finds afterwards, and `ext_get?` that this
is all there is to a catalog. A name that operations of the catalog bring in always comes with a
resource; `Catalog.entryOf` says so, and the equations for `ofList`, `filterMap` and `select` are
stated with it. `parentOf_select` is the equation for owners.
-/

namespace ApiCatalog

/-- What a selection keeps of a resource, if it accepts the resource. -/
def Selection.kept? (selection : Selection) (r : Resource) : Option Resource :=
  if selection.keepsResource r then some (selection.narrow r) else none

namespace Catalog

/-- The entry that resources of one name make: none if there are no resources. -/
def entryOf (resources : List Resource) : Option (List Resource) :=
  if resources.isEmpty then none else some resources

/-- No resources make no entry. -/
@[simp] theorem entryOf_nil : entryOf [] = none := rfl

/-- The resources of an entry are those that it is made of. -/
@[simp] theorem getD_entryOf (resources : List Resource) :
    (entryOf resources).getD [] = resources := by
  cases resources <;> rfl

/-- There is no entry exactly if there are no resources. -/
theorem entryOf_eq_none_iff {resources : List Resource} :
    entryOf resources = none ↔ resources = [] := by
  cases resources <;> simp [entryOf]

/-- An entry has the resources that it is made of, and at least one. -/
theorem entryOf_eq_some_iff {resources found : List Resource} :
    entryOf resources = some found ↔ resources = found ∧ found ≠ [] := by
  cases resources with
  | nil => simp [entryOf, eq_comm]
  | cons r rest =>
      simp only [entryOf, List.isEmpty_cons, Bool.false_eq_true, if_false, Option.some.injEq]
      exact ⟨fun h => ⟨h, h ▸ List.cons_ne_nil r rest⟩, And.left⟩

/-- A change of each resource keeps an entry an entry. -/
theorem map_entryOf (f : Resource → Resource) (resources : List Resource) :
    (entryOf resources).map (List.map f) = entryOf (resources.map f) := by
  cases resources <;> rfl

/-- A catalog is known by what it has under each name. -/
theorem ext_get? {c other : Catalog} (hsame : ∀ name, c.get? name = other.get? name) :
    c = other := by
  have hentries : c.entries = other.entries := Keyed.eq_of_get?_eq c.ordered other.ordered hsame
  cases c
  cases other
  cases hentries
  rfl

variable (c : Catalog) (name : String)

/-- The names are those that have an entry. -/
theorem mem_names_iff : name ∈ c.names ↔ c.get? name ≠ none := by
  rw [names, List.mem_map, Option.ne_none_iff_exists']
  constructor
  · rintro ⟨⟨name, resources⟩, hmem, rfl⟩
    exact ⟨resources, Keyed.get?_of_mem c.ordered hmem⟩
  · rintro ⟨resources, hfound⟩
    exact ⟨(name, resources), (Keyed.mem_iff_get?_eq_some c.ordered).2 hfound, rfl⟩

/-- Every name stands once. -/
theorem nodup_names : c.names.Nodup := c.ordered.nodup_keys

/-- The resources in a catalog are those under its names. -/
theorem mem_toList_iff {r : Resource} :
    r ∈ c.toList ↔ ∃ name resources, c.get? name = some resources ∧ r ∈ resources := by
  rw [toList, List.mem_flatMap]
  constructor
  · rintro ⟨⟨name, resources⟩, hmem, hr⟩
    exact ⟨name, resources, Keyed.get?_of_mem c.ordered hmem, hr⟩
  · rintro ⟨name, resources, hfound, hr⟩
    exact ⟨(name, resources), (Keyed.mem_iff_get?_eq_some c.ordered).2 hfound, hr⟩

/-- A resource under a name stands in the entry of the name. -/
theorem mem_getD_get?_iff {name : String} {r : Resource} :
    r ∈ (c.get? name).getD [] ↔ ∃ resources, c.get? name = some resources ∧ r ∈ resources := by
  cases c.get? name <;> simp

/-- The resources under a name are in the catalog. -/
theorem mem_toList_of_mem_getD {name : String} {r : Resource} (hr : r ∈ (c.get? name).getD []) :
    r ∈ c.toList :=
  (mem_toList_iff c).2 ⟨name, (mem_getD_get?_iff c).1 hr⟩

/-- A name has what its resources make unless it is without resources. -/
theorem get?_eq_entryOf_iff (name : String) :
    c.get? name = entryOf ((c.get? name).getD []) ↔ c.get? name ≠ some [] := by
  cases c.get? name with
  | none => simp
  | some resources =>
      rw [Option.getD_some, eq_comm, entryOf_eq_some_iff, and_iff_right rfl, ne_eq, ne_eq,
        Option.some_inj]

/-- All resources are those of one name after the other. -/
theorem toList_eq_flatMap_get? : c.toList = c.names.flatMap fun name => (c.get? name).getD [] := by
  rw [toList, names, List.flatMap_map]
  refine List.flatMap_congr fun entry hmem => ?_
  have hfound : c.get? entry.1 = some entry.2 := Keyed.get?_of_mem c.ordered hmem
  rw [hfound, Option.getD_some]

/-- Where all resources bear the names under which they stand, those of a name are found among the
resources of any names, if the name is among these. -/
theorem filter_flatMap_get? (hnamed : ∀ name, ∀ r ∈ (c.get? name).getD [], r.name = name)
    {order : List String} (hnodup : order.Nodup) (name : String) :
    (order.flatMap fun other => (c.get? other).getD []).filter (·.name = name) =
      if name ∈ order then (c.get? name).getD [] else [] := by
  -- Each name contributes its own resources, and the name in question is met once at most.
  induction order with
  | nil => rfl
  | cons other rest ih =>
      obtain ⟨hother, hrest⟩ := List.nodup_cons.1 hnodup
      rw [List.flatMap_cons, List.filter_append, ih hrest]
      by_cases hname : name = other
      · subst hname
        have hall : ((c.get? name).getD []).filter (·.name = name) = (c.get? name).getD [] :=
          List.filter_eq_self.2 fun r hr => decide_eq_true (hnamed name r hr)
        rw [hall, if_neg hother, if_pos List.mem_cons_self, List.append_nil]
      · have hnone : ((c.get? other).getD []).filter (·.name = name) = [] := by
          refine List.filter_eq_nil_iff.2 fun r hr => ?_
          rw [decide_eq_true_eq, hnamed other r hr]
          exact Ne.symm hname
        simp only [hnone, List.nil_append, List.mem_cons, hname, false_or]

/-- What is put under a name is found under this name only. -/
theorem get?_put (other : String) (resources : List Resource) :
    (c.put other resources).get? name = if other = name then some resources else c.get? name :=
  Keyed.get?_put other name resources c.entries

/-- What is modified under a name is found modified under this name only. -/
theorem get?_modify (other : String) (change : List Resource → List Resource) :
    (c.modify other change).get? name =
      if other = name then (c.get? name).map change else c.get? name := by
  unfold modify
  cases hother : c.get? other with
  | none =>
      by_cases h : other = name
      · subst h
        simp [hother]
      · simp [h]
  | some resources =>
      rw [get?_put]
      by_cases h : other = name
      · subst h
        simp [hother]
      · simp [h]

/-- Two changes that do the same to the resources of a name are the same change. -/
theorem modify_congr {c : Catalog} {name : String} {change other : List Resource → List Resource}
    (h : ∀ resources, c.get? name = some resources → change resources = other resources) :
    c.modify name change = c.modify name other := by
  unfold modify
  cases hfound : c.get? name with
  | none => rfl
  | some resources => exact congrArg (c.put name) (h resources hfound)

/-- To put back what is there changes nothing. -/
theorem modify_eq_self {c : Catalog} {name : String} {change : List Resource → List Resource}
    (h : ∀ resources, c.get? name = some resources → change resources = resources) :
    c.modify name change = c := by
  refine ext_get? fun other => ?_
  rw [get?_modify]
  split
  next hname =>
    subst hname
    cases hfound : c.get? name with
    | none => rfl
    | some resources => rw [Option.map_some, h resources hfound]
  next => rfl

/-- A resource that is inserted is the last one of its name. -/
theorem get?_insert (r : Resource) :
    (c.insert r).get? name =
      if r.name = name then some ((c.get? name).getD [] ++ [r]) else c.get? name := by
  rw [insert, get?_put]
  by_cases h : r.name = name
  · rw [if_pos h, if_pos h, h]
  · rw [if_neg h, if_neg h]

/-- Under a name stand the resources of that name, in the order in which they were added. -/
theorem get?_ofList (resources : List Resource) :
    (ofList resources).get? name = entryOf (resources.filter (·.name = name)) := by
  induction resources using List.reverseRecOn with
  | nil => rfl
  | append_singleton resources r ih =>
      have hstep : ofList (resources ++ [r]) = (ofList resources).insert r := by
        simp [ofList]
      rw [hstep, get?_insert, ih, getD_entryOf, List.filter_append]
      by_cases h : r.name = name
      · simp [h, entryOf]
      · simp [h]

/-- Of each name is kept what is kept of its resources, in their order. -/
theorem get?_filterMap (keep : Resource → Option Resource) :
    (c.filterMap keep).get? name =
      entryOf (((c.get? name).getD []).filterMap keep) := by
  unfold filterMap get?
  rw [Keyed.get?_filterMap c.ordered]
  cases Keyed.get? name c.entries with
  | none => rfl
  | some resources =>
      rw [Option.bind_some, Option.getD_some]
      cases resources.filterMap keep <;> rfl

/-- A selection keeps of each name the resources that it accepts, narrowed and in their order. -/
theorem get?_select (selection : Selection) :
    (c.select selection).get? name =
      entryOf ((((c.get? name).getD []).filter fun r => selection.keepsResource r).map
        selection.narrow) := by
  rw [select, get?_filterMap, ← List.filterMap_eq_map, List.filterMap_filter]
  rfl

/-- A selection keeps of collected resources those that it accepts, narrowed. -/
theorem select_ofList (resources : List Resource) (selection : Selection) :
    (ofList resources).select selection =
      ofList ((resources.filter fun r => selection.keepsResource r).map selection.narrow) := by
  refine ext_get? fun name => ?_
  rw [get?_select, get?_ofList, get?_ofList, getD_entryOf, List.filter_map, List.filter_comm]
  rfl

/-- Looking for a resource in an entry is looking among its resources. -/
theorem bind_find?_entryOf (p : Resource → Bool) (resources : List Resource) :
    (entryOf resources).bind (·.find? p) = resources.find? p := by
  cases resources <;> rfl

/-- The owner of a subresource in what a selection keeps is the first resource that the selection
accepts and that the subresource names. -/
theorem parentOf_select (selection : Selection) (s : SubResource) :
    (c.select selection).parentOf s =
      (((c.get? s.parent.name).getD []).find? fun r =>
        selection.keepsResource r && r.groupVersion = s.parent.groupVersion).map
          selection.narrow := by
  rw [parentOf, get?_select, bind_find?_entryOf, List.find?_map, List.find?_filter]
  congr 2
  funext r
  rw [Bool.decide_and, Bool.decide_eq_true, Bool.decide_eq_true]
  rfl

end Catalog

end ApiCatalog
