import ApiCatalog.Proofs.Discovery.Contents

/-!
# Selecting from what is selected

Plain selections are those of this library, without criteria that a caller brings. A plain selection
judges a resource by its schema alone (`Plain.keepsResource_eq`), so it cannot tell whether some
subresources were taken away before. Selecting twice is then selecting once what both selections
keep (`select_select`), and from this follows that the order of plain selections is of no account.
-/

namespace ApiCatalog

namespace Selection

/-- The selection is built from those of this library. -/
inductive Plain : Selection → Prop where
  | everything : Plain .everything
  | all (selections) : (∀ selection ∈ selections, Plain selection) → Plain (.all selections)
  | any (selections) : (∀ selection ∈ selections, Plain selection) → Plain (.any selections)
  | withoutStatus : Plain .withoutStatus
  | withField (path) : Plain (.withField path)

variable (r : Resource) (s : SubResource) (selections : List Selection)

/-- All selections together keep the resources that each of them keeps. -/
@[simp] theorem keepsResource_all :
    (all selections).keepsResource r = selections.all (·.keepsResource r) := by
  rw [keepsResource]
  induction selections with
  | nil => rfl
  | cons selection rest ih => rw [allKeepResource, ih, List.all_cons]

/-- Any of the selections keeps the resources that one of them keeps. -/
@[simp] theorem keepsResource_any :
    (any selections).keepsResource r = selections.any (·.keepsResource r) := by
  rw [keepsResource]
  induction selections with
  | nil => rfl
  | cons selection rest ih => rw [anyKeepsResource, ih, List.any_cons]

/-- All selections together keep the subresources that each of them keeps. -/
@[simp] theorem keepsSubResource_all :
    (all selections).keepsSubResource s = selections.all (·.keepsSubResource s) := by
  rw [keepsSubResource]
  induction selections with
  | nil => rfl
  | cons selection rest ih => rw [allKeepSubResource, ih, List.all_cons]

/-- Any of the selections keeps the subresources that one of them keeps. -/
@[simp] theorem keepsSubResource_any :
    (any selections).keepsSubResource s = selections.any (·.keepsSubResource s) := by
  rw [keepsSubResource]
  induction selections with
  | nil => rfl
  | cons selection rest ih => rw [anyKeepsSubResource, ih, List.any_cons]

variable {r}

/-- A plain selection judges a resource by its schema. -/
theorem Plain.keepsResource_eq {selection : Selection} (h : selection.Plain) {q : Resource}
    (hschema : r.schema = q.schema) : selection.keepsResource r = selection.keepsResource q := by
  induction h with
  | everything => rfl
  | withoutStatus => rfl
  | withField path => simp only [keepsResource, Resource.hasField, hschema]
  | all selections _ ih =>
      rw [keepsResource_all, keepsResource_all, Bool.eq_iff_iff, List.all_eq_true,
        List.all_eq_true]
      exact forall₂_congr fun selection hmem => by rw [ih selection hmem]
  | any selections _ ih =>
      rw [keepsResource_any, keepsResource_any, Bool.eq_iff_iff, List.any_eq_true,
        List.any_eq_true]
      exact exists_congr fun selection => and_congr_right fun hmem => by rw [ih selection hmem]

/-- Two selections together keep the resources that both keep. -/
theorem keepsResource_pair (first second : Selection) (r : Resource) :
    (all [first, second]).keepsResource r =
      (first.keepsResource r && second.keepsResource r) := by
  rw [keepsResource_all, List.all_cons, List.all_cons, List.all_nil, Bool.and_true]

/-- Two selections together keep the subresources that both keep. -/
theorem keepsSubResource_pair (first second : Selection) (s : SubResource) :
    (all [first, second]).keepsSubResource s =
      (first.keepsSubResource s && second.keepsSubResource s) := by
  rw [keepsSubResource_all, List.all_cons, List.all_cons, List.all_nil, Bool.and_true]

/-- A selection of resources that have a field leaves their subresources alone. -/
@[simp] theorem narrow_withField (path : List String) (r : Resource) :
    (withField path).narrow r = r := by
  simp only [narrow, keepsSubResource, List.filter_true]

/-- Narrowing twice is narrowing to what both selections keep. -/
theorem narrow_narrow (first second : Selection) (r : Resource) :
    second.narrow (first.narrow r) = (all [first, second]).narrow r := by
  simp only [narrow, List.filter_filter]
  congr 1
  refine List.filter_congr fun s _ => ?_
  rw [keepsSubResource_pair, Bool.and_comm]

end Selection

namespace Catalog

variable (c : Catalog) {first second : Selection}

/-- Selections that judge alike keep the same. -/
theorem select_congr (hresource : ∀ r, first.keepsResource r = second.keepsResource r)
    (hsub : ∀ s, first.keepsSubResource s = second.keepsSubResource s) :
    c.select first = c.select second := by
  have hnarrow : first.narrow = second.narrow := by
    funext r
    simp only [Selection.narrow, hsub]
  refine ext_get? fun name => ?_
  rw [get?_select, get?_select, hnarrow]
  simp only [hresource]

/-- A selection that cannot see what another one takes away from a resource keeps of what the other
one keeps what both of them keep. -/
theorem select_select
    (hblind : ∀ r, second.keepsResource (first.narrow r) = second.keepsResource r) :
    (c.select first).select second = c.select (.all [first, second]) := by
  refine ext_get? fun name => ?_
  rw [get?_select, get?_select, get?_select, getD_entryOf, List.filter_map, List.map_map,
    List.filter_filter]
  congr 1
  have hkept : ((c.get? name).getD []).filter
        (fun r => ((fun q => second.keepsResource q) ∘ first.narrow) r && first.keepsResource r) =
      ((c.get? name).getD []).filter fun r =>
        (Selection.all [first, second]).keepsResource r := by
    refine List.filter_congr fun r _ => ?_
    rw [Selection.keepsResource_pair, Function.comp_apply, hblind, Bool.and_comm]
  rw [hkept]
  exact List.map_congr_left fun r _ => Selection.narrow_narrow first second r

/-- What both selections keep does not depend on which of them comes first. -/
theorem select_pair_comm : c.select (.all [first, second]) = c.select (.all [second, first]) := by
  refine select_congr c (fun r => ?_) fun s => ?_
  · rw [Selection.keepsResource_pair, Selection.keepsResource_pair, Bool.and_comm]
  · rw [Selection.keepsSubResource_pair, Selection.keepsSubResource_pair, Bool.and_comm]

/-- What both selections keep is what one of them keeps if they are the same. -/
theorem select_pair_self (selection : Selection) :
    c.select (.all [selection, selection]) = c.select selection := by
  refine select_congr c (fun r => ?_) fun s => ?_
  · rw [Selection.keepsResource_pair, Bool.and_self]
  · rw [Selection.keepsSubResource_pair, Bool.and_self]

/-- To select twice is to select by both selections at once. -/
theorem select_select_of_plain (first : Selection) (hsecond : second.Plain) :
    (c.select first).select second = c.select (.all [first, second]) :=
  select_select c fun _ => hsecond.keepsResource_eq rfl

/-- It does not matter which of two selections comes first. -/
theorem select_select_comm (hfirst : first.Plain) (hsecond : second.Plain) :
    (c.select first).select second = (c.select second).select first := by
  rw [select_select_of_plain c first hsecond, select_select_of_plain c second hfirst,
    select_pair_comm]

/-- Plain selections may be applied in any order. -/
theorem foldl_select_perm {selections others : List Selection}
    (hplain : ∀ selection ∈ selections, selection.Plain) (hperm : selections.Perm others) :
    selections.foldl select c = others.foldl select c := by
  refine hperm.foldl_eq' (fun a ha b hb c => ?_) c
  exact select_select_comm c (hplain a ha) (hplain b hb)

/-- Selecting by one plain selection and then by another keeps what both of them keep, whichever
comes first. So a plain selection changes nothing if it is applied once more, and any number of
plain selections may be applied in any order. -/
theorem select_plain_selections {first second : Selection} (hfirst : first.Plain)
    (hsecond : second.Plain) :
    (c.select first).select second = c.select (.all [first, second]) ∧
    c.select (.all [first, second]) = (c.select second).select first ∧
    (c.select first).select first = c.select first ∧
    (∀ selections others : List Selection, (∀ selection ∈ selections, selection.Plain) →
      selections.Perm others → selections.foldl select c = others.foldl select c) := by
  refine ⟨select_select_of_plain c first hsecond, ?_, ?_, fun _ _ => foldl_select_perm c⟩
  · rw [select_pair_comm, select_select_of_plain c second hfirst]
  · rw [select_select_of_plain c first hfirst, select_pair_self]

namespace Repeated

/-- The resources with replicas, or else all of them, without the status. -/
def nested : Selection :=
  .all [.any [.withField ["spec", "replicas"], .all []], .any [.withoutStatus, .any []]]

/-- The selection takes the status from its owner and keeps the owner, with or without another
selection before it. -/
theorem select_nested :
    nested.Plain ∧
    ((catalog.select (.withField ["spec"])).select nested).get? "deployments" =
      some [deployments [], deployments []] ∧
    (catalog.select nested).select (.withField ["spec"]) =
      (catalog.select (.withField ["spec"])).select nested := by
  have hnested : nested.Plain := by
    refine .all _ fun selection hmem => ?_
    rcases List.mem_pair.1 hmem with rfl | rfl
    · refine .any _ fun inner hinner => ?_
      rcases List.mem_pair.1 hinner with rfl | rfl
      · exact .withField _
      · exact .all _ fun _ hnone => nomatch hnone
    · refine .any _ fun inner hinner => ?_
      rcases List.mem_pair.1 hinner with rfl | rfl
      · exact .withoutStatus
      · exact .any _ fun _ hnone => nomatch hnone
  have hplain := select_plain_selections catalog hnested (.withField ["spec"])
  exact ⟨hnested, by decide, hplain.1.trans hplain.2.1⟩

end Repeated

end Catalog

end ApiCatalog
