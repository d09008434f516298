import ApiCatalog.Proofs.Discovery.Offers

/-!
# How subresources find their resources

The second pass of discovery hands out the offered subresources one at a time. `attachLast_shareOut`
says what one of them changes among the resources of a name, and `get?_foldl_attach` what all of
them do: every resource takes the subresources for its group and version, in their order, unless
another resource of its name, group and version comes after it. `owned_foldl_attach_perm` counts
them: each subresource that has a resource is owned once.
-/

namespace ApiCatalog

namespace Resource

/-- The resource without its subresources. -/
def bare (r : Resource) : Resource := { r with subResources := [] }

/-- The subresources that go to a resource: those for its group and version, unless one of the
later resources has the same group and version. -/
def share (subs : List SubResource) (r : Resource) (later : List Resource) : List SubResource :=
  if later.any (·.groupVersion = r.groupVersion) then []
  else subs.filter (·.parent.groupVersion = r.groupVersion)

/-- Every resource takes its share of the subresources. -/
def shareOut (subs : List SubResource) : List Resource → List Resource
  | [] => []
  | r :: rest =>
    { r with subResources := r.subResources ++ share subs r rest } :: shareOut subs rest

/-- There is nothing to share out. -/
theorem shareOut_nil (resources : List Resource) : shareOut [] resources = resources := by
  induction resources with
  | nil => rfl
  | cons r rest ih => simp [shareOut, share, ih]

/-- Sharing out leaves everything about the resources but their subresources. -/
theorem map_bare_shareOut (subs : List SubResource) (resources : List Resource) :
    (shareOut subs resources).map bare = resources.map bare := by
  induction resources with
  | nil => rfl
  | cons r rest ih =>
      rw [shareOut, List.map_cons, List.map_cons, ih]
      rfl

/-- Whether there is a resource of a group and version is seen without the subresources. -/
theorem any_map_bare (gv : GroupVersion) (resources : List Resource) :
    (resources.map bare).any (·.groupVersion = gv) = resources.any (·.groupVersion = gv) := by
  rw [List.any_map]
  rfl

/-- Resources keep their groups and versions when subresources are shared out. -/
theorem any_shareOut (subs : List SubResource) (gv : GroupVersion) (resources : List Resource) :
    (shareOut subs resources).any (·.groupVersion = gv) = resources.any (·.groupVersion = gv) := by
  rw [← any_map_bare, map_bare_shareOut, any_map_bare]

/-- One more subresource enlarges the share of the resource it is for. -/
theorem share_append (s : SubResource) (subs : List SubResource) (r : Resource)
    (later : List Resource) :
    share (subs ++ [s]) r later =
      share subs r later ++ if r.groupVersion = s.parent.groupVersion ∧
        later.any (·.groupVersion = r.groupVersion) = false then [s] else [] := by
  unfold share
  cases later.any (·.groupVersion = r.groupVersion) with
  | true => simp
  | false =>
      by_cases hsame : r.groupVersion = s.parent.groupVersion
      · simp [hsame]
      · simp [hsame, Ne.symm hsame]

/-- One more subresource goes to the resource that has taken those before it. -/
theorem attachLast_shareOut (s : SubResource) (subs : List SubResource)
    (resources : List Resource) :
    attachLast s (shareOut subs resources) = shareOut (subs ++ [s]) resources := by
  induction resources with
  | nil => rfl
  | cons r rest ih =>
      rw [shareOut, shareOut, attachLast, any_shareOut, ih, share_append]
      by_cases hlater : rest.any (·.groupVersion = s.parent.groupVersion) = true
      · -- A later resource takes the subresource, so it is not in the share of this one.
        have hnot : ¬ (r.groupVersion = s.parent.groupVersion ∧
            rest.any (·.groupVersion = r.groupVersion) = false) := by
          rintro ⟨hsame, hnone⟩
          rw [hsame, hlater] at hnone
          exact Bool.noConfusion hnone
        rw [if_pos hlater, if_neg hnot, List.append_nil]
      · have hnone := Bool.eq_false_iff.2 hlater
        have hrest : shareOut (subs ++ [s]) rest = shareOut subs rest := by
          rw [← ih, attachLast_eq_self (by rw [any_shareOut, hnone])]
        rw [if_neg hlater, hrest]
        by_cases hsame : r.groupVersion = s.parent.groupVersion
        · rw [if_pos hsame, if_pos ⟨hsame, hsame ▸ hnone⟩, attach, List.append_assoc]
        · rw [if_neg hsame, if_neg fun h => hsame h.1, List.append_nil]

/-- A resource that had no subresources owns its share of them. -/
theorem subResources_of_shareOut {subs : List SubResource} {resources before after : List Resource}
    {r : Resource} (hbare : ∀ q ∈ resources, q.subResources = [])
    (h : shareOut subs resources = before ++ r :: after) :
    r.subResources = share subs r after := by
  induction before generalizing resources with
  | nil =>
      cases resources with
      | nil => cases h
      | cons q rest =>
          obtain ⟨rfl, rfl⟩ := List.cons.inj h
          simp only [hbare q List.mem_cons_self, List.nil_append, share, any_shareOut]
  | cons b before ih =>
      cases resources with
      | nil => cases h
      | cons q rest =>
          exact ih (fun q hq => hbare q (List.mem_cons_of_mem _ hq)) (List.cons.inj h).2

/-- To attach a subresource is to share it out alone. -/
theorem attachLast_eq_shareOut (s : SubResource) (resources : List Resource) :
    attachLast s resources = shareOut [s] resources := by
  rw [← List.nil_append [s], ← attachLast_shareOut, shareOut_nil]

/-- A subresource that has a resource is owned once more, and none is lost. -/
theorem flatMap_attachLast_perm (s : SubResource) (resources : List Resource) :
    ((attachLast s resources).flatMap (·.subResources)).Perm
      (resources.flatMap (·.subResources) ++
        if resources.any (·.groupVersion = s.parent.groupVersion) then [s] else []) := by
  induction resources with
  | nil => simp [attachLast]
  | cons r rest ih =>
      rw [attachLast, List.any_cons]
      by_cases hlater : rest.any (·.groupVersion = s.parent.groupVersion) = true
      · rw [if_pos hlater] at ih
        rw [if_pos hlater, hlater, Bool.or_true, if_pos rfl, List.flatMap_cons, List.flatMap_cons,
          List.append_assoc]
        exact ih.append_left _
      · rw [if_neg hlater, Bool.eq_false_iff.2 hlater, Bool.or_false]
        by_cases hsame : r.groupVersion = s.parent.groupVersion
        · rw [if_pos hsame, if_pos (decide_eq_true hsame), List.flatMap_cons, List.flatMap_cons,
            attach, List.append_assoc, List.append_assoc]
          exact List.perm_append_comm.append_left _
        · rw [if_neg hsame, if_neg (by simpa using hsame), List.append_nil]

end Resource

namespace Catalog

/-- The catalog has a resource with the name, group and version by which an owner is named. -/
def hosts (c : Catalog) (owner : ParentRef) : Bool :=
  ((c.get? owner.name).getD []).any (·.groupVersion = owner.groupVersion)

/-- All subresources in the catalog. -/
def owned (c : Catalog) : List SubResource := c.toList.flatMap (·.subResources)

/-! ## One subresource -/

/-- Attaching a subresource brings no owner and removes none. -/
theorem hosts_attach (c : Catalog) (s : SubResource) (owner : ParentRef) :
    (c.attach s).hosts owner = c.hosts owner := by
  unfold hosts
  rw [get?_attach]
  split
  · cases c.get? owner.name with
    | none => rfl
    | some resources =>
        rw [Option.map_some, Option.getD_some, Option.getD_some, Resource.attachLast_eq_shareOut,
          Resource.any_shareOut]
  · rfl

/-- A subresource is owned once more if the catalog has its owner, and is dropped otherwise. -/
theorem owned_attach_perm (c : Catalog) (s : SubResource) :
    (c.attach s).owned.Perm (c.owned ++ if c.hosts s.parent then [s] else []) := by
  unfold attach modify hosts
  cases hfound : c.get? s.parent.name with
  | none => simp
  | some resources =>
      -- Only the entry of the owner's name changes.
      obtain ⟨before, after, hsplit, hput⟩ := Keyed.exists_split_of_get? c.ordered hfound
      have hstep := Resource.flatMap_attachLast_perm s resources
      rw [Option.getD_some]
      simp only [owned, toList, put, hput]
      rw [hsplit]
      simp only [List.flatMap_append, List.flatMap_cons, List.append_assoc]
      refine List.Perm.append_left _ ((hstep.append_right _).trans ?_)
      rw [List.append_assoc]
      exact List.perm_append_comm.append_left _

/-! ## All subresources -/

/-- Attaching one subresource after the other shares them out among the resources. -/
theorem get?_foldl_attach (subs : List SubResource) (c : Catalog) (name : String) :
    (subs.foldl attach c).get? name =
      (c.get? name).map (Resource.shareOut (subs.filter (·.parent.name = name))) := by
  -- The last subresource meets resources that have taken all the others.
  induction subs using List.reverseRecOn with
  | nil => cases h : c.get? name <;> simp [h, Resource.shareOut_nil]
  | append_singleton subs s ih =>
      rw [List.foldl_append, List.foldl_cons, List.foldl_nil, get?_attach, ih, List.filter_append]
      by_cases hname : s.parent.name = name
      · rw [if_pos hname, Option.map_map]
        refine congrArg (Option.map · _) (funext fun resources => ?_)
        simp [Resource.attachLast_shareOut, hname]
      · simp [hname]

/-- In the end every subresource that has an owner is owned once, and no other one is. -/
theorem owned_foldl_attach_perm (subs : List SubResource) (c : Catalog) :
    (subs.foldl attach c).owned.Perm (c.owned ++ subs.filter (c.hosts ·.parent)) := by
  induction subs generalizing c with
  | nil => simp
  | cons s rest ih =>
      -- The owners are the same before and after a step, so the rest may ask `c`.
      have hhosts : rest.filter ((c.attach s).hosts ·.parent) = rest.filter (c.hosts ·.parent) :=
        List.filter_congr fun q _ => hosts_attach c s q.parent
      refine (ih (c.attach s)).trans ?_
      rw [hhosts]
      refine ((owned_attach_perm c s).append_right _).trans ?_
      rw [List.append_assoc, List.filter_cons]
      cases c.hosts s.parent <;> simp

end Catalog

end ApiCatalog
