import ApiCatalog.Catalog.Discovery
import ApiCatalog.Proofs.Catalog.Entries

/-!
# Recorded positions

The second pass of discovery finds the owner of a subresource by the position that the first pass
has recorded for it. `Records` is the invariant that ties the records to the catalog: the position
of a name, group and version is that of the last resource that has them. Adding a resource keeps it
(`Records.add`), so it holds after the first pass (`records_indexResources`), and handing out a
subresource keeps it too, although the resource changes in its place (`Records.attachAt`). So the
passes together hand every subresource to the last resource of its owner's name, group and version,
with no mention of positions (`discover_eq_foldl_attach`).
-/

namespace ApiCatalog

namespace Resource

/-- Hand a subresource to the last resource of its group and version. -/
def attachLast (s : SubResource) : List Resource → List Resource
  | [] => []
  | r :: rest =>
    if rest.any (·.groupVersion = s.parent.groupVersion) then r :: attachLast s rest
    else if r.groupVersion = s.parent.groupVersion then r.attach s :: rest
    else r :: rest

/-- The position of the last resource of a group and version. -/
def lastPosition? (gv : GroupVersion) : List Resource → Option Nat
  | [] => none
  | r :: rest =>
    match lastPosition? gv rest with
    | some position => some (position + 1)
    | none => if r.groupVersion = gv then some 0 else none

variable {gv : GroupVersion} {s : SubResource} {resources : List Resource}

/-- There is such a position if there is such a resource. -/
theorem isSome_lastPosition? (gv : GroupVersion) (resources : List Resource) :
    (lastPosition? gv resources).isSome = resources.any (·.groupVersion = gv) := by
  induction resources with
  | nil => rfl
  | cons r rest ih =>
      rw [List.any_cons, ← ih, lastPosition?]
      cases lastPosition? gv rest with
      | some position => simp
      | none => by_cases hsame : r.groupVersion = gv <;> simp [hsame]

/-- A resource that is added behind the others is the last one of its group and version. -/
theorem lastPosition?_concat (gv : GroupVersion) (resources : List Resource) (r : Resource) :
    lastPosition? gv (resources ++ [r]) =
      if r.groupVersion = gv then some resources.length else lastPosition? gv resources := by
  induction resources with
  | nil => rfl
  | cons first rest ih =>
      rw [List.cons_append, lastPosition?, lastPosition?, ih]
      by_cases hsame : r.groupVersion = gv <;> simp [hsame]

/-- Handing out a subresource moves no resource. -/
theorem lastPosition?_attachLast (gv : GroupVersion) (s : SubResource)
    (resources : List Resource) :
    lastPosition? gv (attachLast s resources) = lastPosition? gv resources := by
  induction resources with
  | nil => rfl
  | cons r rest ih =>
      rw [attachLast]
      split
      next => rw [lastPosition?, lastPosition?, ih]
      next =>
        split
        next => rfl
        next => rfl

/-- The resource at the last position takes the subresource. -/
theorem modify_lastPosition? {position : Nat}
    (h : lastPosition? s.parent.groupVersion resources = some position) :
    resources.modify position (·.attach s) = attachLast s resources := by
  induction resources generalizing position with
  | nil => cases h
  | cons r rest ih =>
      have hany := isSome_lastPosition? s.parent.groupVersion rest
      rw [lastPosition?] at h
      rw [attachLast, ← hany]
      -- The last position is the one in the rest, one further, or it is the first one.
      cases hrest : lastPosition? s.parent.groupVersion rest with
      | some later =>
          rw [hrest] at h
          obtain rfl := Option.some.inj h
          rw [List.modify_succ_cons, ih hrest]
          rfl
      | none =>
          rw [hrest] at h
          dsimp only at h
          split at h
          next hsame =>
            obtain rfl := Option.some.inj h
            rw [List.modify_zero_cons, if_pos hsame]
            rfl
          next => cases h

/-- A subresource that has no resource changes nothing. -/
theorem attachLast_eq_self (h : resources.any (·.groupVersion = s.parent.groupVersion) = false) :
    attachLast s resources = resources := by
  cases resources with
  | nil => rfl
  | cons r rest =>
      rw [List.any_cons, Bool.or_eq_false_iff, decide_eq_false_iff_not] at h
      simp [attachLast, h.1, h.2]

end Resource

namespace Catalog

open Resource (attachLast lastPosition?)

variable {c : Catalog} {positions : List (ParentRef × Nat)}

/-- Hand a subresource to its resource, if the catalog has it. -/
def attach (c : Catalog) (s : SubResource) : Catalog :=
  c.modify s.parent.name (attachLast s)

/-- What is under a name after a subresource was handed out. -/
theorem get?_attach (c : Catalog) (s : SubResource) (name : String) :
    (c.attach s).get? name =
      if s.parent.name = name then (c.get? name).map (attachLast s) else c.get? name :=
  get?_modify c name s.parent.name (attachLast s)

/-! ## The records -/

/-- The records are right: the position of a name, group and version is that of the last resource
that has them, and there is none if no resource has them. -/
def Records (positions : List (ParentRef × Nat)) (c : Catalog) : Prop :=
  ∀ owner : ParentRef,
    positions.lookup owner = lastPosition? owner.groupVersion ((c.get? owner.name).getD [])

/-- Before the first pass there are no records and no resources. -/
theorem records_empty : Records [] empty := fun _ => rfl

/-- A resource that is added is the last one of its name, group and version, and it is recorded
where it stands. -/
theorem Records.add {x : Indexed} (h : Records x.positions x.catalog) (r : Resource) :
    Records (x.add r).positions (x.add r).catalog := by
  intro owner
  have hfound : (x.catalog.insert r).get? owner.name =
      if r.name = owner.name then some ((x.catalog.get? owner.name).getD [] ++ [r])
      else x.catalog.get? owner.name := get?_insert x.catalog owner.name r
  rw [Indexed.add, List.lookup_cons, h owner, hfound]
  -- The new record hides an older one of the same name, group and version, and no other.
  by_cases hname : r.name = owner.name
  · rw [if_pos hname, Option.getD_some, Resource.lastPosition?_concat, hname]
    by_cases hgv : r.groupVersion = owner.groupVersion
    · have hsame : owner = r.ref := by rw [Resource.ref, hname, hgv]
      rw [if_pos hgv, hsame, beq_self_eq_true]
    · have hdiffers : (owner == r.ref) = false :=
        beq_eq_false_iff_ne.2 fun hsame => hgv (congrArg ParentRef.groupVersion hsame).symm
      rw [if_neg hgv, hdiffers]
  · have hdiffers : (owner == r.ref) = false :=
      beq_eq_false_iff_ne.2 fun hsame => hname (congrArg ParentRef.name hsame).symm
    rw [if_neg hname, hdiffers]

/-- After the first pass the records are right. -/
theorem records_indexResources (lookup : SchemaLookup) (entries : List Announced) :
    Records (indexResources lookup entries).positions (indexResources lookup entries).catalog := by
  rw [indexResources]
  -- The records are right at the start, and every resource that is added keeps them so.
  suffices hrun : ∀ (resources : List Resource) (x : Indexed), Records x.positions x.catalog →
      Records (resources.foldl Indexed.add x).positions (resources.foldl Indexed.add x).catalog from
    hrun _ {} records_empty
  intro resources
  induction resources with
  | nil => exact fun _ h => h
  | cons r rest ih => exact fun x h => ih (x.add r) (h.add r)

/-- The first pass adds one resource after the other. -/
theorem catalog_indexResources (lookup : SchemaLookup) (entries : List Announced) :
    (indexResources lookup entries).catalog =
      ofList (entries.filterMap (Announced.resource? lookup)) :=
  (List.foldl_hom Indexed.catalog fun _ _ => rfl).symm

/-! ## The second pass -/

/-- By right records the subresource is handed to the last resource of its owner's name, group and
version. -/
theorem Records.attachAt_eq (h : Records positions c) (s : SubResource) :
    attachAt positions c s = c.attach s := by
  have howner := h s.parent
  rw [attachAt, howner, attach]
  cases hposition : lastPosition? s.parent.groupVersion ((c.get? s.parent.name).getD []) with
  | some position =>
      refine modify_congr fun resources hfound => ?_
      rw [hfound, Option.getD_some] at hposition
      exact Resource.modify_lastPosition? hposition
  | none =>
      refine (modify_eq_self fun resources hfound => Resource.attachLast_eq_self ?_).symm
      rw [hfound, Option.getD_some] at hposition
      rw [← Resource.isSome_lastPosition?, hposition, Option.isSome_none]

/-- The records stay right while subresources are handed out. -/
theorem Records.attach (h : Records positions c) (s : SubResource) :
    Records positions (c.attach s) := by
  intro owner
  rw [h owner, get?_attach]
  split
  next =>
    cases c.get? owner.name with
    | none => rfl
    | some resources =>
        exact (Resource.lastPosition?_attachLast owner.groupVersion s resources).symm
  next => rfl

/-- So are all subresources, one after the other. -/
theorem Records.foldl_attachAt (h : Records positions c) (subs : List SubResource) :
    subs.foldl (attachAt positions) c = subs.foldl Catalog.attach c := by
  induction subs generalizing c with
  | nil => rfl
  | cons s rest ih => rw [List.foldl_cons, List.foldl_cons, h.attachAt_eq s, ih (h.attach s)]

/-- Discovery adds the resources one after the other, and then hands every subresource to the last
resource of its owner's name, group and version, wherever that stands. -/
theorem discover_eq_foldl_attach (lookup : SchemaLookup) (restriction : Restriction)
    (announcements : List Announcement) :
    discover lookup restriction announcements =
      ((admitted restriction announcements).filterMap (Announced.subResource? lookup)).foldl attach
        (ofList ((admitted restriction announcements).filterMap (Announced.resource? lookup))) := by
  rw [discover, attachSubResources, (records_indexResources lookup _).foldl_attachAt,
    catalog_indexResources]

end Catalog

end ApiCatalog
