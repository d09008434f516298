import ApiCatalog.Proofs.Discovery.Positions
import ApiCatalog.Proofs.Names
import Mathlib.Data.List.Basic

/-!
# What announcements offer to a catalog

An offer is a descriptor of an admitted announcement whose kind has a schema. `offers` lists the
offers announcement by announcement, and each announcement in the order of its descriptors. The
two passes of discovery go over the offers: `filterMap_resource?_admitted` and
`filterMap_subResource?_admitted` say what each pass is made of, and `get?_indexResources` says
what the first one leaves behind.
-/

namespace ApiCatalog

/-- A descriptor with its group and version filled in, the group and version that announced it and
the schema of its kind. -/
structure Offer where
  descriptor : Descriptor
  groupVersion : GroupVersion
  schema : Schema
deriving DecidableEq, Repr

/-- A text that is absent or empty gives way to another one. -/
def textOr (other : String) : Option String → String
  | some text => if text = "" then other else text
  | none => other

/-- The offers of announcements, in their order. A descriptor is offered if the group and version of
its announcement are admitted and its kind has a schema. The kind is named by the group and version
of the descriptor itself or, where it has none, by those of the announcement. -/
def offers (lookup : SchemaLookup) (restriction : Restriction)
    (announcements : List Announcement) : List Offer :=
  announcements.flatMap fun a =>
    let gv := GroupVersion.ofText a.groupVersion
    if restriction.admits gv then
      a.resources.filterMap fun d =>
        let group := textOr gv.group d.group
        let version := textOr gv.version d.version
        (lookup ⟨group, version, d.kind⟩).map fun schema =>
          ⟨{ d with group := some group, version := some version }, gv, schema⟩
    else []

namespace Offer

/-- The offer is that of a subresource: its name has a slash. -/
def isSub (o : Offer) : Bool := o.descriptor.name.toList.contains '/'

/-- The resource that is offered, without subresources. -/
def resource (o : Offer) : Resource := ⟨o.descriptor, o.groupVersion, o.schema, []⟩

/-- What stands before the first slash of the name. -/
def ownerName (o : Offer) : String :=
  String.ofList (o.descriptor.name.toList.takeWhile (· ≠ '/'))

/-- The subresource that is offered. It names its owner in the group and version of the
announcement, whatever group and version its own kind has. -/
def subResource (o : Offer) : SubResource :=
  ⟨o.descriptor, ⟨o.ownerName, o.groupVersion⟩, o.groupVersion, o.schema⟩

end Offer

section Passes

variable (lookup : SchemaLookup) (restriction : Restriction) (announcements : List Announcement)

/-- The resources on offer under a name. -/
def offeredResources (name : String) : List Resource :=
  ((offers lookup restriction announcements).filter fun o =>
    o.descriptor.name = name && !o.isSub).map Offer.resource

/-- The subresources on offer. -/
def offeredSubResources : List SubResource :=
  ((offers lookup restriction announcements).filter Offer.isSub).map Offer.subResource

end Passes

/-! ## Entries and offers -/

/-- A text that is absent or empty is filled with the other one. -/
theorem Descriptor.fill_eq (value : Option String) (other : String) :
    fill value other = some (textOr other value) := by
  cases value with
  | none => rfl
  | some text => by_cases h : text = "" <;> simp [fill, textOr, h]

namespace Announced

/-- The offer that an entry makes, if its kind has a schema. -/
def offer? (lookup : SchemaLookup) (e : Announced) : Option Offer :=
  (lookup e.defaulted.groupVersionKind).map fun schema => ⟨e.defaulted, e.groupVersion, schema⟩

/-- Filling in group and version leaves the name alone. -/
theorem isSub_of_offer? {lookup : SchemaLookup} {e : Announced} {o : Offer}
    (h : e.offer? lookup = some o) : o.isSub = e.descriptor.isSub := by
  obtain ⟨schema, -, rfl⟩ := Option.map_eq_some_iff.1 h
  rw [Bool.eq_iff_iff, Descriptor.isSub_iff]
  simp [Offer.isSub, defaulted, Descriptor.defaulted]

/-- The owner is named by the part of the name that the descriptor gives to the resource. -/
theorem ownerName_of_offer? {lookup : SchemaLookup} {e : Announced} {o : Offer}
    (h : e.offer? lookup = some o) : o.ownerName = e.descriptor.resourceName := by
  obtain ⟨schema, -, rfl⟩ := Option.map_eq_some_iff.1 h
  rw [Descriptor.resourceName_eq]
  rfl

/-- The resource that an entry announces is that of its offer. -/
theorem resource?_eq (lookup : SchemaLookup) (e : Announced) :
    e.resource? lookup =
      (e.offer? lookup).bind fun o => if !o.isSub then some o.resource else none := by
  cases h : e.offer? lookup with
  | none =>
      have hnone : lookup e.defaulted.groupVersionKind = none := Option.map_eq_none_iff.1 h
      simp [resource?, hnone]
  | some o =>
      have hsub := isSub_of_offer? h
      obtain ⟨schema, hschema, rfl⟩ := Option.map_eq_some_iff.1 h
      cases hname : e.descriptor.isSub <;> simp [resource?, hschema, hsub, hname, Offer.resource]

/-- The subresource that an entry announces is that of its offer. -/
theorem subResource?_eq (lookup : SchemaLookup) (e : Announced) :
    e.subResource? lookup =
      (e.offer? lookup).bind fun o => if o.isSub then some o.subResource else none := by
  cases h : e.offer? lookup with
  | none =>
      have hnone : lookup e.defaulted.groupVersionKind = none := Option.map_eq_none_iff.1 h
      simp [subResource?, hnone]
  | some o =>
      have hsub := isSub_of_offer? h
      have howner := ownerName_of_offer? h
      obtain ⟨schema, hschema, rfl⟩ := Option.map_eq_some_iff.1 h
      simp [subResource?, hschema, hsub, Offer.subResource, howner]

end Announced

namespace Catalog

variable (lookup : SchemaLookup) (restriction : Restriction)

/-- All entries of an announcement have its group and version, so they are chosen as a whole. -/
theorem filter_entries (choice : GroupVersion → Bool) (a : Announcement) :
    a.entries.filter (choice ·.groupVersion) =
      if choice (GroupVersion.ofText a.groupVersion) then a.entries else [] := by
  split
  next h => exact List.filter_eq_self.2 (by simpa [Announcement.entries] using fun _ _ => h)
  next h => exact List.filter_eq_nil_iff.2 (by simpa [Announcement.entries] using fun _ _ => h)

/-- An announcement is admitted as a whole. -/
theorem admitted_cons (a : Announcement) (rest : List Announcement) :
    admitted restriction (a :: rest) =
      (if restriction.admits (GroupVersion.ofText a.groupVersion) then a.entries else []) ++
        admitted restriction rest := by
  unfold admitted
  rw [List.flatMap_cons, List.filter_append, filter_entries]

/-- The offers are those of the admitted entries. -/
theorem filterMap_offer?_admitted (announcements : List Announcement) :
    (admitted restriction announcements).filterMap (Announced.offer? lookup) =
      offers lookup restriction announcements := by
  induction announcements with
  | nil => rfl
  | cons a rest ih =>
      rw [admitted_cons, List.filterMap_append, ih, offers, offers, List.flatMap_cons]
      refine congrArg (· ++ _) ?_
      by_cases h : restriction.admits (GroupVersion.ofText a.groupVersion) = true
      · simp only [h, if_true, Announcement.entries, List.filterMap_map]
        refine List.filterMap_congr fun d _ => ?_
        simp [Announced.offer?, Announced.defaulted, Descriptor.defaulted, Descriptor.fill_eq,
          Descriptor.groupVersionKind]
      · simp [h]

/-- A pass that takes of each entry what its offer makes goes over the offers. -/
theorem filterMap_admitted {α : Type} {pass : Announced → Option α} {keep : Offer → Bool}
    {make : Offer → α} (announcements : List Announcement)
    (hpass : ∀ e, pass e =
      (Announced.offer? lookup e).bind fun o => if keep o then some (make o) else none) :
    (admitted restriction announcements).filterMap pass =
      ((offers lookup restriction announcements).filter keep).map make := by
  rw [← filterMap_offer?_admitted, List.filter_filterMap, List.map_filterMap]
  refine List.filterMap_congr fun e _ => ?_
  rw [hpass e]
  cases Announced.offer? lookup e with
  | none => rfl
  | some o => cases h : keep o <;> simp [Option.filter, h]

/-- The first pass goes over the offered resources. -/
theorem filterMap_resource?_admitted (announcements : List Announcement) :
    (admitted restriction announcements).filterMap (Announced.resource? lookup) =
      ((offers lookup restriction announcements).filter (!·.isSub)).map Offer.resource :=
  filterMap_admitted lookup restriction announcements (Announced.resource?_eq lookup)

/-- The second pass goes over the offered subresources. -/
theorem filterMap_subResource?_admitted (announcements : List Announcement) :
    (admitted restriction announcements).filterMap (Announced.subResource? lookup) =
      offeredSubResources lookup restriction announcements :=
  filterMap_admitted lookup restriction announcements (Announced.subResource?_eq lookup)

/-- The first pass lists under a name the resources that are offered under it. -/
theorem get?_indexResources (announcements : List Announcement) (name : String) :
    (indexResources lookup (admitted restriction announcements)).catalog.get? name =
      entryOf (offeredResources lookup restriction announcements name) := by
  rw [catalog_indexResources, get?_ofList, filterMap_resource?_admitted, List.filter_map,
    List.filter_filter]
  rfl

end Catalog

end ApiCatalog
