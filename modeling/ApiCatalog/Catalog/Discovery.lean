import ApiCatalog.Catalog.Basic

/-!
# Discovery

`Catalog.discover` makes the catalog of what a server announces. It goes over the announced
entries twice. The first pass adds every resource that has a schema, in the order of the
announcements, and records for its name, group and version at which position it stands among the
resources of its name; the record of a later resource replaces that of an earlier one. The second
pass looks up the position for every subresource that has a schema and hands it to the resource that
stands there; subresources without a position are dropped. So it does not matter whether a
subresource is announced before or after its resource.

A restriction leaves out the announcements of other groups and versions before the first pass.
-/

namespace ApiCatalog

/-- A descriptor with the group and version that announced it. -/
structure Announced where
  groupVersion : GroupVersion
  descriptor : Descriptor
deriving DecidableEq, Repr

/-- The announced descriptors, in order. -/
def Announcement.entries (a : Announcement) : List Announced :=
  a.resources.map fun descriptor => ⟨GroupVersion.ofText a.groupVersion, descriptor⟩

namespace Announced

/-- The descriptor with group and version filled in. -/
def defaulted (e : Announced) : Descriptor := e.descriptor.defaulted e.groupVersion

/-- The resource that an entry announces, unless it announces a subresource or has no schema. -/
def resource? (lookup : SchemaLookup) (e : Announced) : Option Resource :=
  if e.descriptor.isSub then none
  else (lookup e.defaulted.groupVersionKind).map fun schema =>
    { descriptor := e.defaulted, groupVersion := e.groupVersion, schema }

/-- The subresource that an entry announces, unless it announces a resource or has no schema. -/
def subResource? (lookup : SchemaLookup) (e : Announced) : Option SubResource :=
  if e.descriptor.isSub then
    (lookup e.defaulted.groupVersionKind).map fun schema =>
      { descriptor := e.defaulted
        parent := ⟨e.descriptor.resourceName, e.groupVersion⟩
        groupVersion := e.groupVersion
        schema }
  else none

end Announced

namespace Resource

/-- The resource with one more subresource. -/
def attach (r : Resource) (s : SubResource) : Resource :=
  { r with subResources := r.subResources ++ [s] }

end Resource

namespace Catalog

/-- The entries of announcements that a restriction admits. -/
def admitted (restriction : Restriction) (announcements : List Announcement) : List Announced :=
  (announcements.flatMap Announcement.entries).filter (restriction.admits ·.groupVersion)

/-- What the first pass gathers: the resources, and at which position the resource of a name, group
and version stands among those of its name. -/
structure Indexed where
  catalog : Catalog := .empty
  /-- The records, the latest first. -/
  positions : List (ParentRef × Nat) := []

/-- Add a resource behind those of its name, and record where it stands. -/
def Indexed.add (x : Indexed) (r : Resource) : Indexed where
  catalog := x.catalog.insert r
  positions := (r.ref, ((x.catalog.get? r.name).getD []).length) :: x.positions

/-- The first pass: every resource. -/
def indexResources (lookup : SchemaLookup) (entries : List Announced) : Indexed :=
  (entries.filterMap (Announced.resource? lookup)).foldl Indexed.add {}

/-- Hand a subresource to the resource at the recorded position, if there is one. -/
def attachAt (positions : List (ParentRef × Nat)) (c : Catalog) (s : SubResource) : Catalog :=
  match positions.lookup s.parent with
  | some position => c.modify s.parent.name (·.modify position (·.attach s))
  | none => c

/-- The second pass: every subresource. -/
def attachSubResources (lookup : SchemaLookup) (entries : List Announced) (x : Indexed) : Catalog :=
  (entries.filterMap (Announced.subResource? lookup)).foldl (attachAt x.positions) x.catalog

/-- The catalog of what a server announces. -/
def discover (lookup : SchemaLookup) (restriction : Restriction)
    (announcements : List Announcement) : Catalog :=
  let entries := admitted restriction announcements
  attachSubResources lookup entries (indexResources lookup entries)

end Catalog

end ApiCatalog
