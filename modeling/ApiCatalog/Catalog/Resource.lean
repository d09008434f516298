import ApiCatalog.Announcement
import ApiCatalog.Schema.Lookup

/-!
# Resources and subresources

A resource is a descriptor together with the group and version that announced it, its schema and
its subresources. A subresource names its owner by a `ParentRef` and is owned by exactly the
resource that lists it.
-/

namespace ApiCatalog

/-- The name, group and version of a resource that owns subresources. -/
structure ParentRef where
  name : String
  groupVersion : GroupVersion
deriving DecidableEq, Repr

/-- A subresource such as `deployments/status`. Its descriptor keeps the full name. -/
structure SubResource where
  descriptor : Descriptor
  parent : ParentRef
  groupVersion : GroupVersion
  schema : Schema
deriving DecidableEq, Repr

/-- A resource as one group and version serves it, with its subresources in the order of their
announcement. -/
structure Resource where
  descriptor : Descriptor
  groupVersion : GroupVersion
  schema : Schema
  subResources : List SubResource := []
deriving DecidableEq, Repr

namespace SubResource

/-- The full name, with that of the resource. -/
def name (s : SubResource) : String := s.descriptor.name

/-- The name without that of the resource: what follows the first slash. -/
def ownName (s : SubResource) : String := (Text.afterFirst '/' s.name).getD s.name

/-- The kind of object in the announcing group and version. -/
def groupVersionKind (s : SubResource) : GroupVersionKind :=
  s.groupVersion.withKind s.descriptor.kind

/-- The schema has something at the end of a path. -/
def hasField (s : SubResource) (path : List String) : Bool := s.schema.hasField path

end SubResource

namespace Resource

/-- The plural name, such as `deployments`. -/
def name (r : Resource) : String := r.descriptor.name

/-- The kind of object in the announcing group and version. -/
def groupVersionKind (r : Resource) : GroupVersionKind :=
  r.groupVersion.withKind r.descriptor.kind

/-- How subresources of this resource name their owner. -/
def ref (r : Resource) : ParentRef := ⟨r.name, r.groupVersion⟩

/-- The schema has something at the end of a path. -/
def hasField (r : Resource) (path : List String) : Bool := r.schema.hasField path

/-- The names of the subresources, without that of the resource. -/
def subResourceNames (r : Resource) : List String := r.subResources.map SubResource.ownName

end Resource

end ApiCatalog
