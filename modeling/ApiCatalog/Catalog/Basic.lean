import ApiCatalog.Catalog.Resource
import ApiCatalog.Keyed

/-!
# The catalog

A catalog maps names of resources to the resources of that name, one for each group and version
that serves it, in the server's order of preference. The names stand in order, each once. A name
may be left with no resources when a catalog is edited; `get?` tells it from a name that is absent.
-/

namespace ApiCatalog

/-- The resources of each name. -/
structure Catalog where
  entries : List (String × List Resource)
  ordered : Keyed.Ordered entries
deriving DecidableEq

namespace Catalog

/-- The catalog without any names. -/
def empty : Catalog := ⟨[], List.Pairwise.nil⟩

instance : Inhabited Catalog := ⟨empty⟩

/-- The resources of a name. -/
def get? (c : Catalog) (name : String) : Option (List Resource) := Keyed.get? name c.entries

/-- Store the resources of a name. -/
def put (c : Catalog) (name : String) (resources : List Resource) : Catalog :=
  ⟨Keyed.put name resources c.entries, Keyed.ordered_put c.ordered name resources⟩

/-- Change the resources of a name, if the name is there. -/
def modify (c : Catalog) (name : String) (change : List Resource → List Resource) : Catalog :=
  match c.get? name with
  | some resources => c.put name (change resources)
  | none => c

/-- Add a resource behind those that have its name. -/
def insert (c : Catalog) (r : Resource) : Catalog :=
  c.put r.name ((c.get? r.name).getD [] ++ [r])

/-- The catalog of a list of resources, each added in turn. -/
def ofList (resources : List Resource) : Catalog := resources.foldl insert empty

/-- The catalog with given entries, whatever the names of the resources in them. -/
def ofEntries (entries : List (String × List Resource)) : Catalog :=
  ⟨Keyed.ofPairs entries, Keyed.ordered_ofPairs entries⟩

/-- The names, in order. -/
def names (c : Catalog) : List String := c.entries.map (·.1)

/-- All resources, by their names and under one name in their order. -/
def toList (c : Catalog) : List Resource := c.entries.flatMap (·.2)

/-- The number of names. -/
def size (c : Catalog) : Nat := c.entries.length

/-- There are no names. -/
def isEmpty (c : Catalog) : Bool := c.entries.isEmpty

/-- The number of resources under all names. -/
def resourceCount (c : Catalog) : Nat := (c.entries.map (·.2.length)).foldl (· + ·) 0

/-- The resource that a subresource names as its owner: the first of that name, group and
version. -/
def parentOf (c : Catalog) (s : SubResource) : Option Resource :=
  (c.get? s.parent.name).bind (·.find? (·.groupVersion = s.parent.groupVersion))

/-- Keep of each name the resources for which `keep` yields one, and drop the names that are left
with none. -/
def filterMap (c : Catalog) (keep : Resource → Option Resource) : Catalog where
  entries := Keyed.filterMap (fun _ resources =>
    match resources.filterMap keep with
    | [] => none
    | kept => some kept) c.entries
  ordered := Keyed.ordered_filterMap c.ordered _

end Catalog

end ApiCatalog
