import ApiCatalog.Catalog.Basic

/-!
# Selections

A selection judges resources and subresources. `Catalog.select` keeps the resources that it accepts,
and of each of them the accepted subresources; a resource that is left with none is kept. The
selections of this library judge resources by their schemas and subresources by their names, and a
caller may bring a `Criterion` of its own.
-/

namespace ApiCatalog

/-- A way to judge resources and subresources. -/
structure Criterion where
  keepsResource : Resource → Bool := fun _ => true
  keepsSubResource : SubResource → Bool := fun _ => true

/-- What to keep of a catalog. -/
inductive Selection where
  /-- Everything. -/
  | everything
  /-- What every one of several selections keeps. -/
  | all (selections : List Selection)
  /-- What at least one of several selections keeps. -/
  | any (selections : List Selection)
  /-- Every resource, and every subresource but those for the status. -/
  | withoutStatus
  /-- The resources whose schema has a field, with all subresources. -/
  | withField (path : List String)
  /-- What a given criterion keeps. -/
  | given (criterion : Criterion)

namespace Selection

/-- The segments of a dotted path that are not empty. -/
def segments (path : String) : List String := (Text.split '.' path).filter (· ≠ "")

/-- The resources whose schema has a field, given by a dotted path. -/
def withDottedField (path : String) : Selection := .withField (segments path)

/-- The end of the names of subresources for the status. -/
def statusSuffix : String := "/status"

mutual

/-- The selection keeps a resource. -/
def keepsResource (r : Resource) : Selection → Bool
  | .everything => true
  | .all selections => allKeepResource r selections
  | .any selections => anyKeepsResource r selections
  | .withoutStatus => true
  | .withField path => r.hasField path
  | .given criterion => criterion.keepsResource r

/-- Every selection of a list keeps a resource. -/
def allKeepResource (r : Resource) : List Selection → Bool
  | [] => true
  | selection :: rest => keepsResource r selection && allKeepResource r rest

/-- Some selection of a list keeps a resource. -/
def anyKeepsResource (r : Resource) : List Selection → Bool
  | [] => false
  | selection :: rest => keepsResource r selection || anyKeepsResource r rest

end

mutual

/-- The selection keeps a subresource of a resource that it keeps. -/
def keepsSubResource (s : SubResource) : Selection → Bool
  | .everything => true
  | .all selections => allKeepSubResource s selections
  | .any selections => anyKeepsSubResource s selections
  | .withoutStatus => !statusSuffix.toList.isSuffixOf s.name.toList
  | .withField _ => true
  | .given criterion => criterion.keepsSubResource s

/-- Every selection of a list keeps a subresource. -/
def allKeepSubResource (s : SubResource) : List Selection → Bool
  | [] => true
  | selection :: rest => keepsSubResource s selection && allKeepSubResource s rest

/-- Some selection of a list keeps a subresource. -/
def anyKeepsSubResource (s : SubResource) : List Selection → Bool
  | [] => false
  | selection :: rest => keepsSubResource s selection || anyKeepsSubResource s rest

end

/-- What is kept of a resource: the resource with the subresources that are kept. -/
def narrow (selection : Selection) (r : Resource) : Resource :=
  { r with subResources := r.subResources.filter fun s => selection.keepsSubResource s }

end Selection

namespace Catalog

/-- What a selection keeps. -/
def select (c : Catalog) (selection : Selection) : Catalog :=
  c.filterMap fun r => if selection.keepsResource r then some (selection.narrow r) else none

end Catalog

end ApiCatalog
