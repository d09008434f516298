import ApiCatalog.Catalog.Selection
import ApiCatalog.Json.Basic

/-!
# Reports

A report is a table of texts. `Table.listing` shows the whole catalog, one row per resource and
version, `Table.description` shows what serves one name, and `Table.fieldSupport` shows which of
the resources and subresources of a name have a field. Lists stand in one cell with commas between
their parts, and the core group, which has no name, is called `core`.

`Table.records` is a report as data, where some columns hold truth values, and `Table.toJson` is the
list of objects made of it, with the columns as keys.
-/

namespace ApiCatalog

/-- A report: the names of its columns, and the cells of its rows from left to right. -/
structure Table where
  columns : List String
  rows : List (List String)
deriving DecidableEq, Repr

/-- Why there is no report. -/
inductive ReportError where
  /-- The catalog has no resource of this name. -/
  | noSuchResource (name : String)
deriving DecidableEq, Repr

/-- The message about a report. -/
def ReportError.message : ReportError → String
  | .noSuchResource name => "Resource '" ++ name ++ "' not found"

namespace Table

/-- What the core group is called. -/
def coreGroup : String := "core"

/-- The cell for a group. -/
def groupCell (group : String) : String := if group = "" then coreGroup else group

/-- The cell for a truth value. -/
def flagCell (flag : Bool) : String := if flag then "true" else "false"

/-- The cell for a list. -/
def listCell (parts : List String) : String := Text.join "," parts

/-- The row of a resource in the listing of the catalog, under the name that the catalog has it. -/
def listingRow (name : String) (r : Resource) : List String :=
  [name, groupCell r.groupVersion.group, r.groupVersion.version, r.descriptor.kind,
    flagCell r.descriptor.namespaced, listCell r.subResourceNames,
    listCell (r.descriptor.shortNames.getD [])]

/-- One row per resource and version, by the order of names. -/
def listing (c : Catalog) : Table where
  columns := ["name", "group", "version", "kind", "namespaced", "subresources", "short_names"]
  rows := c.entries.flatMap fun (name, resources) => resources.map (listingRow name)

/-- The resources of a name, which must be in the catalog. -/
def resourcesOf (c : Catalog) (name : String) : Except ReportError (List Resource) :=
  match c.get? name with
  | some resources => .ok resources
  | none => .error (.noSuchResource name)

/-- The row of a resource in the description of a name. -/
def descriptionRow (r : Resource) : List String :=
  [groupCell r.groupVersion.group, r.groupVersion.version, r.descriptor.kind,
    flagCell r.descriptor.namespaced, listCell r.descriptor.verbs,
    listCell (r.descriptor.categories.getD []), listCell r.subResourceNames]

/-- One row per version that serves a name. -/
def description (c : Catalog) (name : String) : Except ReportError Table :=
  (resourcesOf c name).map fun resources =>
    { columns :=
        ["group", "version", "kind", "namespaced", "verbs", "categories", "subresources"]
      rows := resources.map descriptionRow }

/-- The rows of a resource and of its subresources that say whether they have a field. All of them
show the group and version of the resource. -/
def fieldRows (path : List String) (r : Resource) : List (List String) :=
  let row (name : String) (hasField : Bool) : List String :=
    [groupCell r.groupVersion.group, r.groupVersion.version, name, flagCell hasField]
  row r.name (r.hasField path) :: r.subResources.map fun s => row s.name (s.hasField path)

/-- Whether the resources of a name and their subresources have a field, given by a dotted path. -/
def fieldSupport (c : Catalog) (name path : String) : Except ReportError Table :=
  (resourcesOf c name).map fun resources =>
    { columns := ["group", "version", "resource", "has_field"]
      rows := resources.flatMap (fieldRows (Selection.segments path)) }

/-- The columns that hold truth values. -/
def flagColumns : List String := ["namespaced", "has_field"]

/-- What a cell holds. -/
inductive Datum where
  | flag (value : Bool)
  | text (value : String)
deriving DecidableEq, Repr

/-- The JSON form of what a cell holds. -/
def Datum.toJson : Datum → Json
  | .flag value => .bool value
  | .text value => .string value

/-- What a cell holds: a truth value if its column holds them and it spells one, or else a
text. -/
def datum (column cell : String) : Datum :=
  if column ∈ flagColumns then
    if cell = "true" then .flag true
    else if cell = "false" then .flag false
    else .text cell
  else .text cell

/-- A row as data, by the names of the columns. Columns without cells and cells without columns are
left out. If two columns have one name, the later cell counts. -/
def record (columns cells : List String) : List (String × Datum) :=
  Keyed.ofPairs (List.zipWith (fun column cell => (column, datum column cell)) columns cells)

/-- The rows as data. -/
def records (t : Table) : List (List (String × Datum)) := t.rows.map (record t.columns)

/-- The report as a list with an object for each row. -/
def toJson (t : Table) : Json :=
  .array (t.records.map fun members =>
    .object (members.map fun (column, datum) => (column, datum.toJson)))

end Table

end ApiCatalog
