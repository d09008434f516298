import ApiCatalog.Report.Grid
import ApiCatalog.Report.Yaml
import ApiCatalog.Json.Printer

/-!
# What a command line asks for

`Options` are the choices of a command line: the report, its format, the cluster and the groups and
versions it is about, and what of the catalog it shows. `Options.selection` and `Options.report`
carry them out on a catalog.
-/

namespace ApiCatalog

/-- The formats of reports. -/
inductive Format where
  | table
  | json
  | yaml
deriving DecidableEq, Repr

/-- The name of a format. -/
def Format.name : Format → String
  | .table => "table"
  | .json => "json"
  | .yaml => "yaml"

/-- The format of a name. -/
def Format.ofName? (name : String) : Option Format :=
  [Format.table, .json, .yaml].find? (·.name = name)

/-- The text of a report. Only a table may go without its header. -/
def Table.render (t : Table) (format : Format) (withHeader : Bool) : String :=
  match format with
  | .table => t.toGrid withHeader
  | .json => t.toJson.pretty
  | .yaml => t.toYaml

/-- The reports. -/
inductive Command where
  /-- The whole catalog. -/
  | list
  /-- All that serves a name. -/
  | describe (name : String)
  /-- Which versions of a name have a field. -/
  | hasField (name path : String)
deriving DecidableEq, Repr

/-- The report of a command. -/
def Command.report (c : Catalog) : Command → Except ReportError Table
  | .list => .ok (Table.listing c)
  | .describe name => Table.description c name
  | .hasField name path => Table.fieldSupport c name path

/-- The choices of a command line. -/
structure Options where
  /-- The report, or none for the listing. -/
  command : Option Command := none
  /-- The context that names the cluster. -/
  context : Option String := none
  /-- The API group to restrict the catalog to. -/
  group : Option String := none
  /-- The version to restrict the catalog to. -/
  apiVersion : Option String := none
  /-- Leave out the subresources for the status. -/
  skipStatus : Bool := false
  /-- The fields that a resource must have, as dotted paths. -/
  fields : List String := []
  /-- One of the fields is enough. -/
  anyField : Bool := false
  format : Format := .table
  /-- Leave out the header of a table. -/
  noHeaders : Bool := false
  /-- Ask the server although a snapshot is cached. -/
  refresh : Bool := false
  /-- Make the context, the group and the version the defaults of later runs. -/
  save : Bool := false
  verbose : Bool := false
deriving DecidableEq, Repr, Inhabited

namespace Options

/-- The group that a command line names. The core group goes by the name it has in reports. -/
def groupOf (name : String) : String := if name = Table.coreGroup then "" else name

/-- What a resource must have for one or all of the fields. -/
def fieldSelections (o : Options) : List Selection :=
  let each := o.fields.map Selection.withDottedField
  if o.anyField && !o.fields.isEmpty then [.any each] else each

/-- What the options ask of a resource and its subresources, one by one. -/
def selections (o : Options) : List Selection :=
  (if o.skipStatus then [.withoutStatus] else []) ++ o.fieldSelections

/-- What the options keep of a catalog. -/
def selection (o : Options) : Selection := .all o.selections

/-- The report that the options ask for, of what they keep of a catalog. -/
def report (o : Options) (c : Catalog) : Except ReportError Table :=
  (o.command.getD .list).report (c.select o.selection)

/-- The text of a report. -/
def render (o : Options) (t : Table) : String := t.render o.format !o.noHeaders

end Options

end ApiCatalog
