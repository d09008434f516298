import ApiCatalog.GroupVersion
import ApiCatalog.Schema.Shape
import ApiCatalog.Json.Printer

/-!
# The definitions of an OpenAPI document

A document names its schemas. `Definitions.ofDocument` takes each of them to its shape, in the
order of their names, and notes for which kinds of object it says that it serves. The first name
whose schema has no shape decides the error. If several definitions serve one kind, the one with
the greatest name answers for it.
-/

namespace ApiCatalog

/-- A named definition: its shape and the kinds of object that it serves. -/
structure Definition where
  name : String
  shape : Shape
  serves : List GroupVersionKind
deriving DecidableEq, Repr

/-- The definitions of a document, in the order of their names. -/
structure Definitions where
  entries : List Definition
deriving DecidableEq, Repr

namespace SchemaError

/-- The message about a document. -/
def message : SchemaError → String
  | .noDefinitions => "invalid OpenAPI document: document has no definitions"
  | .notAnObject found =>
    "invalid OpenAPI document: expected a schema object, found " ++ found.compact
  | .referenceNotText => "invalid OpenAPI document: $ref must be a string"
  | .inDefinition name cause =>
    "invalid OpenAPI document: definition " ++ name ++ ": " ++ message cause

end SchemaError

namespace Definition

/-- The member in which a schema lists the kinds that it serves. -/
def servesKey : String := "x-kubernetes-group-version-kind"

/-- The kind that an entry of that list names. A part that is missing or no text is empty. -/
def servedKind (members : List (String × Json)) : GroupVersionKind :=
  let part (key : String) := ((Keyed.get? key members).bind Json.text?).getD ""
  ⟨part "group", part "version", part "kind"⟩

/-- The kinds that a schema serves. Only the objects in its list count. -/
def servedKinds (schema : Json) : List GroupVersionKind :=
  (((schema.member? servesKey).bind Json.items?).getD []).filterMap fun entry =>
    entry.members?.map servedKind

end Definition

namespace Definitions

/-- The definition that a named schema makes. -/
def define (name : String) (schema : Json) : Except SchemaError Definition :=
  match Shape.ofJson schema with
  | .ok shape => .ok ⟨name, shape, Definition.servedKinds schema⟩
  | .error cause => .error (.inDefinition name cause)

/-- The definitions of named schemas. -/
def ofSchemas (schemas : List (String × Json)) : Except SchemaError Definitions :=
  (schemas.mapM fun (name, schema) => define name schema).map Definitions.mk

/-- The definitions of a document. -/
def ofDocument (document : Json) : Except SchemaError Definitions :=
  match (document.member? "definitions").bind Json.members? with
  | some schemas => ofSchemas schemas
  | none => .error .noDefinitions

/-- The shape of a named definition. -/
def shape? (d : Definitions) (name : String) : Option Shape :=
  (d.entries.find? (·.name = name)).map (·.shape)

/-- The name of the definition that answers for a kind. -/
def serving? (d : Definitions) (kind : GroupVersionKind) : Option String :=
  ((d.entries.filter (kind ∈ ·.serves)).getLast?).map (·.name)

/-- The number of definitions. -/
def size (d : Definitions) : Nat := d.entries.length

/-- There are no definitions. -/
def isEmpty (d : Definitions) : Bool := d.entries.isEmpty

end Definitions

end ApiCatalog
