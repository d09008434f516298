import ApiCatalog.Catalog.Resource
import ApiCatalog.Json.Path

/-!
# Access to the fields of live objects

A field path that a schema has may be used to read or change an object of that schema.
`Schema.access` checks the path and hands a `Slot`, the object and the path into it, to an accessor
of the caller's choice. The accessor yields a result and the object as it is afterwards. `Slot.get`,
`Slot.set`, `Slot.replace` and `Slot.take` are the accessors of this library.
-/

namespace ApiCatalog

/-- Why a field cannot be used. -/
inductive FieldError where
  /-- The schema does not have the path. -/
  | notInSchema (path : List String) (schema : String)
  /-- A value on the way to the field is not an object. -/
  | notAnObject (path : List String)
deriving DecidableEq, Repr

namespace FieldError

/-- The message about a field. -/
def message : FieldError → String
  | .notInSchema path schema =>
    "field '" ++ Text.join "." path ++ "' not found in schema " ++ schema
  | .notAnObject path =>
    "cannot reach field '" ++ Text.join "." path ++ "': parent value is not an object"

end FieldError

/-- A field of a live object. Its path is known to the schema, but the object need not have a value
there. -/
structure Slot where
  object : Json
  path : List String
deriving Repr

/-- What an accessor yields: its result, and the object as it is afterwards. -/
structure Accessed (ε α : Type) where
  result : Except ε α
  object : Json

/-- What to do with a field. -/
abbrev Accessor (ε α : Type) := Slot → Accessed ε α

namespace Slot

variable {ε : Type}

/-- Read the value, if there is one. -/
def get : Accessor ε (Option Json) := fun slot =>
  ⟨.ok (slot.object.at? slot.path), slot.object⟩

/-- Store a value, make the objects that are missing on the way, and yield the value from before. A
value on the way that is no object is an error. -/
def set (value : Json) : Accessor FieldError (Option Json) := fun slot =>
  let (stored, object) := slot.object.set slot.path value
  match stored with
  | some old => ⟨.ok old, object⟩
  | none => ⟨.error (.notAnObject slot.path), object⟩

/-- Put a value in place of the one that is there, and yield that one. -/
def replace (value : Json) : Accessor ε (Option Json) := fun slot =>
  match slot.object.replace slot.path value with
  | some (old, object) => ⟨.ok (some old), object⟩
  | none => ⟨.ok none, slot.object⟩

/-- Remove the value, and yield it. -/
def take : Accessor ε (Option Json) := fun slot =>
  match slot.object.take slot.path with
  | some (old, object) => ⟨.ok (some old), object⟩
  | none => ⟨.ok none, slot.object⟩

end Slot

/-- Hand a field of an object to an accessor, if the path is not empty and the schema has it. The
errors of the accessor may be of a type that has the errors of fields among others. -/
def Schema.access {ε α : Type} (schema : Schema) (path : List String) (object : Json)
    (fieldError : FieldError → ε) (accessor : Accessor ε α) : Accessed ε α :=
  if path = [] ∨ !schema.hasField path then
    ⟨.error (fieldError (.notInSchema path schema.name)), object⟩
  else accessor ⟨object, path⟩

end ApiCatalog
