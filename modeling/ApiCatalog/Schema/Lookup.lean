import ApiCatalog.Schema.Definitions

/-!
# Finding a field in a schema

A field path leads from the shape of a definition into the shapes below it. References are followed
on the way, lists are looked into without a segment of their own, and a map has every key. Since
definitions may refer to each other in a circle, `Definitions.resolve` gives up after `hopLimit`
looks at a shape, and `Definitions.enter` looks into at most `hopLimit` lists.

`Schema.lookup` walks a whole path; `Schema.hasField` says whether there is anything at its end.
-/

namespace ApiCatalog

/-- How many shapes are looked at when references are followed, and how many lists are entered. -/
def hopLimit : Nat := 64

namespace Definitions

/-- Follow references until a shape is none, looking at no more than `hops` shapes. -/
def resolve (d : Definitions) : (hops : Nat) → Shape → Option Shape
  | 0, _ => none
  | hops + 1, .reference name => (d.shape? name).bind (d.resolve hops)
  | _ + 1, shape => some shape

/-- Look into lists until a shape is none, into no more than `lists` of them. -/
def enter (d : Definitions) : (lists : Nat) → Shape → Option Shape
  | 0, shape => some shape
  | lists + 1, .list items => (d.resolve hopLimit items).bind (d.enter lists)
  | _ + 1, shape => some shape

/-- The shape that stands in a field of a shape. -/
def child (d : Definitions) (segment : String) : Shape → Option Shape
  | .record fields => (Keyed.get? segment fields).bind (d.resolve hopLimit)
  | .map values => d.resolve hopLimit values
  | .anything => some .anything
  | .scalar _ _ | .list _ | .reference _ => none

/-- The shape one segment further along a path. -/
def descend (d : Definitions) (shape : Shape) (segment : String) : Option Shape :=
  (d.enter hopLimit shape).bind (d.child segment)

/-- The shape at the end of a path that starts at a shape. -/
def follow (d : Definitions) (shape : Shape) (path : List String) : Option Shape :=
  path.foldlM d.descend shape

end Definitions

/-- The schema of a resource: a definition by its name, among those it may refer to. Two schemas
are the same if they name the same definition among the same ones. -/
structure Schema where
  definitions : Definitions
  name : String
deriving DecidableEq, Repr

namespace Schema

/-- The shape of the definition itself. -/
def root? (s : Schema) : Option Shape := s.definitions.shape? s.name

/-- The shape at the end of a path. -/
def lookup (s : Schema) (path : List String) : Option Shape := do
  let root ← s.root?
  let shape ← s.definitions.resolve hopLimit root
  s.definitions.follow shape path

/-- There is something at the end of the path. -/
def hasField (s : Schema) (path : List String) : Bool := (s.lookup path).isSome

end Schema

/-- A way to find the schema of a kind of object. -/
abbrev SchemaLookup := GroupVersionKind → Option Schema

/-- Find schemas among the definitions of a document. -/
def Definitions.lookup (d : Definitions) : SchemaLookup := fun kind =>
  (d.serving? kind).map fun name => ⟨d, name⟩

end ApiCatalog
