import ApiCatalog.GroupVersion
import ApiCatalog.Json.Decoding

/-!
# What an API server announces

For each group and version a server announces a list of descriptors, one per resource or
subresource that it serves there. The name of a subresource contains that of its resource, as in
`pods/status`. A snapshot is all that the server announces together with its OpenAPI document.

Each of the three has a JSON form. `toJson` yields it and `decode` reads it: fields that are
missing or null take their defaults, unknown fields are passed over, and a value of a wrong type
makes the whole undecodable.
-/

namespace ApiCatalog

/-- The parts of a descriptor's name: the resource, and the subresource if the name has a slash.
Anything after a second slash is ignored. -/
def nameParts (name : String) : String × Option String :=
  match Text.split '/' name with
  | [] => ("", none)
  | resource :: rest => (resource, rest.head?)

/-- What a server says of one resource or subresource. -/
structure Descriptor where
  name : String := ""
  kind : String := ""
  singularName : String := ""
  namespaced : Bool := false
  verbs : List String := []
  group : Option String := none
  version : Option String := none
  shortNames : Option (List String) := none
  categories : Option (List String) := none
  storageVersionHash : Option String := none
deriving DecidableEq, Repr, Inhabited

namespace Descriptor

/-- The name of the resource, without that of a subresource. -/
def resourceName (d : Descriptor) : String := (nameParts d.name).1

/-- The descriptor is that of a subresource. -/
def isSub (d : Descriptor) : Bool := (nameParts d.name).2.isSome

/-- A value that is absent or empty is replaced. -/
def fill (value : Option String) (default : String) : Option String :=
  match value with
  | none => some default
  | some text => if text = "" then some default else some text

/-- Fill in the group and the version of the announcement where the descriptor has none. -/
def defaulted (d : Descriptor) (gv : GroupVersion) : Descriptor :=
  { d with group := fill d.group gv.group, version := fill d.version gv.version }

/-- The kind that the descriptor itself names. -/
def groupVersionKind (d : Descriptor) : GroupVersionKind :=
  ⟨d.group.getD "", d.version.getD "", d.kind⟩

/-- The JSON form, without the fields that are absent. -/
def toJson (d : Descriptor) : Json :=
  .ofMembers (
    [("name", .string d.name), ("kind", .string d.kind), ("singularName", .string d.singularName),
      ("namespaced", .bool d.namespaced), ("verbs", .ofTexts d.verbs)] ++
    Json.optionalMember "group" (d.group.map .string) ++
    Json.optionalMember "version" (d.version.map .string) ++
    Json.optionalMember "shortNames" (d.shortNames.map .ofTexts) ++
    Json.optionalMember "categories" (d.categories.map .ofTexts) ++
    Json.optionalMember "storageVersionHash" (d.storageVersionHash.map .string))

/-- The descriptor that a JSON text spells. -/
def decode (written : Written) : Option Descriptor := do
  let fields ← written.fields?
  let text (key : String) := Written.lastOr key "" Written.text? fields
  let optionalText (key : String) := Written.lastOr key none (·.text?.map some) fields
  let texts (key : String) :=
    Written.lastOr key none (fun value => (value.list? Written.text?).map some) fields
  some {
    name := ← text "name"
    kind := ← text "kind"
    singularName := ← text "singularName"
    namespaced := ← Written.lastOr "namespaced" false Written.flag? fields
    verbs := ← Written.lastOr "verbs" [] (Written.list? Written.text?) fields
    group := ← optionalText "group"
    version := ← optionalText "version"
    shortNames := ← texts "shortNames"
    categories := ← texts "categories"
    storageVersionHash := ← optionalText "storageVersionHash" }

end Descriptor

/-- The descriptors that a server announces in one group and version. -/
structure Announcement where
  groupVersion : String := ""
  resources : List Descriptor := []
deriving DecidableEq, Repr, Inhabited

namespace Announcement

/-- The version of the format of announcements. -/
def formatVersion : String := "v1"

/-- The name of the format of announcements. -/
def formatKind : String := "APIResourceList"

/-- The JSON form, labelled with its format. The labels come first. -/
def toJson (a : Announcement) : Json :=
  .object [("apiVersion", .string formatVersion), ("kind", .string formatKind),
    ("groupVersion", .string a.groupVersion),
    ("resources", .array (a.resources.map Descriptor.toJson))]

/-- The announcement that a JSON text spells. Labels may be missing but not differ. -/
def decode (written : Written) : Option Announcement := do
  let fields ← written.fields?
  guard (Written.isLabelled "apiVersion" formatVersion fields)
  guard (Written.isLabelled "kind" formatKind fields)
  some {
    groupVersion := ← Written.lastOr "groupVersion" "" Written.text? fields
    resources := ← Written.lastOr "resources" [] (Written.list? Descriptor.decode) fields }

end Announcement

/-- All that a server announces, in its order of preference, and its OpenAPI document. -/
structure Snapshot where
  announcements : List Announcement
  openapi : Json
deriving Repr, Inhabited

namespace Snapshot

/-- The JSON form. -/
def toJson (s : Snapshot) : Json :=
  .ofMembers [("announcements", .array (s.announcements.map Announcement.toJson)),
    ("openapi", s.openapi)]

/-- The snapshot that a JSON text spells, as an object or as a list of its two parts. The document
stands below the snapshot, and arrays and objects may stand `depth` deep in all. -/
def decode (depth : Nat) (written : Written) : Option Snapshot :=
  let announcements := Written.list? Announcement.decode
  let openapi := Written.value? (depth - 1)
  match written with
  | .array [first, second] => do some ⟨← announcements first, ← openapi second⟩
  | written => do
    let fields ← written.fields?
    some ⟨← Written.required "announcements" announcements fields,
      ← Written.required "openapi" openapi fields⟩

end Snapshot

end ApiCatalog
