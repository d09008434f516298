import ApiCatalog.CommandLine.Options
import ApiCatalog.Json.Decoding
import ApiCatalog.Json.Reader
import ApiCatalog.Storage.Route

/-!
# Stored defaults

The configuration holds the defaults for the context, the group and the version, and says for how
long a cached snapshot may be used. It is stored as a JSON text, and `Config.decode` reads what
`Config.text` writes. Command lines take precedence over it, as `Config.override` says.
-/

namespace ApiCatalog

/-- The defaults of runs. An absent group or version admits any, and the empty group is the core
group. -/
structure Config where
  /-- The context that names the cluster. -/
  context : Option String := none
  /-- The API group to restrict the catalog to. -/
  group : Option String := none
  /-- The version to restrict the catalog to. -/
  apiVersion : Option String := none
  /-- For how many seconds a snapshot may be used. -/
  cacheSeconds : Nat := 60 * 60
deriving DecidableEq, Repr, Inhabited

/-- Why a configuration cannot be loaded or saved, with the path of the file or directory that is in
the way and with what causes it. -/
inductive ConfigError where
  | unreadable (path : String) (cause : FileFailure)
  /-- The text of the file spells no configuration. -/
  | malformed (path text : String)
  | noDirectory (path : String) (cause : FileFailure)
  | unwritable (path : String) (cause : FileFailure)
deriving DecidableEq, Repr

/-- The message about a configuration. -/
def ConfigError.message : ConfigError → String
  | .unreadable path _ => "Failed to read config file: " ++ path
  | .malformed path _ => "Failed to parse config file: " ++ path
  | .noDirectory path _ => "Failed to create config directory: " ++ path
  | .unwritable path _ => "Failed to write config file: " ++ path

namespace Config

/-- The key of the context. -/
def contextKey : String := "context"

/-- The key of the group. -/
def groupKey : String := "api_group"

/-- The key of the version. -/
def apiVersionKey : String := "api_version"

/-- The key of the time for which snapshots are cached. -/
def cacheSecondsKey : String := "cache_ttl_secs"

/-- The keys of the fields, in the order of the stored text. -/
def keys : List String := [contextKey, groupKey, apiVersionKey, cacheSecondsKey]

/-- The members of the stored text. Absent defaults are left out. -/
def members (c : Config) : List (String × Json) :=
  Json.optionalMember contextKey (c.context.map .string) ++
    Json.optionalMember groupKey (c.group.map .string) ++
    Json.optionalMember apiVersionKey (c.apiVersion.map .string) ++
    [(cacheSecondsKey, .ofNat c.cacheSeconds)]

/-- The stored text. -/
def text (c : Config) : String := Json.pretty (.object c.members)

/-- A default that may be null, which stands for its absence. -/
def decodeDefault : Written → Option (Option String) := Written.optional? Written.text?

/-- The configuration that fields spell. None of them may be repeated, and others are passed
over. -/
def decodeFields (fields : List (String × Written)) : Option Config := do
  let context ← Written.once contextKey decodeDefault fields
  let group ← Written.once groupKey decodeDefault fields
  let apiVersion ← Written.once apiVersionKey decodeDefault fields
  let cacheSeconds ← Written.once cacheSecondsKey Written.natural? fields
  some {
    context := context.join
    group := group.join
    apiVersion := apiVersion.join
    cacheSeconds := cacheSeconds.getD ({} : Config).cacheSeconds }

/-- The configuration whose fields are spelled by a JSON text: as members of an object, or as items
of a list in the order of the fields. Missing fields take their defaults. -/
def decode : Written → Option Config
  | .array items =>
    if items.length ≤ keys.length then decodeFields (keys.zip items) else none
  | written => written.fields?.bind decodeFields

/-- The configuration in the file at the end of a route, or the default one if nothing is there. -/
def load (s : Storage) (route : Route) : Except ConfigError Config :=
  match (route.locate? s.root).filter fun path => s.root.isPresent path with
  | none => .ok {}
  | some path =>
    match s.root.content? path with
    | none => .error (.unreadable (s.shown route.segments) (.blocked (route.way s.root)))
    | some content =>
      match String.fromUTF8? content with
      | none => .error (.unreadable (s.shown route.segments) .notText)
      | some text =>
        match (Written.read text).bind decode with
        | none => .error (.malformed (s.shown route.segments) text)
        | some config => .ok config

/-- What fails while a configuration is saved, for a reason outside the tree of files. -/
inductive Fault where
  /-- No directory is made. -/
  | directory
  /-- The file is not opened. -/
  | file
  /-- The file is opened, and thereby emptied, but the write is broken off after some bytes. -/
  | write (written : Nat)
deriving DecidableEq, Repr

/-- What is in the file after the content was written to it, if it is opened at all. A write that is
broken off leaves out the last byte at least. -/
def Fault.left? (content : ByteArray) : Option Fault → Option ByteArray
  | none => some content
  | some (.write written) => some (content.extract 0 (min written (content.size - 1)))
  | some .directory | some .file => none

/-- Store the configuration in the file at the end of a route, and make the directories above it
before. These stay even when the file cannot be written. -/
def save (c : Config) (s : Storage) (route : Route) (fault : Option Fault := none) :
    Except ConfigError Unit × Storage :=
  let noDirectory := ConfigError.noDirectory (s.shown route.above.segments)
  let unwritable := ConfigError.unwritable (s.shown route.segments)
  if fault = some .directory then (.error (noDirectory .refused), s)
  else match route.above.makeDirectories? s.root with
    | none => (.error (noDirectory (.blocked (route.above.way s.root))), s)
    | some root =>
      match Fault.left? c.text.toUTF8 fault with
      | none => (.error (unwritable .refused), { s with root })
      | some content =>
        match route.write? content root with
        | none => (.error (unwritable (.blocked (route.way root))), { s with root })
        | some written =>
          let result := if fault.isNone then .ok () else .error (unwritable .brokenOff)
          (result, { s with root := written })

/-- The configuration with what a command line gives in place of the defaults. -/
def override (c : Config) (o : Options) : Config :=
  { c with
    context := o.context.or c.context
    group := (o.group.map Options.groupOf).or c.group
    apiVersion := o.apiVersion.or c.apiVersion }

/-- The groups and versions that the configuration admits. -/
def restriction (c : Config) : Restriction := ⟨c.group, c.apiVersion⟩

end Config

end ApiCatalog
