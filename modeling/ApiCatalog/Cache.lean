import ApiCatalog.Announcement
import ApiCatalog.Json.Printer
import ApiCatalog.Json.Reader
import ApiCatalog.Storage.Tree
import ApiCatalog.Text.Alphanumeric
import ApiCatalog.Text.Quoted

/-!
# Cached snapshots

The last snapshot of every context is kept in a file of its own, next to those of other contexts,
together with the time at which it was made. `Cache.load` yields it as long as it is fresh,
`Cache.save` replaces it and `Cache.clear` removes it. What cannot be read counts as missing.

A snapshot is replaced in four steps: it is written to a temporary file, which then takes the place
of the old one. When a step fails, the old snapshot stays. A temporary file that could not be
written is removed at once. One that could not take its place belongs to the error and is removed
with it.
-/

namespace ApiCatalog

/-- Why the cache cannot be changed, with the path of the file in the way. -/
inductive CacheError where
  | noDirectory
  | noTemporaryFile
  | unwritable (path : String)
  | notReplaced (path : String)
  | notRemoved (path : String)
deriving DecidableEq, Repr

/-- The message about the cache. -/
def CacheError.message : CacheError → String
  | .noDirectory => "Failed to create clusters cache directory"
  | .noTemporaryFile => "Failed to create temp file"
  | .unwritable path => "Failed to write temp file " ++ Text.quoted path
  | .notReplaced path => "Failed to persist file to " ++ Text.quoted path
  | .notRemoved path => "Failed to remove " ++ Text.quoted path

namespace Cache

/-- A snapshot with the time at which it was made, in seconds. -/
structure Entry where
  snapshot : Snapshot
  createdAt : Nat
deriving Repr

namespace Entry

/-- The JSON form, the snapshot first. -/
def toJson (e : Entry) : Json :=
  .object [("snapshot", e.snapshot.toJson), ("created_at", .ofNat e.createdAt)]

/-- The entry that a JSON text spells, as an object or as a list of its two parts. -/
def decode (written : Written) : Option Entry :=
  let snapshot := Snapshot.decode (Written.depthLimit - 1)
  match written with
  | .array [first, second] => do some ⟨← snapshot first, ← second.natural?⟩
  | written => do
    let fields ← written.fields?
    some ⟨← Written.required "snapshot" snapshot fields,
      ← Written.required "created_at" Written.natural? fields⟩

/-- The stored text. -/
def text (e : Entry) : String := e.toJson.compact

/-- The entry in a stored file. -/
def ofContent? (content : ByteArray) : Option Entry := (Written.readBytes content).bind decode

/-- The entry may be used for a number of seconds. An entry from the future is as good as new. -/
def isFresh (e : Entry) (seconds now : Nat) : Bool := now - e.createdAt < seconds

end Entry

/-- A character of the name of a file: letters, digits, dashes and underscores stay as they are. -/
def fileChar (c : Char) : Char :=
  if Text.isAlphanumeric c ∨ c = '-' ∨ c = '_' then c else '_'

/-- The name of the file of a context. -/
def fileName (context : String) : String := String.ofList (context.toList.map fileChar) ++ ".json"

/-- The directory of the files, below that of the cache. -/
def directory (base : List String) : List String := base ++ ["clusters"]

/-- The path of the file of a context. -/
def path (base : List String) (context : String) : List String :=
  directory base ++ [fileName context]

/-- The fresh snapshot of a context, if there is one. -/
def load (root : Node) (base : List String) (context : String) (seconds now : Nat) :
    Option Snapshot := do
  let entry ← Entry.ofContent? (← root.content? (path base context))
  if entry.isFresh seconds now then some entry.snapshot else none

/-- How a name for a temporary file is chosen, given the names that are taken. There may be none. -/
abbrev Naming := List String → Option String

/-- The name of a temporary file. -/
def temporaryName (number : Nat) : String := ".tmp" ++ String.ofList (Text.digits number)

/-- The first temporary name that is not taken. There is one among as many names as are taken and
one more. -/
def freshName? : Naming := fun taken =>
  ((List.range (taken.length + 1)).map temporaryName).find? (· ∉ taken)

/-- The steps in which a snapshot is replaced. -/
inductive SaveStep where
  | makeDirectory
  | createTemporary
  | writeTemporary
  | replace
deriving DecidableEq, Repr

/-- The steps that fail for reasons outside the tree of files. -/
abbrev Faults := SaveStep → Bool

/-- No step fails for such a reason. -/
def noFaults : Faults := fun _ => false

/-- What a step makes of the tree, unless it fails for a reason of its own. -/
def attempt {α : Type} (faults : Faults) (step : SaveStep) (result : Option α)
    (error : CacheError) : Except CacheError α :=
  if faults step then .error error
  else match result with
    | some value => .ok value
    | none => .error error

/-- The trees that a change goes through until its result is there, from the first to the last, and
whether it was carried out. -/
structure Run where
  states : List Node
  result : Except CacheError Unit
  /-- The temporary file that belongs to the error. It is removed when the error is dropped. -/
  held : Option (List String) := none

/-- The run with two states before it. -/
def Run.after (first second : Node) (run : Run) : Run :=
  { run with states := first :: second :: run.states }

/-- Replace the content of a file by way of a temporary file in its directory. -/
def replaceFile (naming : Naming) (faults : Faults) (s : Storage) (directory : List String)
    (name : String) (content : ByteArray) : Run :=
  let target := directory ++ [name]
  let created := attempt faults .createTemporary (do
    let temporary := directory ++ [← naming (s.root.names directory)]
    some (temporary, ← s.root.create? temporary)) .noTemporaryFile
  match created with
  | .error error => { states := [], result := .error error }
  | .ok (temporary, created) =>
    match attempt faults .writeTemporary (created.write? temporary content)
        (.unwritable (s.shown temporary)) with
    | .error error =>
      { states := created :: (created.remove? temporary).toList, result := .error error }
    | .ok written =>
      match attempt faults .replace (written.rename? temporary target)
          (.notReplaced (s.shown target)) with
      | .error error =>
        { states := [created, written], result := .error error, held := some temporary }
      | .ok replaced => { states := [created, written, replaced], result := .ok () }

/-- Replace the snapshot of a context, by way of a temporary file of any name. -/
def saveRunBy (naming : Naming) (faults : Faults) (s : Storage) (base : List String)
    (context : String) (snapshot : Snapshot) (now : Nat) : Run :=
  match attempt faults .makeDirectory (s.root.makeDirectories (directory base)) .noDirectory with
  | .error error => { states := [s.root], result := .error error }
  | .ok root =>
    (replaceFile naming faults { s with root } (directory base) (fileName context)
      (Entry.text ⟨snapshot, now⟩).toUTF8).after s.root root

/-- Replace the snapshot of a context. -/
def saveRun (faults : Faults) (s : Storage) (base : List String) (context : String)
    (snapshot : Snapshot) (now : Nat) : Run :=
  saveRunBy freshName? faults s base context snapshot now

/-- The tree when the result of a run is there. -/
def Run.returned (run : Run) (start : Node) : Node := run.states.getLastD start

/-- The tree after a run, when its error has been dropped, if there is one. -/
def Run.final (run : Run) (start : Node) : Node :=
  match run.held with
  | some temporary => ((run.returned start).remove? temporary).getD (run.returned start)
  | none => run.returned start

/-- Replace the snapshot of a context, and yield the tree as it is when an error has been taken note
of and dropped. -/
def save (s : Storage) (base : List String) (context : String) (snapshot : Snapshot) (now : Nat)
    (faults : Faults := noFaults) : Except CacheError Unit × Storage :=
  let run := saveRun faults s base context snapshot now
  (run.result, { s with root := run.final s.root })

/-- Remove the snapshot of a context, if there is one. -/
def clear (s : Storage) (base : List String) (context : String) : Except CacheError Storage :=
  let file := path base context
  if s.root.isPresent file then
    match s.root.remove? file with
    | some root => .ok { s with root }
    | none => .error (.notRemoved (s.shown file))
  else .ok s

end Cache

end ApiCatalog
