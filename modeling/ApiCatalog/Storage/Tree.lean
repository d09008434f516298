import ApiCatalog.Keyed
import ApiCatalog.Text.Pieces

/-!
# Stored files

What a run of the program keeps lies in a tree of directories. `Node` is such a tree, and a path is
the list of the names that lead to something in it. An operation that cannot be carried out yields
nothing, and then the tree is as it was.

A link that leads nowhere stands in for all that is in the way without being there: it does not
exist for those who ask, and it cannot be written.

Why an operation fails is told by a `FileFailure`: by what stands in the way, or by a fault that the
tree does not show.
-/

namespace ApiCatalog

/-- What stands at a place: nothing, a file, a directory or a link that leads nowhere. -/
inductive Standing where
  | nothing
  | file
  | directory
  | deadLink
deriving DecidableEq, Repr

/-- Why an operation on a file or a directory fails. -/
inductive FileFailure where
  /-- Something is in the way. These are the places that are passed, up to the first one that is no
  directory. -/
  | blocked (way : List Standing)
  /-- The content is no text. -/
  | notText
  /-- The system refuses the operation, for a reason outside the tree. -/
  | refused
  /-- A write is broken off, for such a reason. -/
  | brokenOff
deriving DecidableEq, Repr

/-- A file, a directory with its entries in order, or a link that leads nowhere. -/
inductive Node where
  | file (content : ByteArray)
  | directory (entries : List (String × Node))
  | deadLink

namespace Node

/-- The greatest number of bytes of a name. -/
def nameLimit : Nat := 255

/-- A new entry may have this name. -/
def isName (name : String) : Bool :=
  name ≠ "" && name.utf8ByteSize ≤ nameLimit && name.toList.all (· ≠ '\x00')

/-- What stands at a path. -/
def at? : List String → Node → Option Node
  | [], node => some node
  | name :: path, .directory entries => (Keyed.get? name entries).bind (at? path)
  | _ :: _, _ => none

/-- What is seen at a path. -/
def standing (path : List String) (root : Node) : Standing :=
  match root.at? path with
  | none => .nothing
  | some (.file _) => .file
  | some (.directory _) => .directory
  | some .deadLink => .deadLink

/-- Something is found at a path. -/
def isPresent (path : List String) (root : Node) : Bool :=
  match root.at? path with
  | none | some .deadLink => false
  | some (.file _) | some (.directory _) => true

/-- There is a directory at a path. -/
def isDirectory (path : List String) (root : Node) : Bool :=
  match root.at? path with
  | some (.directory _) => true
  | _ => false

/-- The content of the file at a path. -/
def content? (path : List String) (root : Node) : Option ByteArray :=
  match root.at? path with
  | some (.file content) => some content
  | _ => none

/-- The names in the directory at a path, in order. There are none if there is no directory. -/
def names (path : List String) (root : Node) : List String :=
  match root.at? path with
  | some (.directory entries) => entries.map (·.1)
  | _ => []

/-- Make the directories of a path that are missing. -/
def makeDirectories : List String → Node → Option Node
  | [], .directory entries => some (.directory entries)
  | name :: path, .directory entries =>
    match Keyed.get? name entries with
    | some child =>
      (makeDirectories path child).map fun child => .directory (Keyed.put name child entries)
    | none =>
      if isName name then
        (makeDirectories path (.directory [])).map fun child =>
          .directory (Keyed.put name child entries)
      else none
  | _, _ => none

/-- Change what stands at a path below the root, in a directory that is there. The change is given
what stands there, if anything does, and may fail. -/
def alter (change : Option Node → Option (Option Node)) : List String → Node → Option Node
  | [], _ => none
  | [name], .directory entries =>
    (change (Keyed.get? name entries)).map fun
      | some node => .directory (Keyed.put name node entries)
      | none => .directory (Keyed.erase name entries)
  | name :: path, .directory entries => do
    let child ← Keyed.get? name entries
    let child ← alter change path child
    some (.directory (Keyed.put name child entries))
  | _ :: _, _ => none

/-- The last name of a path is one that a new entry may have. -/
def endsInName (path : List String) : Bool := path.getLast?.any isName

/-- Write a file, in place of the file that is there before. -/
def write? (path : List String) (content : ByteArray) : Node → Option Node :=
  alter (fun
    | none => if endsInName path then some (some (.file content)) else none
    | some (.file _) => some (some (.file content))
    | some _ => none) path

/-- Make an empty file where nothing is. -/
def create? (path : List String) : Node → Option Node :=
  alter (fun
    | none => if endsInName path then some (some (.file .empty)) else none
    | some _ => none) path

/-- Remove the file or link at a path. -/
def remove? (path : List String) : Node → Option Node :=
  alter (fun
    | some (.file _) | some .deadLink => some none
    | _ => none) path

/-- Move the file at a path to another path, in place of the file or link that is there before. -/
def rename? (source target : List String) (root : Node) : Option Node := do
  let content ← root.content? source
  let root ← root.alter (fun
    | none => if endsInName target then some (some (.file content)) else none
    | some (.directory _) => none
    | some _ => some (some (.file content))) target
  root.remove? source

/-- Write a file, and make the directories above it before. -/
def writeBelow? (path : List String) (content : ByteArray) (root : Node) : Option Node := do
  (← root.makeDirectories path.dropLast).write? path content

end Node

/-- A directory with all that is stored in it, and the text that leads to it in messages, if it is
not the one that the program runs in. -/
structure Storage where
  label : Option String := none
  root : Node := .directory []

namespace Storage

/-- A path as messages show it. -/
def shown (s : Storage) (path : List String) : String :=
  Text.join "/" (s.label.toList ++ path)

end Storage

end ApiCatalog
