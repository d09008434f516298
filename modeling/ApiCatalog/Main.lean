import ApiCatalog.Run
import Std.Time.DateTime.Timestamp

/-!
# The command line program

`main` reads the stored files and the kubeconfig, carries out the command line by `run`, writes back
the files that have changed, and prints the outcome. The kubeconfig must be written as JSON, and no
server can be reached from here, so reports are made of cached snapshots.
-/

namespace ApiCatalog.Main

/-- The help text. -/
def helpText : String :=
  "Discover and filter the resource types served by a Kubernetes cluster\n\n" ++
  "Switches: -c, --context CONTEXT; -g, --group GROUP; --api-version VERSION; --skip-status;\n" ++
  "  --has-field PATH; --any-field; -o, --output table|json|yaml; --no-headers; --refresh;\n" ++
  "  --save; -v, --verbose; -h, --help; -V, --version\n" ++
  "Commands: list; describe NAME; has-field NAME PATH; help\n"

/-- The version text. -/
def versionText : String := "0.1.0\n"

/-- A path below a directory. -/
def below (directory : String) (path : List String) : String :=
  Text.join "/" (directory :: path)

/-- What stands at a path. What cannot be read as a file is taken for a directory. -/
def readNode (path : String) : IO (Option Node) := do
  try
    return some (.file (← IO.FS.readBinFile path))
  catch
    | .noFileOrDirectory .. => return none
    | _ => return some (.directory [])

/-- Put a file into a tree, with the directories above it. -/
def place (root : Node) (path : List String) : Option Node → Node
  | none => root
  | some (.file content) => (root.writeBelow? path content).getD root
  | some _ => (root.makeDirectories path).getD root

/-- Write back what stands at a path, if it has changed. -/
def writeBack (home : String) (before after : Node) (path : List String) : IO Unit := do
  let old := before.content? path
  let new := after.content? path
  if old.map ByteArray.toList ≠ new.map ByteArray.toList then
    match new with
    | some content =>
      IO.FS.createDirAll (below home path.dropLast)
      IO.FS.writeBinFile (below home path) content
    | none => IO.FS.removeFile (below home path)

/-- Read the kubeconfig, if there is one. -/
def readKubeconfig (home : String) : IO (Option Kubeconfig) := do
  let path := (← IO.getEnv "KUBECONFIG").getD (below home [".kube", "config"])
  try
    return (Written.read (← IO.FS.readFile path)).bind Kubeconfig.decode
  catch _ => return none

/-- What the system says of a failure. -/
def fileMessage : FileFailure → String
  | .blocked way =>
    match way.getLast? with
    | some .directory => "Is a directory"
    | some .nothing => "No such file or directory"
    | _ => "Not a directory"
  | .notText => "stream did not contain valid UTF-8"
  | .refused => "Permission denied"
  | .brokenOff => "No space left on device"

/-- The messages about causes. -/
def wording : Wording where
  config
    | .unreadable _ cause | .noDirectory _ cause | .unwritable _ cause => [fileMessage cause]
    | .malformed _ _ => ["the text is no configuration"]
  kubeconfig := ["there is no kubeconfig, or it is not written as JSON"]
  cache _ := ["Is a directory"]
  fetch _ response := match response with
    | some response => ["the server answers with status " ++ toString response.status]
    | none => ["the server cannot be reached"]

/-- Print the outcome of a run. -/
def report (outcome : Outcome) : IO UInt32 := do
  if let some warning := outcome.warning then
    IO.eprintln ("Warning: " ++ warning.message)
  let reply := outcome.reply wording
  IO.print reply.output
  IO.eprint (Reply.errorText reply.messages)
  return reply.code

/-- Carry out a command line. -/
def carryOut (words : List String) : IO UInt32 := do
  let home := (← IO.getEnv "HOME").getD "."
  let kubeconfig ← readKubeconfig home
  let contexts := (kubeconfig.map (·.contexts)).getD []
  let paths := Run.configPath :: Run.logPath :: contexts.map (Cache.path Run.cacheBase)
  let root ← paths.foldlM (fun root path => do
    return place root path (← readNode (below home path))) (Node.directory [])
  let world : World := {
    home := ⟨some home, root⟩
    kubeconfig
    server := Server.unreachable
    now := (← Std.Time.Timestamp.now).toSecondsSinceUnixEpoch.val.toNat }
  match run world words with
  | .error .help => IO.print helpText; return 0
  | .error .version => IO.print versionText; return 0
  | .error (.wrong _) => IO.eprintln "Error: wrong usage"; return 2
  | .ok outcome =>
    paths.forM (writeBack home root outcome.home.root)
    report outcome

end ApiCatalog.Main

/-- Carry out the command line of the process. -/
def main (words : List String) : IO UInt32 := ApiCatalog.Main.carryOut words
