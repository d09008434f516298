import ApiCatalog.Cache
import ApiCatalog.Catalog.Discovery
import ApiCatalog.Cluster.Kubeconfig
import ApiCatalog.Cluster.Server
import ApiCatalog.CommandLine.Reading
import ApiCatalog.Config

/-!
# A run of the program

`Run.performAmong` carries out the options of a command line in a `Landscape`: the stored files,
the kubeconfig, the servers that its contexts lead to and the clock. It opens the log, loads the
configuration and saves it if that is asked for, takes the snapshot of the context from the cache or
from the server, and prints the report. The `Outcome` is what is printed or what went wrong, the
stored files as they are afterwards, and the requests that were sent. `runAmong` starts from the
words of the command line. `Run.perform` and `run` do the same in a `World`, in which all contexts
lead to one server.

A run that fails prints the messages of the error and of all its causes. Those that the system and
the libraries contribute are given by a `Wording`.
-/

namespace ApiCatalog

/-- What fails in a run for reasons outside the tree of files. -/
structure Faults where
  /-- While the configuration is saved. -/
  config : Option Config.Fault := none
  /-- While a snapshot is cached. -/
  cache : Cache.Faults := Cache.noFaults

/-- What a run finds. -/
structure World where
  /-- The home directory. -/
  home : Storage
  /-- The kubeconfig, if it can be read. -/
  kubeconfig : Option Kubeconfig
  server : Server
  /-- The time in seconds. -/
  now : Nat
  faults : Faults := {}

/-- What a run finds where every context leads to a server of its own. -/
structure Landscape where
  home : Storage
  kubeconfig : Option Kubeconfig
  /-- The server that a context leads to. -/
  servers : String → Server
  now : Nat
  faults : Faults := {}

/-- What a run finds once it is connected to the server of a context. -/
def Landscape.connected (l : Landscape) (context : String) : World :=
  { l with server := l.servers context }

/-- All contexts lead to the server. -/
def World.landscape (w : World) : Landscape :=
  { w with servers := fun _ => w.server }

/-- Why a run prints no report. -/
inductive RunError where
  | config (error : ConfigError)
  /-- The configuration cannot be saved. -/
  | notSaved (error : ConfigError)
  | connect (error : ConnectError)
  | cache (error : CacheError)
  /-- A request failed, with what the server has answered. -/
  | fetch (error : FetchError) (response : Option Response)
  /-- The document of the snapshot has no schemas. -/
  | schemas (error : SchemaError)
  | report (error : ReportError)
deriving Repr

/-- The message of an error itself. -/
def RunError.message : RunError → String
  | .config error => error.message
  | .notSaved _ => "Failed to save config"
  | .connect error => error.message
  | .cache error => error.message
  | .fetch error _ => error.message
  | .schemas _ => "Failed to load OpenAPI schemas"
  | .report error => error.message

/-- The messages of the system and of the libraries about what goes wrong. They stand behind those
of the program, from the first cause to the last. -/
structure Wording where
  config : ConfigError → List String := fun _ => []
  /-- The kubeconfig cannot be read. -/
  kubeconfig : List String := []
  cache : CacheError → List String := fun _ => []
  /-- A request failed, and the server has given this answer or none. -/
  fetch : FetchError → Option Response → List String := fun _ _ => []

/-- The messages of the causes of an error. -/
def RunError.causes (wording : Wording) : RunError → List String
  | .config error => wording.config error
  | .notSaved error => error.message :: wording.config error
  | .connect .noKubeconfig => wording.kubeconfig
  | .connect .noContext | .connect (.unknownContext _) => []
  | .connect (.noClient _ (.notLoaded causes)) => causes
  | .connect (.noClient _ (.notCreated causes)) => causes
  | .cache error => wording.cache error
  | .fetch error response => wording.fetch error response
  | .schemas error => [error.message]
  | .report _ => []

/-- Why nothing is logged. The run goes on all the same. -/
inductive LogWarning where
  | noDirectory
  | noFile
deriving DecidableEq, Repr

/-- What is said when nothing is logged. -/
def LogWarning.message : LogWarning → String
  | .noDirectory => "Could not create log directory"
  | .noFile => "Could not create log file"

/-- What a run leaves behind. -/
structure Outcome where
  /-- What is printed, or why nothing is. -/
  result : Except RunError String
  warning : Option LogWarning := none
  home : Storage
  requests : List Request := []

/-- What a run says: its exit code, what it prints, and the messages that it prints instead. -/
structure Reply where
  code : UInt32
  output : String
  /-- The message of the error, and then those of its causes. -/
  messages : List String
deriving DecidableEq, Repr

/-- The reply to a result. -/
def Reply.of (wording : Wording) : Except RunError String → Reply
  | .ok output => ⟨0, output, []⟩
  | .error error => ⟨1, "", error.message :: error.causes wording⟩

/-- The reply of a run. -/
def Outcome.reply (wording : Wording) (outcome : Outcome) : Reply := .of wording outcome.result

/-- A message behind a mark, with an indent before its further lines. -/
def Reply.block (mark indent message : String) : String :=
  mark ++ Text.join ("\n" ++ indent) (Text.split '\n' message)

/-- The text that is printed for messages. The causes stand below the error, with numbers if there
are several. -/
def Reply.errorText : List String → String
  | [] => ""
  | [message] => "Error: " ++ message ++ "\n"
  | [message, cause] =>
    "Error: " ++ message ++ "\n\nCaused by:\n" ++ block "    " "    " cause ++ "\n"
  | message :: causes =>
    let numbered := causes.zipIdx.map fun (cause, number) =>
      let digits := Text.digits number
      let aligned := String.ofList (List.replicate (5 - digits.length) ' ' ++ digits)
      block (aligned ++ ": ") "       " cause
    "Error: " ++ message ++ "\n\nCaused by:\n" ++ Text.join "\n" numbered ++ "\n"

namespace Run

/-- The directory of all that the program stores, below the home directory. -/
def base : List String := [".k8scatalog"]

/-- The file of the configuration. -/
def configPath : List String := base ++ ["config.json"]

/-- The directory of the cache. -/
def cacheBase : List String := base ++ ["cache"]

/-- The directory of the log. -/
def logDirectory : List String := base ++ ["log"]

/-- The file of the log. -/
def logPath : List String := logDirectory ++ ["k8scatalog.log"]

/-- Open the log, whose content is of no account here. -/
def openLog (home : Storage) : Option LogWarning × Storage :=
  match home.root.makeDirectories logDirectory with
  | none => (some .noDirectory, home)
  | some root =>
    if (root.content? logPath).isSome then (none, { home with root })
    else match root.create? logPath with
      | none => (some .noFile, { home with root })
      | some root => (none, { home with root })

/-- Load the configuration, let the options take precedence, and save it if that is asked for. -/
def configure (o : Options) (home : Storage) (fault : Option Config.Fault := none) :
    Except RunError Config × Storage :=
  match Config.load home ⟨configPath⟩ with
  | .error error => (.error (.config error), home)
  | .ok stored =>
    let config := stored.override o
    if o.save then
      match config.save home ⟨configPath⟩ fault with
      | (.error error, home) => (.error (.notSaved error), home)
      | (.ok (), home) => (.ok config, home)
    else (.ok config, home)

/-- A snapshot, or why there is none, with the stored files afterwards and the requests that were
sent for it. -/
structure Acquired where
  result : Except RunError Snapshot
  home : Storage
  requests : List Request := []

/-- Ask the server for a snapshot and cache it, if that is possible. -/
def fetch (w : World) (context : String) : Acquired :=
  let exchange := Snapshot.fetch w.server
  match exchange.result with
  | .error error =>
    ⟨.error (.fetch error (error.response? w.server)), w.home, exchange.requests⟩
  | .ok snapshot =>
    let (_, home) := Cache.save w.home cacheBase context snapshot w.now w.faults.cache
    ⟨.ok snapshot, home, exchange.requests⟩

/-- Take the snapshot of a context from the cache or, if there is no fresh one there or another one
is asked for, from the server. -/
def acquireFor (o : Options) (config : Config) (w : World) (context : String) : Acquired :=
  if o.refresh then
    match Cache.clear w.home cacheBase context with
    | .error error => ⟨.error (.cache error), w.home, []⟩
    | .ok home => fetch { w with home } context
  else
    match Cache.load w.home.root cacheBase context config.cacheSeconds w.now with
    | some snapshot => ⟨.ok snapshot, w.home, []⟩
    | none => fetch w context

/-- Take the snapshot of the context that the configuration or else the kubeconfig names. -/
def acquireAmong (o : Options) (config : Config) (l : Landscape) : Acquired :=
  match connect l.kubeconfig config.context with
  | .error error => ⟨.error (.connect error), l.home, []⟩
  | .ok context => acquireFor o config (l.connected context) context

/-- Take the snapshot where there is one server. -/
def acquire (o : Options) (config : Config) (w : World) : Acquired :=
  acquireAmong o config w.landscape

/-- The catalog of a snapshot. -/
def catalog (config : Config) (snapshot : Snapshot) : Except RunError Catalog := do
  let definitions ← (Definitions.ofDocument snapshot.openapi).mapError .schemas
  return Catalog.discover definitions.lookup config.restriction snapshot.announcements

/-- The report on a snapshot, with a line break at its end. -/
def present (o : Options) (config : Config) (snapshot : Snapshot) : Except RunError String := do
  let catalog ← catalog config snapshot
  let table ← (o.report catalog).mapError .report
  return o.render table ++ "\n"

/-- Carry out options. -/
def performAmong (l : Landscape) (o : Options) : Outcome :=
  let (warning, home) := openLog l.home
  match configure o home l.faults.config with
  | (.error error, home) => { result := .error error, warning, home }
  | (.ok config, home) =>
    let acquired := acquireAmong o config { l with home }
    { result := acquired.result.bind (present o config)
      warning
      home := acquired.home
      requests := acquired.requests }

/-- Carry out options where there is one server. -/
def perform (w : World) (o : Options) : Outcome := performAmong w.landscape o

end Run

/-- Carry out a command line, unless it stops before anything is done. -/
def runAmong (l : Landscape) (words : List String) : Except Stop Outcome :=
  (Options.read words).map (Run.performAmong l)

/-- Carry out a command line where there is one server. -/
def run (w : World) (words : List String) : Except Stop Outcome := runAmong w.landscape words

end ApiCatalog
