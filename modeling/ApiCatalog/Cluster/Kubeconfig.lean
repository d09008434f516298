import ApiCatalog.Json.Decoding
import ApiCatalog.Json.Reader

/-!
# Contexts

A kubeconfig names the contexts in which clusters can be reached, and one of them may be the current
one. `Kubeconfig.choose` picks the context of a run, and `connect` makes the client for it. What
else the entry of a context says is up to the client, so all that is known of it here is whether the
client can be made.
-/

namespace ApiCatalog

/-- Why there is no client for a context, with the messages of what causes it. -/
inductive ClientFailure where
  /-- What the kubeconfig says of the context makes no settings for a client. -/
  | notLoaded (causes : List String)
  /-- The settings make no client. -/
  | notCreated (causes : List String)
deriving DecidableEq, Repr

/-- The contexts that a kubeconfig names. -/
structure Kubeconfig where
  contexts : List String := []
  current : Option String := none
  /-- The contexts for which no client can be made. -/
  failures : List (String × ClientFailure) := []
deriving DecidableEq, Repr, Inhabited

/-- Why there is no context to connect to. -/
inductive ConnectError where
  /-- There is no kubeconfig, or it cannot be read. -/
  | noKubeconfig
  /-- No context is asked for, and none is current. -/
  | noContext
  /-- The context is not among those of the kubeconfig. -/
  | unknownContext (name : String)
  /-- There is no client for the context. -/
  | noClient (name : String) (failure : ClientFailure)
deriving DecidableEq, Repr

/-- The message about a connection. -/
def ConnectError.message : ConnectError → String
  | .noKubeconfig => "Failed to read kubeconfig"
  | .noContext => "No context specified and no current context in kubeconfig"
  | .unknownContext name => "Context '" ++ name ++ "' not found in kubeconfig"
  | .noClient name (.notLoaded _) => "Failed to load kubeconfig for context '" ++ name ++ "'"
  | .noClient name (.notCreated _) => "Failed to create client for context '" ++ name ++ "'"

namespace Kubeconfig

/-- The context that is asked for, or else the current one. It must be among the contexts: no other
one stands in for it. -/
def choose (k : Kubeconfig) (requested : Option String) : Except ConnectError String :=
  match requested.or k.current with
  | none => .error .noContext
  | some name => if name ∈ k.contexts then .ok name else .error (.unknownContext name)

/-- The kubeconfig that a JSON text spells. -/
def decode (written : Written) : Option Kubeconfig := do
  let fields ← written.fields?
  let name (context : Written) : Option String := do
    Written.required "name" Written.text? (← context.fields?)
  some {
    contexts := ← Written.lastOr "contexts" [] (Written.list? name) fields
    current := ← Written.lastOr "current-context" none (·.text?.map some) fields }

end Kubeconfig

/-- The context of a run, if there is a kubeconfig, and if there is a client for the context that is
chosen. -/
def connect (kubeconfig : Option Kubeconfig) (requested : Option String) :
    Except ConnectError String := do
  match kubeconfig with
  | none => .error .noKubeconfig
  | some kubeconfig =>
    let name ← kubeconfig.choose requested
    match kubeconfig.failures.lookup name with
    | some failure => .error (.noClient name failure)
    | none => return name

end ApiCatalog
