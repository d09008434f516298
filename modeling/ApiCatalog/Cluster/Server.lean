import ApiCatalog.Announcement
import ApiCatalog.Json.Reader

/-!
# Asking an API server

A snapshot of a server is made of its answers to a row of requests: for the versions of the core
group, for the resources of each of them, for the other groups, for the resources of each of their
versions, and for the OpenAPI document. The first request that fails ends the row.

`Exchange` is such a row: the requests that are sent, and what comes of their answers.
`Snapshot.fetch` is the whole of it.
-/

namespace ApiCatalog

/-- A request to read what a server has at a path, in a form of the asker's choice. -/
structure Request where
  /-- The path, together with the query after it, if there is one. -/
  path : String
  accept : Option String := none
deriving DecidableEq, Repr

/-- The method of all requests. -/
def Request.method : String := "GET"

/-- An answer: a status, which is a failure from 400 on, and a text. -/
structure Response where
  status : Nat
  body : String
deriving DecidableEq, Repr

/-- What a server answers, unless it cannot be reached. -/
abbrev Server := Request → Option Response

/-- The server that cannot be reached. -/
def Server.unreachable : Server := fun _ => none

/-- The server that answers from a table of paths, with their queries, and has nothing else. -/
def Server.ofTable (table : List (String × Response)) : Server := fun request =>
  some ((Keyed.get? request.path table).getD ⟨404, ""⟩)

/-- Why a snapshot cannot be made: the request that failed. -/
inductive FetchError where
  | coreVersions
  | coreResources (version : String)
  | groups
  | groupResources (groupVersion : String)
  | document
  /-- The document is there, but it is no JSON text. -/
  | malformedDocument
deriving DecidableEq, Repr

/-- The path of the OpenAPI document. -/
def documentPath : String := "/openapi/v2"

/-- The form of the OpenAPI document. -/
def documentForm : String := "application/json"

/-- The message about a request. -/
def FetchError.message : FetchError → String
  | .coreVersions => "Failed to list core API versions"
  | .coreResources version => "Failed to list core API resources for " ++ version
  | .groups => "Failed to list API groups"
  | .groupResources groupVersion => "Failed to list API resources for " ++ groupVersion
  | .document => "Failed to fetch " ++ documentPath
  | .malformedDocument => "Failed to parse OpenAPI document"

/-- The text for the path of the request that failed. -/
def FetchError.path : FetchError → String
  | .coreVersions => "/api"
  | .coreResources version => "/api/" ++ version
  | .groups => "/apis"
  | .groupResources groupVersion => "/apis/" ++ groupVersion
  | .document | .malformedDocument => documentPath

/-- The form that this request asks for. -/
def FetchError.accept : FetchError → Option String
  | .document | .malformedDocument => some documentForm
  | _ => none

/-- The requests that are sent, in order, and what comes of the answers. -/
structure Exchange (α : Type) where
  requests : List Request
  result : Except FetchError α

namespace Exchange

variable {α β : Type}

/-- Nothing is sent. -/
def pure (value : α) : Exchange α := ⟨[], .ok value⟩

/-- Go on with what comes of an exchange, unless it fails. -/
def bind (exchange : Exchange α) (next : α → Exchange β) : Exchange β :=
  match exchange.result with
  | .error error => ⟨exchange.requests, .error error⟩
  | .ok value => ⟨exchange.requests ++ (next value).requests, (next value).result⟩

instance : Monad Exchange where
  pure := pure
  bind := bind

/-- Exchanges in turn, until one fails. -/
def inTurn : List (Exchange α) → Exchange (List α)
  | [] => pure []
  | exchange :: exchanges => do
    let value ← exchange
    let values ← inTurn exchanges
    return value :: values

/-- No part of a request can have the character. -/
def isRefused (c : Char) : Bool := c ≤ ' ' || c = '<' || c = '>' || c = '\x7f'

/-- The query of a request, after the question mark, unless it has characters that no query can
have. A number sign ends the request. -/
def scanQuery : List Char → Option (List Char)
  | [] => some []
  | '#' :: _ => some []
  | c :: rest => if isRefused c ∨ c = '"' then none else (scanQuery rest).map (c :: ·)

/-- The path of a request together with its query, unless they have characters that no request can
have. -/
def scanPath : List Char → Option (List Char)
  | [] => some []
  | '#' :: _ => some []
  | '?' :: query => (scanQuery query).map ('?' :: ·)
  | c :: rest => if isRefused c ∨ c = '\x60' then none else (scanPath rest).map (c :: ·)

/-- The greatest number of bytes of a text for a path. -/
def pathLimit : Nat := 65534

/-- The path that a text describes, together with its query, unless no request can have it. -/
def requestPath? (text : String) : Option String :=
  if text.utf8ByteSize ≤ pathLimit then (scanPath text.toList).map String.ofList else none

/-- Send a request, unless the text for its path makes none. -/
def ask (server : Server) (path : String) (accept : Option String) (error : FetchError) :
    Exchange String :=
  match requestPath? path with
  | none => ⟨[], .error error⟩
  | some path =>
    let request : Request := ⟨path, accept⟩
    match server request with
    | none => ⟨[request], .error error⟩
    | some response =>
      ⟨[request], if response.status < 400 then .ok response.body else .error error⟩

/-- Send a request for a record. -/
def askFor (decode : Written → Option α) (server : Server) (path : String) (error : FetchError) :
    Exchange α := do
  let body ← ask server path none error
  match (Written.read body).bind decode with
  | some value => return value
  | none => ⟨[], .error error⟩

end Exchange

/-- What the server answers to the request that failed. There is nothing if the request cannot be
sent or the server cannot be reached. -/
def FetchError.response? (error : FetchError) (server : Server) : Option Response := do
  server ⟨← Exchange.requestPath? error.path, error.accept⟩

namespace Listing

/-- The address of a server for clients of a certain origin. It must be well formed, but nothing is
made of it. -/
def decodeAddress (written : Written) : Option Unit := do
  let fields ← written.fields?
  let _ ← Written.lastOr "clientCIDR" "" Written.text? fields
  let _ ← Written.lastOr "serverAddress" "" Written.text? fields
  return ()

/-- The addresses of a server. -/
def decodeAddresses (fields : List (String × Written)) : Option Unit := do
  let _ ← Written.lastOr "serverAddressByClientCIDRs" [] (Written.list? decodeAddress) fields
  return ()

/-- The versions of the core group. -/
def decodeVersions (written : Written) : Option (List String) := do
  let fields ← written.fields?
  guard (Written.isLabelled "apiVersion" "v1" fields)
  guard (Written.isLabelled "kind" "APIVersions" fields)
  decodeAddresses fields
  Written.lastOr "versions" [] (Written.list? Written.text?) fields

/-- The text for a group and version. -/
def decodeGroupVersion (written : Written) : Option String := do
  let fields ← written.fields?
  let _ ← Written.lastOr "version" "" Written.text? fields
  Written.lastOr "groupVersion" "" Written.text? fields

/-- The versions of a group. -/
def decodeGroup (written : Written) : Option (List String) := do
  let fields ← written.fields?
  guard (Written.isLabelled "apiVersion" "v1" fields)
  guard (Written.isLabelled "kind" "APIGroup" fields)
  let _ ← Written.lastOr "name" "" Written.text? fields
  let _ ← Written.lastOr "preferredVersion" "" decodeGroupVersion fields
  decodeAddresses fields
  Written.lastOr "versions" [] (Written.list? decodeGroupVersion) fields

/-- The versions of all groups but the core group. -/
def decodeGroups (written : Written) : Option (List String) := do
  let fields ← written.fields?
  guard (Written.isLabelled "apiVersion" "v1" fields)
  guard (Written.isLabelled "kind" "APIGroupList" fields)
  (Written.lastOr "groups" [] (Written.list? decodeGroup) fields).map List.flatten

end Listing

open Exchange

/-- Ask for the announcements of the core group, and then for those of the other groups. -/
def Announcement.fetch (server : Server) : Exchange (List Announcement) := do
  let versions ← askFor Listing.decodeVersions server "/api" .coreVersions
  let core ← inTurn (versions.map fun version =>
    askFor Announcement.decode server ("/api/" ++ version) (.coreResources version))
  let groupVersions ← askFor Listing.decodeGroups server "/apis" .groups
  let others ← inTurn (groupVersions.map fun groupVersion =>
    askFor Announcement.decode server ("/apis/" ++ groupVersion) (.groupResources groupVersion))
  return core ++ others

/-- Ask for the OpenAPI document. -/
def Json.fetchDocument (server : Server) : Exchange Json := do
  let body ← ask server documentPath (some documentForm) .document
  match Json.read body with
  | some document => return document
  | none => ⟨[], .error .malformedDocument⟩

/-- Ask for all that makes a snapshot. -/
def Snapshot.fetch (server : Server) : Exchange Snapshot := do
  let announcements ← Announcement.fetch server
  let openapi ← Json.fetchDocument server
  return ⟨announcements, openapi⟩

end ApiCatalog
