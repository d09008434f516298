import ApiCatalog.Storage.Tree

/-!
# Routes

A route is a path as it is written: segments with slashes between them. A segment is a name, or two
dots for the directory above, or it is idle, that is empty or a single dot, and stays where it is.
`Route.locate?` follows a route through a tree. Only directories can be passed, so a route that ends
in a slash leads to a directory or nowhere.

`Route.write?` writes the file at the end of a route, and `Route.makeDirectories?` makes the
directories along it. `Route.above` is the route to the directory of the file.
-/

namespace ApiCatalog

/-- A path as it is written, cut at its slashes. -/
structure Route where
  segments : List String
deriving DecidableEq, Repr

namespace Route

/-- The separator of segments. -/
def slash : Char := '/'

/-- The segment that leads to the directory above. -/
def upward : String := ".."

/-- The segment stays where it is. -/
def isIdle (segment : String) : Bool := segment = "" || segment = "."

/-- The route that a text describes. -/
def ofText (text : String) : Route := ⟨Text.split slash text⟩

/-- The text of a route. -/
def text (r : Route) : String := Text.join "/" r.segments

/-- The greatest number of bytes of a route. -/
def byteLimit : Nat := 4095

/-- The route can be followed at all. -/
def isUsable (r : Route) : Bool := r.text ≠ "" && r.text.utf8ByteSize ≤ byteLimit

/-- Where segments lead from a place in a tree, if all places that they pass are directories. There
may be nothing at the end. -/
def follow (root : Node) (here : List String) : List String → Option (List String)
  | [] => some here
  | segment :: rest =>
    if !root.isDirectory here then none
    else if isIdle segment then follow root here rest
    else if segment = upward then follow root here.dropLast rest
    else follow root (here ++ [segment]) rest

/-- What is seen at the places that segments pass, up to the first one that is no directory. -/
def passed (root : Node) (here : List String) : List String → List Standing
  | [] => [root.standing here]
  | segment :: rest =>
    if root.standing here = .directory then
      .directory ::
        if isIdle segment then passed root here rest
        else if segment = upward then passed root here.dropLast rest
        else passed root (here ++ [segment]) rest
    else [root.standing here]

/-- What is seen on the way to the end of a route. -/
def way (r : Route) (root : Node) : List Standing := passed root [] r.segments

/-- The names that lead to the end of a route. -/
def locate? (r : Route) (root : Node) : Option (List String) :=
  if r.isUsable then follow root [] r.segments else none

/-- The segments without the idle ones at the end. -/
def trimmed (segments : List String) : List String := (segments.reverse.dropWhile isIdle).reverse

/-- The route to the directory in which the end of a route lies. It is empty when the route starts
in that directory. -/
def above (r : Route) : Route := ⟨trimmed (trimmed r.segments).dropLast⟩

/-- Make the directories that segments pass on their way from a place in a tree. -/
def make (here : List String) : List String → Node → Option Node
  | [], root => some root
  | segment :: rest, root =>
    if isIdle segment then make here rest root
    else if segment = upward then make here.dropLast rest root
    else do make (here ++ [segment]) rest (← root.makeDirectories (here ++ [segment]))

/-- Make the directories along a route that are missing. -/
def makeDirectories? (r : Route) (root : Node) : Option Node :=
  if r.text = "" then some root else if r.isUsable then make [] r.segments root else none

/-- The last segment is a name. -/
def endsInName (r : Route) : Bool :=
  r.segments.getLast?.any fun segment => !isIdle segment && segment ≠ upward

/-- Write the file at the end of a route, in place of the file that is there before. -/
def write? (r : Route) (content : ByteArray) (root : Node) : Option Node := do
  guard r.endsInName
  root.write? (← r.locate? root) content

/-- Write the file at the end of a route, and make the directories above it before. -/
def writeBelow? (r : Route) (content : ByteArray) (root : Node) : Option Node := do
  r.write? content (← r.above.makeDirectories? root)

end Route

end ApiCatalog
