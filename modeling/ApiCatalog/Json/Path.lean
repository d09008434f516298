import ApiCatalog.Json.Basic

/-!
# Values at a path

A path is a list of keys that leads through nested objects. `Json.at?` reads the value it leads to,
`Json.set` stores a value there and makes the objects that are missing on the way, `Json.take`
removes the value, and `Json.replace` puts another one in its place. Paths lead through objects
only: an array or any other value on the way ends them.
-/

namespace ApiCatalog.Json

/-- The value that a path leads to. -/
def at? : List String → Json → Option Json
  | [], value => some value
  | key :: path, .object members => (Keyed.get? key members).bind (at? path)
  | _ :: _, _ => none

/-- Store a value at a path, behind new objects where some are missing on the way. Yields the value
stored there before, if any, or nothing if the path is empty or meets a value that is not an object.
The tree comes with it as it is then: each object is made on the way to the next, so those that were
made stay in the tree whatever is met behind them. -/
def set : List String → Json → Json → Option (Option Json) × Json
  | [key], .object members, value =>
    (some (Keyed.get? key members), .object (Keyed.put key value members))
  | key :: next :: path, .object members, value =>
    let (old, child) := set (next :: path) ((Keyed.get? key members).getD (.object [])) value
    (old, .object (Keyed.put key child members))
  | _, tree, _ => (none, tree)

/-- Remove the value at a path. Yields it and the tree without it, or nothing if there is none. -/
def take : List String → Json → Option (Json × Json)
  | [], _ => none
  | [key], .object members =>
    (Keyed.get? key members).map fun old => (old, .object (Keyed.erase key members))
  | key :: path, .object members => do
    let child ← Keyed.get? key members
    let (old, child) ← take path child
    some (old, .object (Keyed.put key child members))
  | _ :: _, _ => none

/-- Put a value in place of the one at a path. Yields the old value and the changed tree, or
nothing if there is none. -/
def replace : List String → Json → Json → Option (Json × Json)
  | [], old, value => some (old, value)
  | key :: path, .object members, value => do
    let child ← Keyed.get? key members
    let (old, child) ← replace path child value
    some (old, .object (Keyed.put key child members))
  | _ :: _, _, _ => none

end ApiCatalog.Json
