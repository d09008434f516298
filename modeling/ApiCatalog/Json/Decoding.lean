import ApiCatalog.Json.Written

/-!
# Decoding records from JSON texts

The files of the catalog and the answers of a server hold records of known formats. A record is
decoded from the tree of its text. `Written.fields?` lists the members of an object with their
keys, `last` decodes a member that may be repeated, where the last one counts although all must
be well formed, and `once` decodes a member that may not. Unknown members are passed over.
-/

namespace ApiCatalog.Written

/-- The members of an object in the order of the text, with their keys. -/
def fieldsOf : List (List StringPiece × Written) → Option (List (String × Written))
  | [] => some []
  | (key, member) :: members => do
    let key ← StringPiece.text? key
    let fields ← fieldsOf members
    some ((key, member) :: fields)

/-- The fields of a record. -/
def fields? : Written → Option (List (String × Written))
  | .object members => fieldsOf members
  | _ => none

/-- A text. -/
def text? : Written → Option String
  | .string pieces => StringPiece.text? pieces
  | _ => none

/-- A truth value. -/
def flag? : Written → Option Bool
  | .bool value => some value
  | _ => none

/-- A natural number below `2 ^ 64`, spelled as an integer. -/
def natural? : Written → Option Nat
  | .number literal =>
    match literal.value? with
    | some (.int (.ofNat n)) => some n
    | _ => none
  | _ => none

variable {α : Type}

/-- A value that may be null, which stands for its absence. -/
def optional? (decode : Written → Option α) : Written → Option (Option α)
  | .null => some none
  | written => (decode written).map some

/-- Every item of an array. -/
def list? (decode : Written → Option α) : Written → Option (List α)
  | .array items => items.mapM decode
  | _ => none

/-- The members with a key. -/
def occurrences (key : String) (fields : List (String × Written)) : List Written :=
  (fields.filter (·.1 = key)).map (·.2)

/-- A member that may be missing or repeated. All of its occurrences must be well formed, and the
last one counts. -/
def last (key : String) (decode : Written → Option α) (fields : List (String × Written)) :
    Option (Option α) :=
  ((occurrences key fields).mapM decode).map List.getLast?

/-- A member that may be missing or null, with a value for both cases. -/
def lastOr (key : String) (default : α) (decode : Written → Option α)
    (fields : List (String × Written)) : Option α :=
  (last key (optional? decode) fields).map fun found => found.join.getD default

/-- A member that may be missing but not repeated. -/
def once (key : String) (decode : Written → Option α) (fields : List (String × Written)) :
    Option (Option α) :=
  match occurrences key fields with
  | [] => some none
  | [written] => (decode written).map some
  | _ => none

/-- A member that must be there exactly once. -/
def required (key : String) (decode : Written → Option α) (fields : List (String × Written)) :
    Option α :=
  (once key decode fields).join

/-- If the member is there, it is this text, in all of its occurrences. -/
def isLabelled (key label : String) (fields : List (String × Written)) : Bool :=
  (occurrences key fields).all fun written => written.text? = some label

end ApiCatalog.Written
