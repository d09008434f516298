/-!
# Texts cut at a separator

Names in this library are compound: `apps/v1` is a group and a version, `pods/status` is a
resource and its subresource, `spec.replicas` is a path of two segments. `split` cuts such a text
at every separator, `join` puts the parts together again, and `afterFirst` keeps what follows the
first separator. The work is done on lists of characters by `pieces`, which always yields at
least one piece.
-/

namespace ApiCatalog.Text

/-- Cut a list of characters at every `separator`. A text without separator is one piece, and a
separator at either end leaves an empty piece there. -/
def pieces (separator : Char) : List Char → List (List Char)
  | [] => [[]]
  | c :: rest =>
    if c = separator then [] :: pieces separator rest
    else match pieces separator rest with
      | [] => [[c]]
      | piece :: others => (c :: piece) :: others

/-- There is always a first piece. -/
theorem pieces_ne_nil (separator : Char) (text : List Char) : pieces separator text ≠ [] := by
  cases text with
  | nil => simp [pieces]
  | cons c rest =>
    unfold pieces
    split
    · simp
    · split <;> simp

/-- The parts of `text` between the separators, in order. -/
def split (separator : Char) (text : String) : List String :=
  (pieces separator text.toList).map String.ofList

/-- What follows the first `separator`, if there is one. -/
def afterFirst (separator : Char) (text : String) : Option String :=
  match text.toList.dropWhile (· ≠ separator) with
  | [] => none
  | _ :: rest => some (String.ofList rest)

/-- The parts one after the other with `separator` between neighbours. -/
def join (separator : String) : List String → String
  | [] => ""
  | [part] => part
  | part :: parts => part ++ separator ++ join separator parts

end ApiCatalog.Text
