import ApiCatalog.Proofs.Storage.Tree

/-!
# What a directory lists

`Node.entriesAt` are the entries of the directory at a path. All that stands in the directory is
found there (`at?_concat`), and the operations on a file in the directory are operations on this
list: they put an entry in its place or take it out. None of this asks for trees in order.
-/

namespace ApiCatalog.Node

variable {root changed : Node} {directory : List String} {name : String}
  {entries : List (String × Node)} {content : ByteArray}

/-- The entries of the directory at a path. There are none if there is no directory. -/
def entriesAt (path : List String) (root : Node) : List (String × Node) :=
  match root.at? path with
  | some (.directory entries) => entries
  | _ => []

/-- What stands in a directory is one of its entries, and nothing stands in anything else. -/
theorem at?_concat (directory : List String) (name : String) (root : Node) :
    root.at? (directory ++ [name]) = Keyed.get? name (root.entriesAt directory) := by
  rw [at?_append, entriesAt]
  cases root.at? directory with
  | none => rfl
  | some node =>
      cases node with
      | file | deadLink => rfl
      | directory entries => exact at?_singleton name entries

/-- The file in a directory is found among the entries. -/
theorem content?_concat (directory : List String) (name : String) (root : Node) :
    root.content? (directory ++ [name]) =
      (Keyed.get? name (root.entriesAt directory)).bind (content? []) := by
  rw [content?, at?_concat]
  cases Keyed.get? name (root.entriesAt directory) <;> rfl

/-- Below a name the entries are those of what stands there. -/
theorem entriesAt_cons_of_get? {child : Node} (h : Keyed.get? name entries = some child)
    (path : List String) :
    (Node.directory entries).entriesAt (name :: path) = child.entriesAt path := by
  rw [entriesAt, at?_cons, h]
  rfl

/-! ## Changes -/

/-- A change of something in a directory puts it among the entries or takes it out. -/
theorem entriesAt_alter {change : Option Node → Option (Option Node)}
    (h : alter change (directory ++ [name]) root = some changed) :
    ∃ result, change (Keyed.get? name (root.entriesAt directory)) = some result ∧
      changed.entriesAt directory = match result with
        | some node => Keyed.put name node (root.entriesAt directory)
        | none => Keyed.erase name (root.entriesAt directory) := by
  induction directory generalizing root changed with
  | nil =>
      obtain ⟨entries, rfl, ⟨-, result, hresult, rfl⟩ | ⟨child, below, -, hbelow, -⟩⟩ :=
        alter_cases h
      · exact ⟨result, hresult, rfl⟩
      · cases hbelow
  | cons first rest ih =>
      obtain ⟨entries, rfl, ⟨hnil, -⟩ | ⟨child, below, hchild, hbelow, rfl⟩⟩ := alter_cases h
      · exact absurd hnil (List.concat_ne_nil name rest)
      · have hput : Keyed.get? first (Keyed.put first below entries) = some below := by
          rw [Keyed.get?_put, if_pos rfl]
        rw [entriesAt_cons_of_get? hchild, entriesAt_cons_of_get? hput]
        exact ih hbelow

/-- A new file stands under a name that nothing had. -/
theorem entriesAt_create (h : root.create? (directory ++ [name]) = some changed) :
    Keyed.get? name (root.entriesAt directory) = none ∧
      changed.entriesAt directory = Keyed.put name (.file .empty) (root.entriesAt directory) := by
  obtain ⟨result, hresult, hchanged⟩ := entriesAt_alter h
  split at hresult
  next hnone =>
    obtain ⟨-, hfile⟩ := Option.ite_none_right_eq_some.1 hresult
    cases hfile
    exact ⟨hnone, hchanged⟩
  next => cases hresult

/-- A file that is written stands under its name. -/
theorem entriesAt_write (h : root.write? (directory ++ [name]) content = some changed) :
    changed.entriesAt directory = Keyed.put name (.file content) (root.entriesAt directory) := by
  obtain ⟨result, hresult, hchanged⟩ := entriesAt_alter h
  split at hresult
  next =>
    obtain ⟨-, hfile⟩ := Option.ite_none_right_eq_some.1 hresult
    cases hfile
    exact hchanged
  next =>
    cases hresult
    exact hchanged
  next => cases hresult

/-- A file that is removed is taken out. -/
theorem entriesAt_remove (h : root.remove? (directory ++ [name]) = some changed) :
    changed.entriesAt directory = Keyed.erase name (root.entriesAt directory) := by
  obtain ⟨result, hresult, hchanged⟩ := entriesAt_alter h
  split at hresult
  next =>
    cases hresult
    exact hchanged
  next =>
    cases hresult
    exact hchanged
  next => cases hresult

/-- A file that is moved within a directory stands under the other name instead of its own. -/
theorem entriesAt_rename {target : String}
    (h : root.rename? (directory ++ [name]) (directory ++ [target]) = some changed)
    (hfile : Keyed.get? name (root.entriesAt directory) = some (.file content)) :
    changed.entriesAt directory =
      Keyed.erase name (Keyed.put target (.file content) (root.entriesAt directory)) := by
  simp only [rename?, Option.bind_eq_bind, Option.bind_eq_some_iff] at h
  obtain ⟨moved, hmoved, middle, hmiddle, hremove⟩ := h
  rw [content?_concat, hfile] at hmoved
  cases hmoved
  rw [entriesAt_remove hremove]
  obtain ⟨result, hresult, hput⟩ := entriesAt_alter hmiddle
  split at hresult
  next =>
    obtain ⟨-, hmoved⟩ := Option.ite_none_right_eq_some.1 hresult
    cases hmoved
    rw [hput]
  next => cases hresult
  next =>
    cases hresult
    rw [hput]

/-- Making a directory that is there leaves its entries, and a new one has none. -/
theorem entriesAt_makeDirectories (h : root.makeDirectories directory = some changed) :
    changed.entriesAt directory = root.entriesAt directory := by
  induction directory generalizing root changed with
  | nil =>
      obtain ⟨entries, rfl⟩ := exists_directory_of_makeDirectories h
      cases h
      rfl
  | cons name path ih =>
      obtain ⟨entries, rfl⟩ := exists_directory_of_makeDirectories h
      obtain ⟨below, hbelow, rfl⟩ := makeDirectories_cons h
      have hput : Keyed.get? name (Keyed.put name below entries) = some below := by
        rw [Keyed.get?_put, if_pos rfl]
      rw [entriesAt_cons_of_get? hput, ih hbelow]
      cases hfound : Keyed.get? name entries with
      | some child => exact (entriesAt_cons_of_get? hfound path).symm
      | none =>
          rw [entriesAt, entriesAt, at?_cons, hfound]
          cases path <;> rfl

end ApiCatalog.Node
