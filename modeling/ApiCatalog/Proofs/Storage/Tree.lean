import ApiCatalog.Proofs.Keyed
import ApiCatalog.Storage.Tree

/-!
# What changes in a tree of files

The operations on stored files change what stands at one path. `at?_alter` says what stands there
afterwards, and `Puts.content?_alter_of_ne` that the files at all other paths keep their contents,
as long as no directory is put there or taken away. `Replaced` puts the two together, and each
operation on files comes with it. New directories change no content (`content?_makeDirectories`).
All of this needs trees whose directories are in order, and the operations yield such trees again.
-/

namespace ApiCatalog.Node

/-- The entries of every directory in the tree are in order. -/
def Ordered (root : Node) : Prop :=
  ∀ path entries, root.at? path = some (.directory entries) → Keyed.Ordered entries

/-- No directory stands here. -/
def IsLeaf (found : Option Node) : Prop := ∀ entries, found ≠ some (.directory entries)

variable {root changed child : Node} {name : String} {path other : List String}
  {entries : List (String × Node)}

/-- The first name of a path leads into one of the entries. -/
theorem at?_cons (name : String) (path : List String) (entries : List (String × Node)) :
    (Node.directory entries).at? (name :: path) = (Keyed.get? name entries).bind (at? path) := rfl

/-- A single name leads to its entry. -/
theorem at?_singleton (name : String) (entries : List (String × Node)) :
    (Node.directory entries).at? [name] = Keyed.get? name entries := by
  rw [at?_cons]
  cases Keyed.get? name entries <;> rfl

/-- Nothing stands below what is no directory. -/
theorem at?_eq_none_of_isLeaf (h : IsLeaf (some root)) (name : String) (path : List String) :
    root.at? (name :: path) = none := by
  cases root with
  | file | deadLink => rfl
  | directory entries => exact absurd rfl (h entries)

/-- What is no directory is in order. -/
theorem ordered_of_isLeaf (h : IsLeaf (some root)) : root.Ordered := by
  intro path entries hat
  cases path with
  | nil => exact absurd hat (h entries)
  | cons name path =>
      rw [at?_eq_none_of_isLeaf h] at hat
      cases hat

/-- A directory is in order if its entries are and what they hold is. -/
theorem ordered_directory_iff :
    (Node.directory entries).Ordered ↔
      Keyed.Ordered entries ∧
        ∀ name child, Keyed.get? name entries = some child → child.Ordered := by
  constructor
  · intro h
    refine ⟨h [] entries rfl, ?_⟩
    intro name child hchild path below hat
    refine h (name :: path) below ?_
    rw [at?_cons, hchild, Option.bind_some]
    exact hat
  · rintro ⟨hentries, hchildren⟩ path below hat
    cases path with
    | nil =>
        cases hat
        exact hentries
    | cons name path =>
        obtain ⟨child, hchild, hbelow⟩ := Option.bind_eq_some_iff.1 hat
        exact hchildren name child hchild path below hbelow

/-- A directory stays in order when an entry is put. -/
theorem ordered_put (h : (Node.directory entries).Ordered) (hchild : child.Ordered) :
    (Node.directory (Keyed.put name child entries)).Ordered := by
  obtain ⟨hentries, hchildren⟩ := ordered_directory_iff.1 h
  refine ordered_directory_iff.2 ⟨Keyed.ordered_put hentries name child, ?_⟩
  intro other found hfound
  rw [Keyed.get?_put] at hfound
  split at hfound
  · cases hfound
    exact hchild
  · exact hchildren other found hfound

/-- A directory stays in order when an entry is erased. -/
theorem ordered_erase (h : (Node.directory entries).Ordered) :
    (Node.directory (Keyed.erase name entries)).Ordered := by
  obtain ⟨hentries, hchildren⟩ := ordered_directory_iff.1 h
  refine ordered_directory_iff.2 ⟨Keyed.ordered_erase hentries name, ?_⟩
  intro other found hfound
  by_cases hname : other = name
  · subst hname
    rw [Keyed.get?_erase_self hentries] at hfound
    cases hfound
  · rw [Keyed.get?_erase_of_ne hname] at hfound
    exact hchildren other found hfound

/-! ## What stands in a directory -/

/-- One path after another leads from where the first one ends. -/
theorem at?_append (path other : List String) (root : Node) :
    root.at? (path ++ other) = (root.at? path).bind (at? other) := by
  induction path generalizing root with
  | nil => rfl
  | cons name path ih =>
      cases root with
      | file | deadLink => rfl
      | directory entries =>
          rw [List.cons_append, at?_cons, at?_cons]
          cases Keyed.get? name entries with
          | none => rfl
          | some child => exact ih child

/-- What stands in a directory is one of its entries. -/
theorem at?_append_singleton {directory : List String}
    (hdirectory : root.at? directory = some (.directory entries)) (name : String) :
    root.at? (directory ++ [name]) = Keyed.get? name entries := by
  rw [at?_append, hdirectory, Option.bind_some, at?_singleton]

/-- A file stands in a directory. -/
theorem exists_directory_of_content? {directory : List String} {content : ByteArray}
    (h : root.content? (directory ++ [name]) = some content) :
    ∃ entries, root.at? directory = some (.directory entries) ∧
      Keyed.get? name entries = some (.file content) := by
  rw [content?, at?_append] at h
  cases hdirectory : root.at? directory with
  | none =>
      rw [hdirectory] at h
      cases h
  | some node =>
      cases node with
      | file | deadLink =>
          rw [hdirectory] at h
          cases h
      | directory entries =>
          refine ⟨entries, rfl, ?_⟩
          rw [← at?_append, at?_append_singleton hdirectory] at h
          split at h
          next file hfound =>
            cases h
            exact hfound
          next => cases h

/-- A file that has a content is present. -/
theorem isPresent_of_content? {content : ByteArray} (h : root.content? path = some content) :
    root.isPresent path = true := by
  unfold content? at h
  split at h
  next hfound => rw [isPresent, hfound]
  next => cases h

/-- There is no file under a name that the directory does not have. -/
theorem content?_eq_none_of_not_mem_names {directory : List String}
    (h : name ∉ root.names directory) : root.content? (directory ++ [name]) = none := by
  cases hcontent : root.content? (directory ++ [name]) with
  | none => rfl
  | some content =>
      obtain ⟨entries, hdirectory, hfound⟩ := exists_directory_of_content? hcontent
      rw [names, hdirectory] at h
      rw [Keyed.get?_eq_none_of_not_mem h] at hfound
      cases hfound

/-! ## Changes at one path -/

section Alter

variable {change : Option Node → Option (Option Node)}

/-- A change takes place in a directory. It puts its result there under the last name of the path,
or it changes the child below the first one. -/
theorem alter_cases (h : alter change (name :: path) root = some changed) :
    ∃ entries, root = .directory entries ∧
      ((path = [] ∧ ∃ result, change (Keyed.get? name entries) = some result ∧
          changed = .directory (match result with
            | some node => Keyed.put name node entries
            | none => Keyed.erase name entries)) ∨
        ∃ child below, Keyed.get? name entries = some child ∧
          alter change path child = some below ∧
          changed = .directory (Keyed.put name below entries)) := by
  cases root with
  | file | deadLink => cases path <;> cases h
  | directory entries =>
      refine ⟨entries, rfl, ?_⟩
      cases path with
      | nil =>
          obtain ⟨result, hresult, hchanged⟩ := Option.map_eq_some_iff.1 h
          refine .inl ⟨rfl, result, hresult, ?_⟩
          rw [← hchanged]
          cases result <;> rfl
      | cons next path =>
          simp only [alter, Option.bind_eq_bind, Option.bind_eq_some_iff] at h
          obtain ⟨child, hchild, below, hbelow, hchanged⟩ := h
          exact .inr ⟨child, below, hchild, hbelow, (Option.some.inj hchanged).symm⟩

/-- What stands at the path of a change afterwards is its result. -/
theorem at?_alter (hordered : root.Ordered) (h : alter change path root = some changed) :
    change (root.at? path) = some (changed.at? path) := by
  induction path generalizing root changed with
  | nil => cases h
  | cons name path ih =>
      obtain ⟨entries, rfl, hcases⟩ := alter_cases h
      obtain ⟨hentries, hchildren⟩ := ordered_directory_iff.1 hordered
      rcases hcases with ⟨rfl, result, hresult, rfl⟩ | ⟨child, below, hchild, hbelow, rfl⟩
      · rw [at?_singleton, at?_singleton, hresult]
        cases result with
        | none => rw [Keyed.get?_erase_self hentries]
        | some node => rw [Keyed.get?_put, if_pos rfl]
      · rw [at?_cons, at?_cons, hchild, Keyed.get?_put, if_pos rfl]
        exact ih (hchildren name child hchild) hbelow

/-- A change that yields trees in order keeps the tree in order. -/
theorem ordered_alter (hordered : root.Ordered)
    (hchange : ∀ found node, change found = some (some node) → node.Ordered)
    (h : alter change path root = some changed) : changed.Ordered := by
  induction path generalizing root changed with
  | nil => cases h
  | cons name path ih =>
      obtain ⟨entries, rfl, hcases⟩ := alter_cases h
      rcases hcases with ⟨rfl, result, hresult, rfl⟩ | ⟨child, below, hchild, hbelow, rfl⟩
      · cases result with
        | none => exact ordered_erase hordered
        | some node => exact ordered_put hordered (hchange _ node hresult)
      · have hchildren := (ordered_directory_iff.1 hordered).2
        exact ordered_put hordered (ih (hchildren name child hchild) hbelow)

/-- The change puts a file with the content in place of what is no directory, or takes it away if
there is no content. -/
def Puts (change : Option Node → Option (Option Node)) (content : Option ByteArray) : Prop :=
  ∀ found result, change found = some result → IsLeaf found ∧ result = content.map .file

variable {content : Option ByteArray}

/-- A file, or nothing, is no directory. -/
theorem isLeaf_map_file (content : Option ByteArray) : IsLeaf (content.map .file) := by
  cases content <;> exact fun _ => nofun

/-- A tree stays in order when a file is put in it or taken from it. -/
theorem Puts.ordered_alter (hputs : Puts change content) (hordered : root.Ordered)
    (h : alter change path root = some changed) : changed.Ordered := by
  refine Node.ordered_alter hordered ?_ h
  intro found node hchange
  refine ordered_of_isLeaf ?_
  rw [(hputs found (some node) hchange).2]
  exact isLeaf_map_file content

/-- The first name of a path leads into one of the entries. -/
theorem content?_cons (name : String) (path : List String) (entries : List (String × Node)) :
    (Node.directory entries).content? (name :: path) =
      (Keyed.get? name entries).bind (content? path) := by
  rw [content?, at?_cons]
  cases Keyed.get? name entries <;> rfl

/-- There is no file below what is no directory. -/
theorem bind_content?_of_isLeaf {found : Option Node} (h : IsLeaf found) (name : String)
    (path : List String) : found.bind (content? (name :: path)) = none := by
  cases found with
  | none => rfl
  | some node => rw [Option.bind_some, content?, at?_eq_none_of_isLeaf h]

/-- The files at all other paths keep their contents. -/
theorem Puts.content?_alter_of_ne (hputs : Puts change content) (hordered : root.Ordered)
    (h : alter change path root = some changed) (hne : other ≠ path) :
    changed.content? other = root.content? other := by
  induction path generalizing root changed other with
  | nil => cases h
  | cons name path ih =>
      obtain ⟨entries, rfl, hcases⟩ := alter_cases h
      obtain ⟨hentries, hchildren⟩ := ordered_directory_iff.1 hordered
      cases other with
      | nil => rcases hcases with ⟨-, result, -, rfl⟩ | ⟨child, below, -, -, rfl⟩ <;> rfl
      | cons first others =>
          rcases hcases with ⟨rfl, result, hresult, rfl⟩ | ⟨child, below, hchild, hbelow, rfl⟩
          · rw [content?_cons, content?_cons]
            by_cases hname : first = name
            · subst hname
              -- The other path goes on below the changed name, where no file is or will be.
              cases others with
              | nil => exact absurd rfl hne
              | cons second others =>
                  obtain ⟨hbefore, hput⟩ := hputs _ result hresult
                  have hafter : IsLeaf result := by
                    rw [hput]
                    exact isLeaf_map_file content
                  rw [bind_content?_of_isLeaf hbefore]
                  cases result with
                  | none => rw [Keyed.get?_erase_self hentries, Option.bind_none]
                  | some node =>
                      rw [Keyed.get?_put, if_pos rfl]
                      exact bind_content?_of_isLeaf hafter second others
            · cases result with
              | none => rw [Keyed.get?_erase_of_ne hname]
              | some node => rw [Keyed.get?_put, if_neg (Ne.symm hname)]
          · rw [content?_cons, content?_cons, Keyed.get?_put]
            by_cases hname : name = first
            · subst hname
              rw [if_pos rfl, hchild]
              exact ih (hchildren name child hchild) hbelow fun hothers => hne (hothers ▸ rfl)
            · rw [if_neg hname]

/-- A tree in which the file at one path has another content, or is gone, and all other files are as
they were. -/
structure Replaced (root changed : Node) (path : List String) (content : Option ByteArray) :
    Prop where
  ordered : changed.Ordered
  content?_self : changed.content? path = content
  content?_of_ne : ∀ other, other ≠ path → changed.content? other = root.content? other

/-- A file that is put, or taken away, is the only one that changes. -/
theorem Puts.replaced (hputs : Puts change content) (hordered : root.Ordered)
    (h : alter change path root = some changed) : Replaced root changed path content := by
  refine ⟨hputs.ordered_alter hordered h, ?_, ?_⟩
  · have hresult : changed.at? path = content.map .file := (hputs _ _ (at?_alter hordered h)).2
    rw [content?, hresult]
    cases content <;> rfl
  · intro other hne
    exact hputs.content?_alter_of_ne hordered h hne

/-- A change is carried out if it can change what stands in the directory. -/
theorem exists_alter {directory : List String} {found result : Option Node}
    (hdirectory : root.at? directory = some (.directory entries))
    (hfound : Keyed.get? name entries = found) (hchange : change found = some result) :
    ∃ changed, alter change (directory ++ [name]) root = some changed := by
  induction directory generalizing root with
  | nil =>
      cases hdirectory
      rw [List.nil_append, alter, hfound, hchange]
      exact ⟨_, rfl⟩
  | cons first rest ih =>
      cases root with
      | file | deadLink => cases hdirectory
      | directory others =>
          obtain ⟨child, hchild, hbelow⟩ := Option.bind_eq_some_iff.1 hdirectory
          obtain ⟨changed, hchanged⟩ := ih hbelow
          refine ⟨.directory (Keyed.put first changed others), ?_⟩
          cases hrest : rest ++ [name] with
          | nil => exact absurd hrest (List.concat_ne_nil name rest)
          | cons next path =>
              rw [hrest] at hchanged
              rw [List.cons_append, hrest, alter, hchild]
              · simp only [Option.bind_eq_bind, Option.bind_some, hchanged]
              · exact nofun

end Alter

/-! ## New directories -/

/-- Making directories makes them below one child of the directory, which is new if there was
none. -/
theorem makeDirectories_cons
    (h : (Node.directory entries).makeDirectories (name :: path) = some changed) :
    ∃ below, ((Keyed.get? name entries).getD (.directory [])).makeDirectories path = some below ∧
      changed = .directory (Keyed.put name below entries) := by
  rw [makeDirectories] at h
  cases hfound : Keyed.get? name entries with
  | none =>
      simp only [hfound] at h
      split at h
      · obtain ⟨below, hbelow, hchanged⟩ := Option.map_eq_some_iff.1 h
        exact ⟨below, hbelow, hchanged.symm⟩
      · cases h
  | some child =>
      simp only [hfound] at h
      obtain ⟨below, hbelow, hchanged⟩ := Option.map_eq_some_iff.1 h
      exact ⟨below, hbelow, hchanged.symm⟩

/-- Directories are made below directories only. -/
theorem exists_directory_of_makeDirectories (h : root.makeDirectories path = some changed) :
    ∃ entries, root = .directory entries := by
  cases root with
  | directory entries => exact ⟨entries, rfl⟩
  | file | deadLink => cases path <;> cases h

/-- The directory without entries is in order. -/
theorem ordered_emptyDirectory : (Node.directory []).Ordered :=
  ordered_directory_iff.2 ⟨List.Pairwise.nil, fun _ _ hchild => nomatch hchild⟩

/-- The directory without entries has no files. -/
theorem content?_emptyDirectory (path : List String) :
    (Node.directory []).content? path = none := by
  cases path <;> rfl

/-- A tree stays in order when directories are made. -/
theorem ordered_makeDirectories (hordered : root.Ordered)
    (h : root.makeDirectories path = some changed) : changed.Ordered := by
  induction path generalizing root changed with
  | nil =>
      obtain ⟨entries, rfl⟩ := exists_directory_of_makeDirectories h
      cases h
      exact hordered
  | cons name path ih =>
      obtain ⟨entries, rfl⟩ := exists_directory_of_makeDirectories h
      obtain ⟨below, hbelow, rfl⟩ := makeDirectories_cons h
      refine ordered_put hordered (ih ?_ hbelow)
      cases hfound : Keyed.get? name entries with
      | none => exact ordered_emptyDirectory
      | some child => exact (ordered_directory_iff.1 hordered).2 name child hfound

/-- New directories change no content. -/
theorem content?_makeDirectories (h : root.makeDirectories path = some changed)
    (other : List String) : changed.content? other = root.content? other := by
  induction path generalizing root changed other with
  | nil =>
      obtain ⟨entries, rfl⟩ := exists_directory_of_makeDirectories h
      cases h
      rfl
  | cons name path ih =>
      obtain ⟨entries, rfl⟩ := exists_directory_of_makeDirectories h
      obtain ⟨below, hbelow, rfl⟩ := makeDirectories_cons h
      cases other with
      | nil => rfl
      | cons first others =>
          rw [content?_cons, content?_cons, Keyed.get?_put]
          by_cases hname : name = first
          · subst hname
            rw [if_pos rfl, Option.bind_some, ih hbelow]
            cases Keyed.get? name entries with
            | none => exact content?_emptyDirectory others
            | some child => rfl
          · rw [if_neg hname]

/-! ## Files -/

variable {content : ByteArray}

/-- Writing a file leaves it with the content. -/
theorem replaced_write (hordered : root.Ordered) (h : root.write? path content = some changed) :
    Replaced root changed path (some content) := by
  refine Puts.replaced (fun found result hresult => ?_) hordered h
  rcases found with _ | _ | _ | _
  · obtain ⟨-, hfile⟩ := Option.ite_none_right_eq_some.1 hresult
    exact ⟨fun _ => nofun, (Option.some.inj hfile).symm⟩
  · exact ⟨fun _ => nofun, (Option.some.inj hresult).symm⟩
  · cases hresult
  · cases hresult

/-- Making a file leaves it empty. -/
theorem replaced_create (hordered : root.Ordered) (h : root.create? path = some changed) :
    Replaced root changed path (some .empty) := by
  refine Puts.replaced (fun found result hresult => ?_) hordered h
  cases found with
  | none =>
      obtain ⟨-, hfile⟩ := Option.ite_none_right_eq_some.1 hresult
      exact ⟨fun _ => nofun, (Option.some.inj hfile).symm⟩
  | some node => cases hresult

/-- Removing a file leaves none. -/
theorem replaced_remove (hordered : root.Ordered) (h : root.remove? path = some changed) :
    Replaced root changed path none := by
  refine Puts.replaced (fun found result hresult => ?_) hordered h
  rcases found with _ | _ | _ | _
  · cases hresult
  · exact ⟨fun _ => nofun, (Option.some.inj hresult).symm⟩
  · cases hresult
  · exact ⟨fun _ => nofun, (Option.some.inj hresult).symm⟩

/-- Moving a file leaves its content at the target and nothing where it was. -/
theorem replaced_rename {source target : List String} (hordered : root.Ordered)
    (h : root.rename? source target = some changed) :
    ∃ content middle, root.content? source = some content ∧
      Replaced root middle target (some content) ∧ Replaced middle changed source none := by
  simp only [rename?, Option.bind_eq_bind, Option.bind_eq_some_iff] at h
  obtain ⟨content, hcontent, middle, hmiddle, hremove⟩ := h
  have htarget : Replaced root middle target (some content) := by
    refine Puts.replaced (fun found result hresult => ?_) hordered hmiddle
    rcases found with _ | _ | _ | _
    · obtain ⟨-, hfile⟩ := Option.ite_none_right_eq_some.1 hresult
      exact ⟨fun _ => nofun, (Option.some.inj hfile).symm⟩
    · exact ⟨fun _ => nofun, (Option.some.inj hresult).symm⟩
    · cases hresult
    · exact ⟨fun _ => nofun, (Option.some.inj hresult).symm⟩
  exact ⟨content, middle, hcontent, htarget, replaced_remove htarget.ordered hremove⟩

/-- A file that is there can be removed. -/
theorem exists_remove {directory : List String}
    (h : root.content? (directory ++ [name]) = some content) :
    ∃ changed, root.remove? (directory ++ [name]) = some changed := by
  obtain ⟨entries, hdirectory, hfound⟩ := exists_directory_of_content? h
  exact exists_alter hdirectory hfound rfl

/-! ## Trees with the same files -/

/-- A tree in which all files are as they were. -/
structure Unchanged (root changed : Node) : Prop where
  ordered : changed.Ordered
  content?_eq : ∀ path, changed.content? path = root.content? path

/-- In a tree with the same files, any file has been replaced by itself. -/
theorem Unchanged.replaced (h : Unchanged root changed) (path : List String) :
    Replaced root changed path (root.content? path) :=
  ⟨h.ordered, h.content?_eq path, fun other _ => h.content?_eq other⟩

/-- Files that stay as they are twice stay as they are. -/
theorem Unchanged.trans {middle : Node} (hfirst : Unchanged root middle)
    (hsecond : Unchanged middle changed) : Unchanged root changed :=
  ⟨hsecond.ordered, fun path => (hsecond.content?_eq path).trans (hfirst.content?_eq path)⟩

/-- A file that is replaced after nothing has changed is replaced. -/
theorem Unchanged.replaced_of_replaced {middle : Node} {content : Option ByteArray}
    (hsame : Unchanged root middle) (h : Replaced middle changed path content) :
    Replaced root changed path content := by
  refine ⟨h.ordered, h.content?_self, fun other hne => ?_⟩
  rw [h.content?_of_ne other hne, hsame.content?_eq]

/-- A file that is made where none is and removed again leaves all as it was. -/
theorem Replaced.unchanged {middle : Node} {first : Option ByteArray}
    (hmade : Replaced root middle path first) (hremoved : Replaced middle changed path none)
    (hnone : root.content? path = none) : Unchanged root changed := by
  refine ⟨hremoved.ordered, fun other => ?_⟩
  by_cases hother : other = path
  · rw [hother, hremoved.content?_self, hnone]
  · rw [hremoved.content?_of_ne other hother, hmade.content?_of_ne other hother]

/-- Of two contents that are given to a file the second one stays. -/
theorem Replaced.trans {middle : Node} {first second : Option ByteArray}
    (hfirst : Replaced root middle path first) (hsecond : Replaced middle changed path second) :
    Replaced root changed path second := by
  refine ⟨hsecond.ordered, hsecond.content?_self, fun other hne => ?_⟩
  rw [hsecond.content?_of_ne other hne, hfirst.content?_of_ne other hne]

/-- A file that is made where none is and moved to a target leaves its content there and nothing
where it was. -/
theorem Replaced.moved {written : Node} {source target : List String}
    (hwritten : Replaced root written source (some content)) (hnone : root.content? source = none)
    (hne : target ≠ source) (h : written.rename? source target = some changed) :
    Replaced root changed target (some content) := by
  obtain ⟨moved, middle, hmoved, htarget, hgone⟩ := replaced_rename hwritten.ordered h
  obtain rfl : content = moved := Option.some.inj (hwritten.content?_self.symm.trans hmoved)
  refine ⟨hgone.ordered, ?_, fun other hother => ?_⟩
  · rw [hgone.content?_of_ne target hne, htarget.content?_self]
  · by_cases hsource : other = source
    · rw [hsource, hgone.content?_self, hnone]
    · rw [hgone.content?_of_ne other hsource, htarget.content?_of_ne other hother,
        hwritten.content?_of_ne other hsource]

end ApiCatalog.Node
