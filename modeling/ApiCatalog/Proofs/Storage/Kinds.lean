import ApiCatalog.Proofs.Storage.Listing

/-!
# What stands where

`Node.kind?` is what can be seen at a path without looking into directories: a file with its
content, a directory, or a link that leads nowhere. A change at a path is seen at that path and
below it only (`sameApart_alter`), and new directories are seen at the paths that lead to them and
nowhere else (`kind?_makeDirectories`). What an operation does depends on what it sees
(`exists_alter_iff`), so a tree in which the same is seen at the paths of an operation is as good as
another one.
-/

namespace ApiCatalog.Node

/-- What stands at a place, without the entries of a directory. -/
inductive Kind where
  | file (content : ByteArray)
  | directory
  | deadLink

/-- What stands at the root of a tree. -/
def kind : Node → Kind
  | .file content => .file content
  | .directory _ => .directory
  | .deadLink => .deadLink

/-- What stands at a path. -/
def kind? (path : List String) (root : Node) : Option Kind := (root.at? path).map kind

variable {root changed other : Node} {name : String} {path place : List String}
  {entries : List (String × Node)}

/-- The first name of a path leads into one of the entries. -/
theorem kind?_cons (name : String) (path : List String) (entries : List (String × Node)) :
    (Node.directory entries).kind? (name :: path) =
      (Keyed.get? name entries).bind (kind? path) := by
  rw [kind?, at?_cons]
  cases Keyed.get? name entries <;> rfl

/-- Nothing is seen exactly where nothing stands. -/
theorem kind?_eq_none_iff : root.kind? path = none ↔ root.at? path = none := Option.map_eq_none_iff

/-- A file is seen exactly where it stands. -/
theorem kind?_eq_file_iff {content : ByteArray} :
    root.kind? path = some (.file content) ↔ root.at? path = some (.file content) := by
  rw [kind?, Option.map_eq_some_iff]
  constructor
  · rintro ⟨node, hnode, hkind⟩
    cases node <;> cases hkind
    exact hnode
  · exact fun h => ⟨_, h, rfl⟩

/-- A directory is seen exactly where one stands. -/
theorem kind?_eq_directory_iff :
    root.kind? path = some .directory ↔ ∃ entries, root.at? path = some (.directory entries) := by
  rw [kind?, Option.map_eq_some_iff]
  constructor
  · rintro ⟨node, hnode, hkind⟩
    cases node <;> cases hkind
    exact ⟨_, hnode⟩
  · exact fun ⟨entries, h⟩ => ⟨_, h, rfl⟩

/-- There is a content exactly where a file with it is seen. -/
theorem content?_eq_some_iff {content : ByteArray} :
    root.content? path = some content ↔ root.kind? path = some (.file content) := by
  rw [content?, kind?]
  cases root.at? path with
  | none => simp
  | some node => cases node <;> simp [kind]

/-- A directory stands exactly where one is seen. -/
theorem isDirectory_eq_true_iff :
    root.isDirectory path = true ↔ root.kind? path = some .directory := by
  rw [kind?_eq_directory_iff, isDirectory]
  cases root.at? path with
  | none => exact iff_of_false nofun nofun
  | some node =>
      cases node with
      | directory entries => exact iff_of_true rfl ⟨entries, rfl⟩
      | file | deadLink => exact iff_of_false nofun nofun

/-- Present is what is seen as a directory or a file. -/
theorem isPresent_eq_true_iff :
    root.isPresent path = true ↔
      root.kind? path = some .directory ∨ ∃ content, root.kind? path = some (.file content) := by
  rw [isPresent, kind?]
  cases root.at? path with
  | none => simp
  | some node => cases node <;> simp [kind]

/-- The content of a file is seen. -/
theorem content?_congr (h : root.kind? path = other.kind? path) :
    root.content? path = other.content? path := by
  refine Option.ext fun content => ?_
  rw [content?_eq_some_iff, content?_eq_some_iff, h]

/-- It is seen whether anything is there. -/
theorem isPresent_congr (h : root.kind? path = other.kind? path) :
    root.isPresent path = other.isPresent path := by
  rw [Bool.eq_iff_iff, isPresent_eq_true_iff, isPresent_eq_true_iff, h]

/-- What is seen of something. -/
def Kind.standing : Kind → Standing
  | .file _ => .file
  | .directory => .directory
  | .deadLink => .deadLink

/-- What is seen at a place does not depend on the content of files. -/
theorem standing_eq (path : List String) (root : Node) :
    root.standing path = (root.kind? path).elim .nothing Kind.standing := by
  rw [standing, kind?]
  cases root.at? path with
  | none => rfl
  | some node => cases node <;> rfl

/-- A directory is seen as such. -/
theorem standing_eq_directory_iff :
    root.standing path = .directory ↔ root.kind? path = some .directory := by
  rw [standing_eq]
  cases root.kind? path with
  | none => simp
  | some kind => cases kind <;> simp [Kind.standing]

/-- It is seen where nothing is. -/
theorem standing_eq_nothing_iff : root.standing path = .nothing ↔ root.kind? path = none := by
  rw [standing_eq]
  cases root.kind? path with
  | none => simp
  | some kind => cases kind <;> simp [Kind.standing]

/-- A file is seen as such. -/
theorem standing_eq_file_iff :
    root.standing path = .file ↔ ∃ content, root.kind? path = some (.file content) := by
  rw [standing_eq]
  cases root.kind? path with
  | none => simp
  | some kind => cases kind <;> simp [Kind.standing]

/-- Above something that is there stand directories. -/
theorem kind?_of_prefix {kind : Kind} (h : root.kind? (path ++ name :: place) = some kind) :
    root.kind? path = some .directory := by
  rw [kind?, at?_append] at h
  rw [kind?_eq_directory_iff]
  cases hfound : root.at? path with
  | none =>
      rw [hfound] at h
      cases h
  | some node =>
      cases node with
      | directory entries => exact ⟨entries, rfl⟩
      | file | deadLink =>
          rw [hfound] at h
          cases h

/-- What is seen in a directory is seen at its entries. -/
theorem kind?_below (directory : List String) (name : String) (place : List String)
    (root : Node) :
    root.kind? (directory ++ name :: place) =
      (Keyed.get? name (root.entriesAt directory)).bind (kind? place) := by
  rw [kind?, List.append_cons, at?_append, at?_concat]
  cases Keyed.get? name (root.entriesAt directory) <;> rfl

/-! ## Changes at one path -/

/-- In the two trees the same is seen wherever the path does not lead. -/
def SameApart (path : List String) (root changed : Node) : Prop :=
  ∀ place, ¬ path <+: place → changed.kind? place = root.kind? place

/-- A tree is the same as itself apart from any path. -/
theorem SameApart.refl (path : List String) (root : Node) : SameApart path root root :=
  fun _ _ => rfl

/-- Changes at one path, one after the other, are a change at this path. -/
theorem SameApart.trans {middle : Node} (hfirst : SameApart path root middle)
    (hsecond : SameApart path middle changed) : SameApart path root changed := fun place hplace =>
  (hsecond place hplace).trans (hfirst place hplace)

section Alter

variable {change : Option Node → Option (Option Node)}

/-- A change is seen at its path and below it only. -/
theorem sameApart_alter (h : alter change path root = some changed) :
    SameApart path root changed := by
  intro place hplace
  induction path generalizing root changed place with
  | nil => cases h
  | cons name path ih =>
      obtain ⟨entries, rfl, hcases⟩ := alter_cases h
      cases place with
      | nil => rcases hcases with ⟨-, result, -, rfl⟩ | ⟨child, below, -, -, rfl⟩ <;> rfl
      | cons first rest =>
          rw [List.cons_prefix_cons] at hplace
          rcases hcases with ⟨rfl, result, hresult, rfl⟩ | ⟨child, below, hchild, hbelow, rfl⟩
          · have hname : name ≠ first := fun h => hplace ⟨h, List.nil_prefix⟩
            rw [kind?_cons]
            cases result with
            | none => rw [kind?_cons, Keyed.get?_erase_of_ne (Ne.symm hname)]
            | some node => rw [kind?_cons, Keyed.get?_put, if_neg hname]
          · rw [kind?_cons, kind?_cons, Keyed.get?_put]
            by_cases hname : name = first
            · subst hname
              rw [if_pos rfl, hchild]
              exact ih hbelow rest fun hrest => hplace ⟨rfl, hrest⟩
            · rw [if_neg hname]

/-- A node that a change puts at its path stands there. -/
theorem at?_alter_of_put (h : alter change path root = some changed) :
    ∃ result, change (root.at? path) = some result ∧
      ∀ node, result = some node → changed.at? path = some node := by
  induction path generalizing root changed with
  | nil => cases h
  | cons name path ih =>
      obtain ⟨entries, rfl, hcases⟩ := alter_cases h
      rcases hcases with ⟨rfl, result, hresult, rfl⟩ | ⟨child, below, hchild, hbelow, rfl⟩
      · refine ⟨result, by rw [at?_singleton, hresult], ?_⟩
        rintro node rfl
        rw [at?_singleton, Keyed.get?_put, if_pos rfl]
      · obtain ⟨result, hresult, hput⟩ := ih hbelow
        refine ⟨result, by rw [at?_cons, hchild, Option.bind_some, hresult], fun node hnode => ?_⟩
        rw [at?_cons, Keyed.get?_put, if_pos rfl, Option.bind_some, hput node hnode]

/-- A change is carried out exactly if it stands in a directory and can change what is there. -/
theorem exists_alter_iff {directory : List String} :
    (∃ changed, alter change (directory ++ [name]) root = some changed) ↔
      root.kind? directory = some .directory ∧
        ∃ result, change (root.at? (directory ++ [name])) = some result := by
  constructor
  · rintro ⟨changed, h⟩
    refine ⟨?_, (at?_alter_of_put h).imp fun _ => And.left⟩
    induction directory generalizing root changed with
    | nil =>
        obtain ⟨entries, rfl, -⟩ := alter_cases h
        rfl
    | cons first rest ih =>
        obtain ⟨entries, rfl, hcases⟩ := alter_cases h
        rcases hcases with ⟨hnil, -⟩ | ⟨child, below, hchild, hbelow, -⟩
        · exact absurd hnil (List.concat_ne_nil _ rest)
        · rw [kind?_cons, hchild]
          exact ih below hbelow
  · rintro ⟨hdirectory, result, hresult⟩
    obtain ⟨entries, hentries⟩ := kind?_eq_directory_iff.1 hdirectory
    rw [at?_append_singleton hentries] at hresult
    exact exists_alter hentries rfl hresult

end Alter

/-! ## New directories -/

/-- New directories are seen at the paths that lead to them and nowhere else. -/
theorem kind?_makeDirectories (h : root.makeDirectories path = some changed)
    (place : List String) :
    changed.kind? place = if place <+: path then some .directory else root.kind? place := by
  induction path generalizing root changed place with
  | nil =>
      obtain ⟨entries, rfl⟩ := exists_directory_of_makeDirectories h
      cases h
      cases place with
      | nil => rfl
      | cons first rest => rw [if_neg (by simp)]
  | cons name path ih =>
      obtain ⟨entries, rfl⟩ := exists_directory_of_makeDirectories h
      obtain ⟨below, hbelow, rfl⟩ := makeDirectories_cons h
      cases place with
      | nil => rw [if_pos List.nil_prefix]; rfl
      | cons first rest =>
          rw [kind?_cons, Keyed.get?_put]
          by_cases hname : name = first
          · subst hname
            rw [if_pos rfl, Option.bind_some, ih hbelow, kind?_cons]
            simp only [List.cons_prefix_cons, true_and]
            split
            next => rfl
            next hrest =>
              cases Keyed.get? name entries with
              | some child => rfl
              | none =>
                  -- Below a directory that is new there is nothing.
                  cases rest with
                  | nil => exact absurd List.nil_prefix hrest
                  | cons next rest => rfl
          · have hplace : ¬ first :: rest <+: name :: path := by
              rw [List.cons_prefix_cons]
              exact fun h => hname h.1.symm
            rw [if_neg hname, if_neg hplace, kind?_cons]

/-- At the place the same is seen, or a directory where nothing was. -/
def Grown (place : List String) (root changed : Node) : Prop :=
  changed.kind? place = root.kind? place ∨
    root.kind? place = none ∧ changed.kind? place = some .directory

/-- What has grown twice at a place has grown there. -/
theorem Grown.trans {middle : Node} (hfirst : Grown place root middle)
    (hsecond : Grown place middle changed) : Grown place root changed := by
  rcases hfirst with hfirst | ⟨hnone, hfirst⟩
  · rcases hsecond with hsecond | ⟨hnone, hsecond⟩
    · exact .inl (hsecond.trans hfirst)
    · exact .inr ⟨hfirst.symm.trans hnone, hsecond⟩
  · rcases hsecond with hsecond | ⟨-, hsecond⟩
    · exact .inr ⟨hnone, hsecond.trans hfirst⟩
    · exact .inr ⟨hnone, hsecond⟩

/-- Nothing but directories is on the way to new directories. -/
theorem kind?_of_makeDirectories (h : root.makeDirectories path = some changed)
    (hplace : place <+: path) :
    root.kind? place = none ∨ root.kind? place = some .directory := by
  induction path generalizing root changed place with
  | nil =>
      obtain ⟨entries, rfl⟩ := exists_directory_of_makeDirectories h
      rw [List.prefix_nil.1 hplace]
      exact .inr rfl
  | cons name path ih =>
      obtain ⟨entries, rfl⟩ := exists_directory_of_makeDirectories h
      obtain ⟨below, hbelow, -⟩ := makeDirectories_cons h
      cases place with
      | nil => exact .inr rfl
      | cons first rest =>
          obtain ⟨rfl, hrest⟩ := List.cons_prefix_cons.1 hplace
          have hkind := ih hbelow hrest
          rw [kind?_cons]
          cases hfound : Keyed.get? first entries with
          | none => exact .inl rfl
          | some child =>
              rw [hfound] at hkind
              exact hkind

/-- Where nothing was there may be a new directory, and all else is as it was. -/
theorem grown_makeDirectories (h : root.makeDirectories path = some changed)
    (place : List String) : Grown place root changed := by
  have hkind := kind?_makeDirectories h place
  split at hkind
  next hplace =>
    rcases kind?_of_makeDirectories h hplace with hnone | hdirectory
    · exact .inr ⟨hnone, hkind⟩
    · exact .inl (hkind.trans hdirectory.symm)
  next => exact .inl hkind

/-- The change takes place from a path on. Elsewhere nothing is new but directories that lead
there. -/
structure Within (path : List String) (root changed : Node) : Prop where
  grown : ∀ place, ¬ path <+: place → Grown place root changed
  apart : ∀ place, ¬ path <+: place → ¬ place <+: path →
    changed.kind? place = root.kind? place

/-- Where nothing changes, nothing changes outside of a path. -/
theorem Within.refl (path : List String) (root : Node) : Within path root root :=
  ⟨fun _ _ => .inl rfl, fun _ _ _ => rfl⟩

/-- Changes from a path on, one after the other, are a change from this path on. -/
theorem Within.trans {middle : Node} (hfirst : Within path root middle)
    (hsecond : Within path middle changed) : Within path root changed :=
  ⟨fun place hplace => (hfirst.grown place hplace).trans (hsecond.grown place hplace),
    fun place hplace haway =>
      (hsecond.apart place hplace haway).trans (hfirst.apart place hplace haway)⟩

/-- A change from a path on is one from any path on that leads there. -/
theorem Within.above (h : Within path root changed) {way : List String}
    (hway : way <+: path) : Within way root changed := by
  have hbefore : ∀ place, ¬ way <+: place → ¬ path <+: place :=
    fun place hplace hpath => hplace (hway.trans hpath)
  refine ⟨fun place hplace => h.grown place (hbefore place hplace), fun place hplace haway => ?_⟩
  refine h.apart place (hbefore place hplace) fun hpath => ?_
  exact (List.prefix_or_prefix_of_prefix hpath hway).elim haway hplace

/-- A change in a directory is one from an entry on, if the other entries are as they were. -/
theorem Within.of_entriesAt {directory : List String} (h : Within directory root changed)
    (hgrown : Grown directory root changed)
    (hentries : ∀ other, other ≠ name → Keyed.get? other (changed.entriesAt directory) =
      Keyed.get? other (root.entriesAt directory)) :
    Within (directory ++ [name]) root changed := by
  have hsame : ∀ place, ¬ directory ++ [name] <+: place → directory <+: place →
      place ≠ directory → changed.kind? place = root.kind? place := by
    rintro _ hplace ⟨rest, rfl⟩ hne
    cases rest with
    | nil => exact absurd (List.append_nil directory) hne
    | cons other rest =>
        have hother : other ≠ name := fun h =>
          hplace ⟨rest, h ▸ (List.append_cons directory other rest).symm⟩
        rw [kind?_below, kind?_below, hentries other hother]
  refine ⟨fun place hplace => ?_, fun place hplace haway => ?_⟩
  · by_cases hin : directory <+: place
    · by_cases heq : place = directory
      · exact heq ▸ hgrown
      · exact .inl (hsame place hplace hin heq)
    · exact h.grown place hin
  · by_cases hin : directory <+: place
    · exact hsame place hplace hin fun heq => haway (heq ▸ List.prefix_append _ _)
    · exact h.apart place hin fun hway => haway (hway.trans (List.prefix_append _ _))

/-- A change at a path is one from this path on. -/
theorem SameApart.within (h : SameApart path root changed) : Within path root changed :=
  ⟨fun place hplace => .inl (h place hplace), fun place hplace _ => h place hplace⟩

/-- The directories that are made lead to what stands below them. -/
theorem within_makeDirectories (h : root.makeDirectories path = some changed) {way : List String}
    (hway : path <+: way) : Within way root changed := by
  refine ⟨fun place _ => grown_makeDirectories h place, fun place _ haway => ?_⟩
  rw [kind?_makeDirectories h, if_neg fun hplace => haway (hplace.trans hway)]

/-- A directory below the root is made if nothing else is in the way. -/
theorem exists_makeDirectories_singleton_iff (hname : isName name = true) :
    (∃ changed, root.makeDirectories [name] = some changed) ↔
      root.kind? [] = some .directory ∧
        (root.kind? [name] = none ∨ root.kind? [name] = some .directory) := by
  cases root with
  | file | deadLink => simp [makeDirectories, kind?, at?, kind]
  | directory entries =>
      rw [makeDirectories, kind?_cons]
      cases Keyed.get? name entries with
      | none =>
          rw [if_pos hname]
          exact iff_of_true ⟨_, rfl⟩ ⟨rfl, .inl rfl⟩
      | some child => cases child <;> simp [makeDirectories, kind?, at?, kind]

/-! ## Files -/

variable {content : ByteArray}

/-- A file that is written stands at its path. -/
theorem kind?_write_self (h : root.write? path content = some changed) :
    changed.kind? path = some (.file content) := by
  obtain ⟨result, hresult, hput⟩ := at?_alter_of_put h
  rw [kind?_eq_file_iff]
  refine hput _ ?_
  split at hresult
  next => exact (Option.some.inj (Option.ite_none_right_eq_some.1 hresult).2).symm
  next => exact (Option.some.inj hresult).symm
  next => cases hresult

/-- A file can be written in a directory, if nothing but a file is in the way. -/
theorem exists_write_iff {directory : List String} (hname : isName name = true) :
    (∃ changed, root.write? (directory ++ [name]) content = some changed) ↔
      root.kind? directory = some .directory ∧
        (root.kind? (directory ++ [name]) = none ∨
          ∃ old, root.kind? (directory ++ [name]) = some (.file old)) := by
  have hends : endsInName (directory ++ [name]) = true := by
    rw [endsInName, List.getLast?_concat]
    exact hname
  rw [write?, exists_alter_iff, kind?_eq_none_iff]
  simp only [kind?_eq_file_iff]
  refine and_congr_right fun _ => ?_
  cases root.at? (directory ++ [name]) with
  | none => exact iff_of_true ⟨_, if_pos hends⟩ (.inl rfl)
  | some node =>
      cases node with
      | file old => exact iff_of_true ⟨_, rfl⟩ (.inr ⟨old, rfl⟩)
      | directory | deadLink =>
          refine iff_of_false nofun ?_
          rintro (h | ⟨old, h⟩) <;> cases h

/-- A directory is not removed. -/
theorem remove?_eq_none_of_directory {directory : List String}
    (h : root.kind? (directory ++ [name]) = some .directory) :
    root.remove? (directory ++ [name]) = none := by
  rw [Option.eq_none_iff_forall_ne_some]
  intro changed hchanged
  obtain ⟨-, result, hresult⟩ := exists_alter_iff.1 ⟨changed, hchanged⟩
  obtain ⟨entries, hentries⟩ := kind?_eq_directory_iff.1 h
  rw [hentries] at hresult
  cases hresult

/-- The file at the source of a move stands at the target afterwards. -/
theorem kind?_rename_target {source target : List String}
    (h : root.rename? source target = some changed)
    (hsource : root.kind? source = some (.file content)) (hapart : ¬ source <+: target) :
    changed.kind? target = some (.file content) := by
  simp only [rename?, Option.bind_eq_bind, Option.bind_eq_some_iff] at h
  obtain ⟨moved, hmoved, middle, hmiddle, hremove⟩ := h
  obtain rfl : content = moved :=
    Option.some.inj ((content?_eq_some_iff.2 hsource).symm.trans hmoved)
  obtain ⟨result, hresult, hput⟩ := at?_alter_of_put hmiddle
  rw [sameApart_alter hremove target hapart, kind?_eq_file_iff]
  refine hput _ ?_
  split at hresult
  next => exact (Option.some.inj (Option.ite_none_right_eq_some.1 hresult).2).symm
  next => cases hresult
  next => exact (Option.some.inj hresult).symm

/-- A move is seen at the source and the target and below them only. -/
theorem kind?_rename {source target : List String} (h : root.rename? source target = some changed)
    (hsource : ¬ source <+: place) (htarget : ¬ target <+: place) :
    changed.kind? place = root.kind? place := by
  simp only [rename?, Option.bind_eq_bind, Option.bind_eq_some_iff] at h
  obtain ⟨_, -, middle, hmiddle, hremove⟩ := h
  rw [sameApart_alter hremove place hsource, sameApart_alter hmiddle place htarget]

end ApiCatalog.Node
