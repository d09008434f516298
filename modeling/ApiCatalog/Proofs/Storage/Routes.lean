import ApiCatalog.Proofs.Storage.Kinds
import ApiCatalog.Storage.Route

/-!
# Writing at the end of a route

Where a route leads depends on the directories of the tree alone (`Route.locate?_congr`). A file
that is written is seen at its path only (`Node.kind?_write_of_ne`), so it does not turn aside the
route at whose end it is written. `Route.writeBelow?_spec` says what a write along a route comes to:
the route leads to the file then, and whatever is written at its end afterwards takes the place of
the content and changes nothing else.
-/

namespace ApiCatalog

/-! ## Files and directories -/

namespace Node

variable {root changed : Node} {name : String} {path place : List String} {content old : ByteArray}

/-- Nothing but a file is written over. -/
theorem kind?_of_write (h : root.write? path content = some changed) :
    root.kind? path = none ∨ ∃ old, root.kind? path = some (.file old) := by
  obtain ⟨result, hresult, -⟩ := at?_alter_of_put h
  split at hresult
  next hnone => exact .inl (kind?_eq_none_iff.2 hnone)
  next old hfile => exact .inr ⟨old, kind?_eq_file_iff.2 hfile⟩
  next => cases hresult

/-- A directory is not written over. -/
theorem kind?_ne_directory_of_write (h : root.write? path content = some changed) :
    root.kind? path ≠ some .directory := by
  rcases kind?_of_write h with hnone | ⟨old, hfile⟩
  · rw [hnone]
    exact nofun
  · rw [hfile]
    exact nofun

/-- Below what is no directory nothing is seen. -/
theorem kind?_below_eq_none (h : root.kind? path ≠ some .directory) (name : String)
    (rest : List String) : root.kind? (path ++ name :: rest) = none := by
  cases hkind : root.kind? (path ++ name :: rest) with
  | none => rfl
  | some kind =>
      have hdirectory := kind?_of_prefix hkind
      exact absurd hdirectory h

/-- A file that is written is seen at its path only. -/
theorem kind?_write_of_ne (h : root.write? path content = some changed) (hne : place ≠ path) :
    changed.kind? place = root.kind? place := by
  by_cases hbelow : path <+: place
  · obtain ⟨below, rfl⟩ := hbelow
    cases below with
    | nil => exact absurd (List.append_nil path) hne
    | cons name rest =>
        have hafter : changed.kind? path ≠ some .directory := by
          rw [kind?_write_self h]
          exact nofun
        rw [kind?_below_eq_none hafter, kind?_below_eq_none (kind?_ne_directory_of_write h)]
  · exact sameApart_alter h place hbelow

/-- The directories are the same after a file was written. -/
theorem isDirectory_write (h : root.write? path content = some changed) (place : List String) :
    changed.isDirectory place = root.isDirectory place := by
  rw [Bool.eq_iff_iff, isDirectory_eq_true_iff, isDirectory_eq_true_iff]
  by_cases hplace : place = path
  · subst hplace
    rw [kind?_write_self h]
    exact iff_of_false nofun (kind?_ne_directory_of_write h)
  · rw [kind?_write_of_ne h hplace]

/-- Whether a file can be written does not depend on the content. -/
theorem exists_write (h : root.write? path old = some changed) (content : ByteArray) :
    ∃ changed, root.write? path content = some changed := by
  rcases List.eq_nil_or_concat' path with rfl | ⟨directory, name, rfl⟩
  · cases h
  · obtain ⟨hdirectory, result, hresult⟩ := exists_alter_iff.1 ⟨changed, h⟩
    refine exists_alter_iff.2 ⟨hdirectory, ?_⟩
    split at hresult
    next => exact ⟨_, if_pos (Option.ite_none_right_eq_some.1 hresult).1⟩
    next => exact ⟨_, rfl⟩
    next => cases hresult

/-- A file can be written over where it is seen. -/
theorem exists_write_over (hne : path ≠ []) (h : root.kind? path = some (.file old))
    (content : ByteArray) : ∃ changed, root.write? path content = some changed := by
  obtain ⟨directory, name, rfl⟩ := (List.eq_nil_or_concat' path).resolve_left hne
  have hdirectory := kind?_of_prefix h
  refine exists_alter_iff.2 ⟨hdirectory, some (.file content), ?_⟩
  rw [kind?_eq_file_iff.1 h]

/-- A directory can be made where one is, and nothing else is seen then. -/
theorem exists_makeDirectories (h : root.kind? path = some .directory) :
    ∃ changed, root.makeDirectories path = some changed ∧
      ∀ place, changed.kind? place = root.kind? place := by
  have hmake : ∃ changed, root.makeDirectories path = some changed := by
    induction path generalizing root with
    | nil =>
        obtain ⟨entries, hroot⟩ := kind?_eq_directory_iff.1 h
        cases hroot
        exact ⟨_, rfl⟩
    | cons name path ih =>
        have hhere : root.kind? [] = some .directory := kind?_of_prefix h
        obtain ⟨entries, hroot⟩ := kind?_eq_directory_iff.1 hhere
        cases hroot
        rw [kind?_cons, Option.bind_eq_some_iff] at h
        obtain ⟨child, hchild, hbelow⟩ := h
        obtain ⟨changed, hchanged⟩ := ih hbelow
        refine ⟨.directory (Keyed.put name changed entries), ?_⟩
        simp only [makeDirectories, hchild, hchanged, Option.map_some]
  obtain ⟨changed, hchanged⟩ := hmake
  refine ⟨changed, hchanged, fun place => ?_⟩
  rw [kind?_makeDirectories hchanged]
  split
  next hplace =>
    obtain ⟨below, rfl⟩ := hplace
    cases below with
    | nil =>
        rw [List.append_nil] at h
        exact h.symm
    | cons name rest =>
        have hdirectory := kind?_of_prefix h
        exact hdirectory.symm
  next => rfl

end Node

namespace Route

variable {root changed made : Node} {r : Route} {here place : List String} {content : ByteArray}

/-! ## Where a route leads -/

/-- Trees with the same directories are walked through alike. -/
theorem follow_congr (h : ∀ place, changed.isDirectory place = root.isDirectory place)
    (here segments : List String) : follow changed here segments = follow root here segments := by
  induction segments generalizing here with
  | nil => rfl
  | cons segment rest ih => rw [follow, follow, h here, ih, ih, ih]

/-- Where a route leads depends on the directories alone. -/
theorem locate?_congr (h : ∀ place, changed.isDirectory place = root.isDirectory place)
    (r : Route) : r.locate? changed = r.locate? root := by
  rw [locate?, locate?, follow_congr h]

/-! ## The directories along a route -/

/-- No directory is taken away. -/
theorem make_keeps {segments : List String} (h : make here segments root = some made)
    (hplace : root.kind? place = some .directory) : made.kind? place = some .directory := by
  induction segments generalizing here root with
  | nil =>
      cases h
      exact hplace
  | cons segment rest ih =>
      rw [make] at h
      split at h
      next => exact ih h hplace
      next =>
        split at h
        next => exact ih h hplace
        next =>
          obtain ⟨middle, hmiddle, hrest⟩ := Option.bind_eq_some_iff.1 h
          refine ih hrest ?_
          rw [Node.kind?_makeDirectories hmiddle, hplace, ite_self]

/-- Where the directories along a route were made they can be made again, and nothing is changed
then. -/
theorem make_again {segments : List String} (h : make here segments root = some made)
    (hkept : ∀ place, made.kind? place = some .directory → changed.kind? place = some .directory) :
    ∃ again, make here segments changed = some again ∧
      ∀ place, again.kind? place = changed.kind? place := by
  induction segments generalizing here root changed with
  | nil => exact ⟨changed, rfl, fun _ => rfl⟩
  | cons segment rest ih =>
      rw [make] at h ⊢
      split at h
      next hidle =>
        rw [if_pos hidle]
        exact ih h hkept
      next hidle =>
        rw [if_neg hidle]
        split at h
        next hupward =>
          rw [if_pos hupward]
          exact ih h hkept
        next hupward =>
          rw [if_neg hupward]
          obtain ⟨middle, hmiddle, hrest⟩ := Option.bind_eq_some_iff.1 h
          have hmade : middle.kind? (here ++ [segment]) = some .directory := by
            rw [Node.kind?_makeDirectories hmiddle, if_pos (List.prefix_refl _)]
          obtain ⟨next, hnext, hsame⟩ :=
            Node.exists_makeDirectories (hkept _ (make_keeps hrest hmade))
          obtain ⟨again, hagain, hkind⟩ := ih hrest fun place hplace =>
            (hsame place).trans (hkept place hplace)
          exact ⟨again, by rw [hnext]; exact hagain, fun place => (hkind place).trans (hsame place)⟩

/-- Where directories were made and are still there, they are made again without a change. -/
theorem makeDirectories?_again (h : r.makeDirectories? root = some made)
    (hkept : ∀ place, made.kind? place = some .directory → changed.kind? place = some .directory) :
    ∃ again, r.makeDirectories? changed = some again ∧
      ∀ place, again.kind? place = changed.kind? place := by
  rw [makeDirectories?] at h ⊢
  split at h
  next hempty =>
    rw [if_pos hempty]
    exact ⟨changed, rfl, fun _ => rfl⟩
  next hempty =>
    obtain ⟨husable, h⟩ := Option.ite_none_right_eq_some.1 h
    rw [if_neg hempty, if_pos husable]
    exact make_again h hkept

/-! ## Files at the end of a route -/

/-- A file is written where a route leads, if it ends in a name. -/
theorem write?_eq_some_iff :
    r.write? content root = some changed ↔
      r.endsInName = true ∧ ∃ place, r.locate? root = some place ∧
        root.write? place content = some changed := by
  rw [write?]
  cases r.endsInName with
  | false => simp [guard]
  | true => simp [guard, Option.bind_eq_some_iff]

/-- Something can be written at the end of the route, with the directories above it made before. -/
def IsWritable (r : Route) (root : Node) : Prop :=
  ∃ content changed, r.writeBelow? content root = some changed

/-- Whether something can be written does not depend on what it is. -/
theorem IsWritable.exists_writeBelow? (h : r.IsWritable root) (content : ByteArray) :
    ∃ changed, r.writeBelow? content root = some changed := by
  obtain ⟨old, changed, h⟩ := h
  obtain ⟨made, hmade, hwritten⟩ := Option.bind_eq_some_iff.1 h
  obtain ⟨hends, place, hplace, hfile⟩ := write?_eq_some_iff.1 hwritten
  obtain ⟨other, hother⟩ := Node.exists_write hfile content
  exact ⟨other, Option.bind_eq_some_iff.2
    ⟨made, hmade, write?_eq_some_iff.2 ⟨hends, place, hplace, hother⟩⟩⟩

/-- The file at the end of the route has the content, and what is written there again takes its
place and changes nothing else. -/
structure Holds (r : Route) (root : Node) (place : List String) (content : ByteArray) : Prop where
  locate : r.locate? root = some place
  file : root.kind? place = some (.file content)
  again : ∀ other, ∃ changed, r.writeBelow? other root = some changed ∧
    r.locate? changed = some place ∧ changed.kind? place = some (.file other) ∧
    ∀ elsewhere, elsewhere ≠ place → changed.kind? elsewhere = root.kind? elsewhere

/-- What is written at the end of a route is there. -/
theorem writeBelow?_spec (h : r.writeBelow? content root = some changed) :
    ∃ place, r.Holds changed place content := by
  obtain ⟨made, hmade, hwritten⟩ := Option.bind_eq_some_iff.1 h
  obtain ⟨hends, place, hplace, hfile⟩ := write?_eq_some_iff.1 hwritten
  have hself := Node.kind?_write_self hfile
  have hne : place ≠ [] := by
    rintro rfl
    cases hfile
  have hdirectories := Node.isDirectory_write hfile
  have hlocate : r.locate? changed = some place := (locate?_congr hdirectories r).trans hplace
  refine ⟨place, hlocate, hself, fun other => ?_⟩
  obtain ⟨middle, hmiddle, hsame⟩ := makeDirectories?_again hmade fun directory hdirectory => by
    rw [← Node.isDirectory_eq_true_iff, hdirectories, Node.isDirectory_eq_true_iff]
    exact hdirectory
  obtain ⟨again, hagain⟩ := Node.exists_write_over hne ((hsame place).trans hself) other
  have hmiddleLocate : r.locate? middle = some place := by
    rw [← hlocate]
    refine locate?_congr (fun directory => ?_) r
    rw [Bool.eq_iff_iff, Node.isDirectory_eq_true_iff, Node.isDirectory_eq_true_iff,
      hsame directory]
  refine ⟨again, Option.bind_eq_some_iff.2 ⟨middle, hmiddle,
    write?_eq_some_iff.2 ⟨hends, place, hmiddleLocate, hagain⟩⟩,
    (locate?_congr (Node.isDirectory_write hagain) r).trans hmiddleLocate,
    Node.kind?_write_self hagain, fun elsewhere helsewhere => ?_⟩
  rw [Node.kind?_write_of_ne hagain helsewhere, hsame]

end Route

end ApiCatalog
