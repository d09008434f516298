import ApiCatalog.Proofs.Cache.Interruption
import ApiCatalog.Proofs.Storage.Kinds

/-!
# What a cache is seen to change

Saving and clearing a context are seen at the file of the context only: the new entry stands there
if the save succeeds, and what stood there before if it fails (`saves_saveRun`). Elsewhere a save
makes directories, those that lead to the file, and all that stands beside it in the directory of
the cache stays as it was. This holds of any tree, also of one whose directories are not in order. A
context can be cleared unless a directory stands in the place of its file (`clear_of_directory`,
`exists_clear_of_ne`).
-/

namespace ApiCatalog.Cache

open Node (SameApart Within)

variable {s : Storage} {base above place : List String} {name context : String}

/-- A place that is not in a directory is not in any of its entries. -/
theorem not_prefix_concat (h : ¬ above <+: place) (name : String) : ¬ above ++ [name] <+: place :=
  fun hplace => h ((List.prefix_append above [name]).trans hplace)

/-- Two names in one directory do not lead through each other. -/
theorem not_prefix_of_ne {other : String} (hne : other ≠ name) :
    ¬ above ++ [other] <+: above ++ [name] := by
  rw [List.prefix_append_right_inj, List.cons_prefix_cons]
  exact fun h => hne h.1

/-- The run puts a file with the content under the name if it succeeds, and leaves what is there if
it fails. Outside the directory nothing is changed. -/
structure Run.ChangesAt (run : Run) (root : Node) (above : List String) (name : String)
    (content : ByteArray) : Prop where
  file : (run.final root).kind? (above ++ [name]) =
    match run.result with
    | .ok () => some (.file content)
    | .error _ => root.kind? (above ++ [name])
  outside : SameApart above root (run.final root)

/-- Whichever steps fail, replacing a file is not seen at the directory or outside of it. -/
theorem Replacing.kind?_final {naming : Naming} {faults : Faults} {content : ByteArray} {run : Run}
    (h : Replacing naming faults s above name content run)
    (hplace : ∀ child, ¬ above ++ [child] <+: place) :
    (run.final s.root).kind? place = s.root.kind? place := by
  cases h with
  | unopened => rfl
  | unwritten fresh created removed hopened _ hremoved =>
      have hmade := Node.sameApart_alter hopened.created
      exact hmade.trans (Node.sameApart_alter hremoved) place (hplace fresh)
  | unmoved fresh created written removed hopened hwritten _ hremoved =>
      have hwrite := (Node.sameApart_alter hopened.created).trans (Node.sameApart_alter hwritten)
      rw [Run.final_of_held hremoved]
      exact hwrite.trans (Node.sameApart_alter hremoved) place (hplace fresh)
  | moved fresh created written replaced hopened hwritten hreplaced =>
      have hwrite := (Node.sameApart_alter hopened.created).trans (Node.sameApart_alter hwritten)
      exact (Node.kind?_rename hreplaced (hplace fresh) (hplace name)).trans
        (hwrite place (hplace fresh))

/-- Whichever steps fail, replacing a file puts the content in its place or changes nothing. The
temporary file is seen in the directory only. -/
theorem Replacing.changesAt {naming : Naming} (hnaming : naming.Fresh) {faults : Faults}
    {content : ByteArray} {run : Run} (h : Replacing naming faults s above name content run)
    (hname : ¬ IsTemporary name) : run.ChangesAt s.root above name content := by
  refine ⟨?_, fun place hplace => h.kind?_final fun child => not_prefix_concat hplace child⟩
  have hne : ∀ {fresh created}, Opened naming s.root above fresh created → fresh ≠ name := by
    rintro fresh created hopened rfl
    exact hname (hnaming.temporary _ fresh hopened.named)
  cases h with
  | unopened => rfl
  | unwritten fresh created removed hopened _ hremoved =>
      have hmade := Node.sameApart_alter hopened.created
      exact hmade.trans (Node.sameApart_alter hremoved) _ (not_prefix_of_ne (hne hopened))
  | unmoved fresh created written removed hopened hwritten _ hremoved =>
      have hwrite := (Node.sameApart_alter hopened.created).trans (Node.sameApart_alter hwritten)
      rw [Run.final_of_held hremoved]
      exact hwrite.trans (Node.sameApart_alter hremoved) _ (not_prefix_of_ne (hne hopened))
  | moved fresh created written replaced hopened hwritten hreplaced =>
      exact Node.kind?_rename_target hreplaced (Node.kind?_write_self hwritten)
        (not_prefix_of_ne (hne hopened))

/-- What a save is seen to change. At the file of the context stands the entry if it succeeds, and
what was there if it fails. -/
structure Run.Saves (run : Run) (root : Node) (base : List String) (context : String)
    (entry : Entry) : Prop where
  file : (run.final root).kind? (path base context) =
    match run.result with
    | .ok () => some (.file entry.text.toUTF8)
    | .error _ => root.kind? (path base context)
  within : Within (path base context) root (run.final root)

/-- The entries of the directory are those from before, that of the context apart. -/
theorem get?_entriesAt_final_saveRunBy {naming : Naming} (hnaming : naming.Fresh) (faults : Faults)
    (s : Storage) (base : List String) (context : String) (snapshot : Snapshot) (now : Nat)
    (other : String) (hother : other ≠ fileName context) :
    Keyed.get? other (((saveRunBy naming faults s base context snapshot now).final
        s.root).entriesAt (directory base)) =
      Keyed.get? other (s.root.entriesAt (directory base)) := by
  rw [entriesAt_final_saveRunBy hnaming]
  split
  next => rw [Keyed.get?_put, if_neg hother.symm]
  next => rfl

/-- Whichever steps fail, a save is seen at the file of the context only. -/
theorem saves_saveRun (faults : Faults) (s : Storage) (base : List String) (context : String)
    (snapshot : Snapshot) (now : Nat) :
    (saveRun faults s base context snapshot now).Saves s.root base context ⟨snapshot, now⟩ := by
  unfold saveRun
  have hentries :=
    get?_entriesAt_final_saveRunBy fresh_freshName? faults s base context snapshot now
  obtain ⟨hrun, -⟩ | ⟨made, run, hmade, -, hreplacing, hrun⟩ :=
    saveRunBy_cases freshName? faults s base context snapshot now
  · rw [hrun]
    exact ⟨rfl, .refl _ _⟩
  · -- No entry leads to the directory itself.
    have hshort : ∀ child, ¬ directory base ++ [child] <+: directory base := fun child hprefix => by
      have hlength := hprefix.length_le
      rw [List.length_append, List.length_singleton] at hlength
      omega
    rw [hrun, Run.final_after] at hentries
    rw [hrun]
    have hreplace := hreplacing.changesAt fresh_freshName? (not_isTemporary_fileName context)
    constructor
    · rw [Run.final_after, Run.result_after, path, hreplace.file]
      cases run.result with
      | ok => rfl
      | error =>
          show made.kind? (directory base ++ [fileName context]) = _
          rw [Node.kind?_makeDirectories hmade, if_neg (hshort _)]
    · rw [Run.final_after]
      have hdirectory : (run.final made).kind? (directory base) = made.kind? (directory base) :=
        hreplacing.kind?_final hshort
      refine Within.of_entriesAt ?_ ?_ hentries
      · exact (Node.within_makeDirectories hmade (List.prefix_refl _)).trans hreplace.outside.within
      · exact (Node.grown_makeDirectories hmade _).trans (.inl hdirectory)

/-! ## Clearing -/

/-- A directory in the place of the file is not cleared. -/
theorem clear_of_directory (h : s.root.kind? (path base context) = some .directory) :
    clear s base context = .error (.notRemoved (s.shown (path base context))) := by
  have hpresent : s.root.isPresent (path base context) = true :=
    Node.isPresent_eq_true_iff.2 (.inl h)
  have hremove : s.root.remove? (path base context) = none := Node.remove?_eq_none_of_directory h
  rw [clear]
  simp only [hpresent, if_true, hremove]

/-- Anything else is cleared, and this is seen in the place of the file only. -/
theorem exists_clear_of_ne (h : s.root.kind? (path base context) ≠ some .directory) :
    ∃ cleared : Storage, clear s base context = .ok cleared ∧ cleared.label = s.label ∧
      SameApart (path base context) s.root cleared.root := by
  unfold clear
  by_cases hpresent : s.root.isPresent (path base context) = true
  · simp only [hpresent, if_true]
    obtain ⟨content, hfile⟩ := (Node.isPresent_eq_true_iff.1 hpresent).resolve_left h
    obtain ⟨root, hremove⟩ := Node.exists_remove (Node.content?_eq_some_iff.2 hfile)
    rw [show s.root.remove? (path base context) = some root from hremove]
    exact ⟨{ s with root }, rfl, rfl, Node.sameApart_alter hremove⟩
  · simp only [hpresent]
    exact ⟨s, rfl, rfl, .refl _ _⟩

/-- In a tree in order neither a file nor a directory is left in the place of the file. -/
theorem isPresent_of_clear {cleared : Storage} (hordered : s.root.Ordered)
    (h : clear s base context = .ok cleared) :
    cleared.root.isPresent (path base context) = false := by
  unfold clear at h
  dsimp only at h
  split at h
  next =>
    split at h
    next root hremove =>
      cases h
      have hremoved := Node.at?_alter hordered hremove
      rw [Node.isPresent]
      split at hremoved
      next => rw [← Option.some.inj hremoved]
      next => rw [← Option.some.inj hremoved]
      next => cases hremoved
    next => cases h
  next hmissing =>
    cases h
    exact Bool.eq_false_iff.2 hmissing

end ApiCatalog.Cache
