import ApiCatalog.Proofs.Cache.Entries
import ApiCatalog.Proofs.Storage.Listing

/-!
# What saving and clearing change

Saving and clearing a context change the file of the context and no other, and no file at all when
they fail (`replaces_saveRun`, `replaced_clear`). For a save it does not matter which of its steps
fails: the temporary file has a name that no other file has, and it is gone in the end, when the
error has been dropped. `Replacing` lists the ways in which a file can be replaced, with the trees
that are gone through, and `replacing_replaceFile` says that there are no others. What is loaded
depends on the file of the context alone (`load_eq_fresh?`, `fresh?_text`).
-/

namespace ApiCatalog.Cache

open Node (Replaced Unchanged)

variable {s : Storage} {base directory : List String} {name context : String}

/-- What is carried out has no fault. -/
theorem attempt_eq_ok_iff {α : Type} {faults : Faults} {step : SaveStep} {result : Option α}
    {error : CacheError} {value : α} :
    attempt faults step result error = .ok value ↔ faults step = false ∧ result = some value := by
  unfold attempt
  cases faults step <;> cases result <;> simp

/-- What fails although it could be carried out has a fault. -/
theorem attempt_eq_error_iff {α : Type} {faults : Faults} {step : SaveStep} {result : Option α}
    {error reported : CacheError} :
    attempt faults step result error = .error reported ↔
      reported = error ∧ ∀ value, result = some value → faults step = true := by
  unfold attempt
  cases faults step <;> cases result <;> simp [eq_comm]

/-- The names that are chosen are those of temporary files, and they are not taken. -/
structure Naming.Fresh (naming : Naming) : Prop where
  notTaken : ∀ taken fresh, naming taken = some fresh → fresh ∉ taken
  temporary : ∀ taken fresh, naming taken = some fresh → IsTemporary fresh

/-- The first name that is not taken is such a name. -/
theorem fresh_freshName? : Naming.Fresh freshName? := by
  constructor
  · intro taken fresh h
    rw [freshName?] at h
    have hfresh := List.find?_some h
    exact of_decide_eq_true hfresh
  · intro taken fresh h
    rw [freshName?] at h
    obtain ⟨number, -, rfl⟩ := List.mem_map.1 (List.mem_of_find?_eq_some h)
    exact isTemporary_temporaryName number

/-! ## Replacing a file -/

/-- The temporary file has the name and is made in the directory. -/
structure Opened (naming : Naming) (root : Node) (directory : List String) (fresh : String)
    (created : Node) : Prop where
  named : naming (root.names directory) = some fresh
  created : root.create? (directory ++ [fresh]) = some created

/-- The ways in which replacing a file can go. A step that fails although it could be carried out
has a fault. A temporary file that is left to the error can be removed. -/
inductive Replacing (naming : Naming) (faults : Faults) (s : Storage) (directory : List String)
    (name : String) (content : ByteArray) : Run → Prop where
  | unopened :
      (∀ fresh created, Opened naming s.root directory fresh created →
        faults .createTemporary = true) →
      Replacing naming faults s directory name content
        { states := [], result := .error .noTemporaryFile }
  | unwritten (fresh created removed) :
      Opened naming s.root directory fresh created →
      (∀ written, created.write? (directory ++ [fresh]) content = some written →
        faults .writeTemporary = true) →
      created.remove? (directory ++ [fresh]) = some removed →
      Replacing naming faults s directory name content
        { states := [created, removed]
          result := .error (.unwritable (s.shown (directory ++ [fresh]))) }
  | unmoved (fresh created written removed) :
      Opened naming s.root directory fresh created →
      created.write? (directory ++ [fresh]) content = some written →
      (∀ replaced, written.rename? (directory ++ [fresh]) (directory ++ [name]) = some replaced →
        faults .replace = true) →
      written.remove? (directory ++ [fresh]) = some removed →
      Replacing naming faults s directory name content
        { states := [created, written]
          result := .error (.notReplaced (s.shown (directory ++ [name])))
          held := some (directory ++ [fresh]) }
  | moved (fresh created written replaced) :
      Opened naming s.root directory fresh created →
      created.write? (directory ++ [fresh]) content = some written →
      written.rename? (directory ++ [fresh]) (directory ++ [name]) = some replaced →
      (∀ step, step ≠ .makeDirectory → faults step = false) →
      Replacing naming faults s directory name content
        { states := [created, written, replaced], result := .ok () }

/-- A file among the entries of a directory can be removed. -/
theorem exists_remove_of_entriesAt {root : Node} {entries : List (String × Node)}
    {content : ByteArray}
    (h : root.entriesAt directory = Keyed.put name (.file content) entries) :
    ∃ removed, root.remove? (directory ++ [name]) = some removed := by
  have hfile : root.content? (directory ++ [name]) = some content := by
    rw [Node.content?_concat, h, Keyed.get?_put, if_pos rfl]
    rfl
  exact Node.exists_remove hfile

/-- Replacing a file goes in one of these ways. -/
theorem replacing_replaceFile (naming : Naming) (faults : Faults) (s : Storage)
    (directory : List String) (name : String) (content : ByteArray) :
    Replacing naming faults s directory name content
      (replaceFile naming faults s directory name content) := by
  unfold replaceFile
  dsimp only
  split
  next error hcreated =>
    obtain ⟨rfl, hfault⟩ := attempt_eq_error_iff.1 hcreated
    refine .unopened fun fresh created hopened => hfault (directory ++ [fresh], created) ?_
    simp [hopened.named, hopened.created]
  next temporary created hcreated =>
    obtain ⟨hcreateFault, hcreate⟩ := attempt_eq_ok_iff.1 hcreated
    simp only [Option.bind_eq_bind, Option.bind_eq_some_iff, Option.some.injEq,
      Prod.mk.injEq] at hcreate
    obtain ⟨fresh, hfresh, made, hmake, rfl, rfl⟩ := hcreate
    have hopened : Opened naming s.root directory fresh made := ⟨hfresh, hmake⟩
    split
    next error hwritten =>
      obtain ⟨rfl, hfault⟩ := attempt_eq_error_iff.1 hwritten
      obtain ⟨removed, hremoved⟩ := exists_remove_of_entriesAt (Node.entriesAt_create hmake).2
      rw [hremoved]
      exact .unwritten fresh made removed hopened hfault hremoved
    next written hwritten =>
      obtain ⟨hwriteFault, hwrite⟩ := attempt_eq_ok_iff.1 hwritten
      split
      next error hreplaced =>
        obtain ⟨rfl, hfault⟩ := attempt_eq_error_iff.1 hreplaced
        obtain ⟨removed, hremoved⟩ := exists_remove_of_entriesAt (Node.entriesAt_write hwrite)
        exact .unmoved fresh made written removed hopened hwrite hfault hremoved
      next replaced hreplaced =>
        obtain ⟨hreplaceFault, hreplace⟩ := attempt_eq_ok_iff.1 hreplaced
        refine .moved fresh made written replaced hopened hwrite hreplace fun step hstep => ?_
        cases step with
        | makeDirectory => exact absurd rfl hstep
        | createTemporary => exact hcreateFault
        | writeTemporary => exact hwriteFault
        | replace => exact hreplaceFault

/-- When the error is dropped, its file is removed. -/
theorem Run.final_of_held {states : List Node} {result : Except CacheError Unit}
    {temporary : List String} {start removed : Node}
    (h : (states.getLastD start).remove? temporary = some removed) :
    Run.final ⟨states, result, some temporary⟩ start = removed := by
  show ((states.getLastD start).remove? temporary).getD _ = removed
  rw [h, Option.getD_some]

/-- The run gives the file at the path the content if it succeeds, and changes no file if it
fails. -/
def Run.Replaces (run : Run) (root : Node) (path : List String) (content : ByteArray) : Prop :=
  match run.result with
  | .ok () => Replaced root (run.final root) path (some content)
  | .error _ => Unchanged root (run.final root)

/-- Whichever steps fail, replacing a file gives it the content or changes nothing. -/
theorem Replacing.replaces {naming : Naming} (hnaming : naming.Fresh) {faults : Faults}
    {content : ByteArray} {run : Run}
    (h : Replacing naming faults s directory name content run) (hordered : s.root.Ordered)
    (hname : ¬ IsTemporary name) : run.Replaces s.root (directory ++ [name]) content := by
  have hnone : ∀ {fresh created}, Opened naming s.root directory fresh created →
      s.root.content? (directory ++ [fresh]) = none := fun {fresh created} hopened =>
    Node.content?_eq_none_of_not_mem_names (hnaming.notTaken _ fresh hopened.named)
  cases h with
  | unopened => exact ⟨hordered, fun _ => rfl⟩
  | unwritten fresh created removed hopened _ hremoved =>
      have hmade := Node.replaced_create hordered hopened.created
      exact hmade.unchanged (Node.replaced_remove hmade.ordered hremoved) (hnone hopened)
  | unmoved fresh created written removed hopened hwritten _ hremoved =>
      have hmade := Node.replaced_create hordered hopened.created
      have hwrite := hmade.trans (Node.replaced_write hmade.ordered hwritten)
      have hfinal := hwrite.unchanged (Node.replaced_remove hwrite.ordered hremoved) (hnone hopened)
      show Unchanged s.root (Run.final _ s.root)
      rw [Run.final_of_held hremoved]
      exact hfinal
  | moved fresh created written replaced hopened hwritten hreplaced =>
      have hmade := Node.replaced_create hordered hopened.created
      have hwrite := hmade.trans (Node.replaced_write hmade.ordered hwritten)
      have htarget : directory ++ [name] ≠ directory ++ [fresh] := by
        intro heq
        obtain ⟨rfl, -⟩ := List.cons.inj (List.append_cancel_left heq)
        exact hname (hnaming.temporary _ name hopened.named)
      exact hwrite.moved (hnone hopened) htarget hreplaced

/-- The states before a run do not change its result. -/
theorem Run.result_after (root middle : Node) (run : Run) :
    (run.after root middle).result = run.result := rfl

/-- What a run returns with, if it has two more states before. -/
theorem Run.returned_after (root middle : Node) (run : Run) :
    (run.after root middle).returned root = run.returned middle := by
  rw [Run.returned, Run.after, List.getLastD_cons, List.getLastD_cons, Run.returned]

/-- What a run ends with, if it has two more states before. -/
theorem Run.final_after (root middle : Node) (run : Run) :
    (run.after root middle).final root = run.final middle := by
  rw [Run.final, Run.returned_after]
  rfl

/-- A run from where all files are the same does the same to them. -/
theorem Run.Replaces.of_unchanged {run : Run} {root middle : Node} {target : List String}
    {content : ByteArray} (h : run.Replaces middle target content) (hsame : Unchanged root middle) :
    (run.after root middle).Replaces root target content := by
  unfold Run.Replaces at h ⊢
  rw [Run.final_after, Run.result_after]
  cases hresult : run.result with
  | ok =>
      rw [hresult] at h
      exact hsame.replaced_of_replaced h
  | error =>
      rw [hresult] at h
      exact hsame.trans h

/-- A save fails at the directory, or it makes the directory and replaces the file in it. -/
theorem saveRunBy_cases (naming : Naming) (faults : Faults) (s : Storage) (base : List String)
    (context : String) (snapshot : Snapshot) (now : Nat) :
    (saveRunBy naming faults s base context snapshot now =
        { states := [s.root], result := .error .noDirectory } ∧
      ∀ made, s.root.makeDirectories (Cache.directory base) = some made →
        faults .makeDirectory = true) ∨
    ∃ made run, s.root.makeDirectories (Cache.directory base) = some made ∧
      faults .makeDirectory = false ∧
      Replacing naming faults { s with root := made } (Cache.directory base) (fileName context)
        (Entry.text ⟨snapshot, now⟩).toUTF8 run ∧
      saveRunBy naming faults s base context snapshot now = run.after s.root made := by
  unfold saveRunBy
  split
  next error hmake =>
    obtain ⟨rfl, hfault⟩ := attempt_eq_error_iff.1 hmake
    exact .inl ⟨rfl, hfault⟩
  next made hmake =>
    obtain ⟨hfault, hmade⟩ := attempt_eq_ok_iff.1 hmake
    exact .inr ⟨made, _, hmade, hfault, replacing_replaceFile naming faults { s with root := made }
      (Cache.directory base) (fileName context) (Entry.text ⟨snapshot, now⟩).toUTF8, rfl⟩

/-- Whichever steps fail, saving a context gives its file the entry or changes no file. -/
theorem replaces_saveRun (faults : Faults) (hordered : s.root.Ordered) (base : List String)
    (context : String) (snapshot : Snapshot) (now : Nat) :
    (saveRun faults s base context snapshot now).Replaces s.root (path base context)
      (Entry.text ⟨snapshot, now⟩).toUTF8 := by
  unfold saveRun
  obtain ⟨hrun, -⟩ | ⟨made, run, hmade, -, hreplacing, hrun⟩ :=
    saveRunBy_cases freshName? faults s base context snapshot now
  · rw [hrun]
    exact ⟨hordered, fun _ => rfl⟩
  · rw [hrun]
    have hdirectories : Unchanged s.root made :=
      ⟨Node.ordered_makeDirectories hordered hmade, Node.content?_makeDirectories hmade⟩
    exact (hreplacing.replaces fresh_freshName? hdirectories.ordered
      (not_isTemporary_fileName context)).of_unchanged hdirectories

/-- Clearing a context removes its file. -/
theorem replaced_clear {cleared : Storage} (hordered : s.root.Ordered)
    (h : clear s base context = .ok cleared) :
    Replaced s.root cleared.root (path base context) none := by
  unfold clear at h
  dsimp only at h
  split at h
  next =>
    split at h
    next root hremove =>
      cases h
      exact Node.replaced_remove hordered hremove
    next => cases h
  next hmissing =>
    cases h
    have hnone : s.root.content? (path base context) = none := by
      cases hcontent : s.root.content? (path base context) with
      | none => rfl
      | some content => exact absurd (Node.isPresent_of_content? hcontent) hmissing
    have hsame : Unchanged s.root s.root := ⟨hordered, fun _ => rfl⟩
    exact hnone ▸ hsame.replaced (path base context)

/-- A context whose file is there can be cleared. -/
theorem exists_clear {content : ByteArray}
    (h : s.root.content? (path base context) = some content) :
    ∃ cleared, clear s base context = .ok cleared := by
  obtain ⟨root, hremove⟩ := Node.exists_remove h
  refine ⟨{ s with root }, ?_⟩
  rw [clear]
  simp only [Node.isPresent_of_content? h, if_true]
  rw [path, hremove]

/-! ## Loading -/

/-- The fresh snapshot in the content of a file, if there is one. -/
def fresh? (content : Option ByteArray) (seconds now : Nat) : Option Snapshot := do
  let entry ← Entry.ofContent? (← content)
  if entry.isFresh seconds now then some entry.snapshot else none

/-- What is loaded depends on the file of the context alone. -/
theorem load_eq_fresh? (root : Node) (base : List String) (context : String) (seconds now : Nat) :
    load root base context seconds now = fresh? (root.content? (path base context)) seconds now :=
  rfl

/-- What is loaded is the snapshot of a fresh entry in the file of the context. -/
theorem load_eq_some_iff {root : Node} {seconds now : Nat} {snapshot : Snapshot} :
    load root base context seconds now = some snapshot ↔
      ∃ entry, (root.content? (path base context)).bind Entry.ofContent? = some entry ∧
        entry.isFresh seconds now = true ∧ entry.snapshot = snapshot := by
  simp only [load, Option.bind_eq_bind, ← Option.bind_assoc]
  rw [Option.bind_eq_some_iff]
  refine exists_congr fun entry => and_congr_right fun _ => ?_
  rw [Option.ite_none_right_eq_some, Option.some.injEq]

/-- The snapshot in the file of an entry is fresh for the given seconds, if its document can be
read. -/
theorem fresh?_text {e : Entry} (hsnapshot : e.snapshot.Storable)
    (htime : e.createdAt < NumberLiteral.wordLimit) (seconds now : Nat) :
    fresh? (some e.text.toUTF8) seconds now =
      if e.snapshot.openapi.depth ≤ documentDepth ∧ now - e.createdAt < seconds then
        some e.snapshot
      else none := by
  simp only [fresh?, Option.bind_eq_bind, Option.bind_some, Entry.ofContent?_text hsnapshot htime]
  by_cases hdepth : e.snapshot.openapi.depth ≤ documentDepth
  · simp [hdepth, Entry.isFresh]
  · simp [hdepth]

end ApiCatalog.Cache
