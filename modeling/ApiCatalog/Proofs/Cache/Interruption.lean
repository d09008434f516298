import ApiCatalog.Proofs.Cache.Separation

/-!
# What is seen while a snapshot is saved

Whichever step of a save fails, the directory of the cache ends with the entries that it had, and
without a failure it ends with one more, or with one that is new (`Replacing.entriesAt_final`). In
between it differs from what it was by a temporary file only (`Replacing.agrees_of_mem`), and no
temporary file is that of a context, so a reader finds the old entry or the new one, never a part of
it. A save that fails at the last step returns while its temporary file is still there: it belongs
to the error, and it is gone when the error is dropped (`Replacing.returns`).
`saveRunBy_all_or_nothing` puts this together. It holds of any way to name temporary files that
finds names of their kind that are not taken, and of whatever temporary files hold meanwhile.

What the new entry is read back as is the saved snapshot, unless its document has binary64 numbers
that are read differently or is too deep (`not_loaded_as_saved`).
-/

namespace ApiCatalog.Cache

variable {naming : Naming} {faults : Faults} {s : Storage} {base directory : List String}
  {name context : String} {content : ByteArray} {run : Run} {root state : Node}

/-! ## The directory -/

/-- Temporary files apart, the directory has the same files in the two trees. -/
def AgreeApart (directory : List String) (root changed : Node) : Prop :=
  ∀ name, ¬ IsTemporary name →
    changed.content? (directory ++ [name]) = root.content? (directory ++ [name])

/-- A tree agrees with itself. -/
theorem AgreeApart.refl (directory : List String) (root : Node) : AgreeApart directory root root :=
  fun _ _ => rfl

/-- Trees that agree with one tree agree. -/
theorem AgreeApart.trans {middle changed : Node} (hfirst : AgreeApart directory root middle)
    (hsecond : AgreeApart directory middle changed) : AgreeApart directory root changed :=
  fun name hname => (hsecond name hname).trans (hfirst name hname)

/-- Trees agree if the entries of the directory do. -/
theorem agreeApart_of_entriesAt (h : state.entriesAt directory = root.entriesAt directory) :
    AgreeApart directory root state := fun name _ => by
  rw [Node.content?_concat, Node.content?_concat, h]

/-- A temporary file is no difference. -/
theorem agreeApart_of_put {fresh : String} (hfresh : IsTemporary fresh) {node : Node}
    (h : state.entriesAt directory = Keyed.put fresh node (root.entriesAt directory)) :
    AgreeApart directory root state := fun name hname => by
  have hne : fresh ≠ name := fun heq => hname (heq ▸ hfresh)
  rw [Node.content?_concat, Node.content?_concat, h, Keyed.get?_put, if_neg hne]

/-! ## Replacing a file -/

section Opened

variable {fresh : String} {created written changed : Node}

/-- The temporary file is new, and it is empty. -/
theorem Opened.entriesAt (h : Opened naming root directory fresh created) :
    Keyed.get? fresh (root.entriesAt directory) = none ∧
      created.entriesAt directory = Keyed.put fresh (.file .empty) (root.entriesAt directory) :=
  Node.entriesAt_create h.created

/-- Then it has the content. -/
theorem Opened.entriesAt_write (h : Opened naming root directory fresh created)
    (hwritten : created.write? (directory ++ [fresh]) content = some written) :
    written.entriesAt directory = Keyed.put fresh (.file content) (root.entriesAt directory) := by
  rw [Node.entriesAt_write hwritten, h.entriesAt.2, Keyed.put_put]

/-- When it is removed, the entries are those from before. -/
theorem Opened.entriesAt_remove (h : Opened naming root directory fresh created) {node : Node}
    (hstate : state.entriesAt directory = Keyed.put fresh node (root.entriesAt directory))
    (hremoved : state.remove? (directory ++ [fresh]) = some changed) :
    changed.entriesAt directory = root.entriesAt directory := by
  rw [Node.entriesAt_remove hremoved, hstate, Keyed.erase_put h.entriesAt.1]

/-- When it is moved, it is the file with the other name, and the other entries are those from
before. -/
theorem Opened.entriesAt_rename (h : Opened naming root directory fresh created)
    (hne : fresh ≠ name)
    (hwritten : created.write? (directory ++ [fresh]) content = some written)
    (hmoved : written.rename? (directory ++ [fresh]) (directory ++ [name]) = some changed) :
    changed.entriesAt directory = Keyed.put name (.file content) (root.entriesAt directory) := by
  have hentries := h.entriesAt_write hwritten
  have hfile : Keyed.get? fresh (written.entriesAt directory) = some (.file content) := by
    rw [hentries, Keyed.get?_put, if_pos rfl]
  have hmissing : Keyed.get? fresh (Keyed.put name (.file content) (root.entriesAt directory)) =
      none := by
    rw [Keyed.get?_put, if_neg hne.symm, h.entriesAt.1]
  rw [Node.entriesAt_rename hmoved hfile, hentries, Keyed.put_comm hne.symm,
    Keyed.erase_put hmissing]

end Opened

/-- In the end the directory has the entries from before, and the new one if no step failed. An
error has been dropped then. -/
theorem Replacing.entriesAt_final (hnaming : naming.Fresh)
    (h : Replacing naming faults s directory name content run) (hname : ¬ IsTemporary name) :
    (run.final s.root).entriesAt directory =
      match run.result with
      | .ok () => Keyed.put name (.file content) (s.root.entriesAt directory)
      | .error _ => s.root.entriesAt directory := by
  cases h with
  | unopened => rfl
  | unwritten fresh created removed hopened _ hremoved =>
      exact hopened.entriesAt_remove hopened.entriesAt.2 hremoved
  | unmoved fresh created written removed hopened hwritten _ hremoved =>
      rw [Run.final_of_held hremoved]
      exact hopened.entriesAt_remove (hopened.entriesAt_write hwritten) hremoved
  | moved fresh created written replaced hopened hwritten hreplaced =>
      have hne : fresh ≠ name := fun heq =>
        hname (heq ▸ hnaming.temporary _ fresh hopened.named)
      exact hopened.entriesAt_rename hne hwritten hreplaced

/-- What a run that fails returns with: the entries of the directory from before, or also the
temporary file, which belongs to the error then. That is so if the file could not take the place of
the other one. -/
structure Run.Returns (run : Run) (root : Node) (directory : List String) (shown : String)
    (content : ByteArray) (error : CacheError) : Prop where
  plain : run.held = none → (∀ path, error ≠ .notReplaced path) ∧
    (run.returned root).entriesAt directory = root.entriesAt directory
  held : ∀ temporary, run.held = some temporary → error = .notReplaced shown ∧
    ∃ fresh, temporary = directory ++ [fresh] ∧ IsTemporary fresh ∧
      Keyed.get? fresh (root.entriesAt directory) = none ∧
      (run.returned root).entriesAt directory =
        Keyed.put fresh (.file content) (root.entriesAt directory)

/-- Replacing a file fails like this. -/
theorem Replacing.returns (hnaming : naming.Fresh)
    (h : Replacing naming faults s directory name content run) {error : CacheError}
    (herror : run.result = .error error) :
    run.Returns s.root directory (s.shown (directory ++ [name])) content error := by
  cases h with
  | unopened =>
      cases herror
      exact ⟨fun _ => ⟨fun _ => nofun, rfl⟩, nofun⟩
  | unwritten fresh created removed hopened _ hremoved =>
      cases herror
      have hgone := hopened.entriesAt_remove hopened.entriesAt.2 hremoved
      exact ⟨fun _ => ⟨fun _ => nofun, hgone⟩, nofun⟩
  | unmoved fresh created written removed hopened hwritten =>
      cases herror
      refine ⟨nofun, fun temporary htemporary => ?_⟩
      exact ⟨rfl, fresh, (Option.some.inj htemporary).symm,
        hnaming.temporary _ fresh hopened.named, hopened.entriesAt.1,
        hopened.entriesAt_write hwritten⟩
  | moved => cases herror

/-- At every step the directory is as it was, temporary files apart, or all is done. -/
theorem Replacing.agrees_of_mem (hnaming : naming.Fresh)
    (h : Replacing naming faults s directory name content run) (hstate : state ∈ run.states) :
    AgreeApart directory s.root state ∨ run.result = .ok () ∧ state = run.final s.root := by
  have hopen : ∀ {fresh created}, Opened naming s.root directory fresh created →
      AgreeApart directory s.root created := fun {fresh created} hopened =>
    agreeApart_of_put (hnaming.temporary _ fresh hopened.named) hopened.entriesAt.2
  have hwrite : ∀ {fresh created written}, Opened naming s.root directory fresh created →
      created.write? (directory ++ [fresh]) content = some written →
      AgreeApart directory s.root written := fun {fresh created written} hopened hwritten =>
    agreeApart_of_put (hnaming.temporary _ fresh hopened.named) (hopened.entriesAt_write hwritten)
  cases h with
  | unopened => cases hstate
  | unwritten fresh created removed hopened _ hremoved =>
      simp only [List.mem_cons, List.not_mem_nil, or_false] at hstate
      rcases hstate with rfl | rfl
      · exact .inl (hopen hopened)
      · exact .inl (agreeApart_of_entriesAt
          (hopened.entriesAt_remove hopened.entriesAt.2 hremoved))
  | unmoved fresh created written removed hopened hwritten _ hremoved =>
      simp only [List.mem_cons, List.not_mem_nil, or_false] at hstate
      rcases hstate with rfl | rfl
      · exact .inl (hopen hopened)
      · exact .inl (hwrite hopened hwritten)
  | moved fresh created written replaced hopened hwritten =>
      simp only [List.mem_cons, List.not_mem_nil, or_false] at hstate
      rcases hstate with rfl | rfl | rfl
      · exact .inl (hopen hopened)
      · exact .inl (hwrite hopened hwritten)
      · exact .inr ⟨rfl, rfl⟩

/-! ## Saving -/

/-- The steps of a save can be carried out one after the other. -/
def Feasible (naming : Naming) (root : Node) (base : List String) (context : String)
    (content : ByteArray) : Prop :=
  ∃ made fresh created written replaced,
    root.makeDirectories (Cache.directory base) = some made ∧
    Opened naming made (Cache.directory base) fresh created ∧
    created.write? (Cache.directory base ++ [fresh]) content = some written ∧
    written.rename? (Cache.directory base ++ [fresh]) (path base context) = some replaced

/-- Replacing a file succeeds exactly if its steps can be carried out and have no faults. -/
theorem Replacing.result_eq_ok_iff (h : Replacing naming faults s directory name content run) :
    run.result = .ok () ↔
      (∀ step, step ≠ .makeDirectory → faults step = false) ∧
      ∃ fresh created written replaced, Opened naming s.root directory fresh created ∧
        created.write? (directory ++ [fresh]) content = some written ∧
        written.rename? (directory ++ [fresh]) (directory ++ [name]) = some replaced := by
  have hsame : ∀ {fresh created other another}, Opened naming s.root directory fresh created →
      Opened naming s.root directory other another → fresh = other ∧ created = another := by
    intro fresh created other another hfirst hsecond
    obtain rfl := Option.some.inj (hfirst.named.symm.trans hsecond.named)
    exact ⟨rfl, Option.some.inj (hfirst.created.symm.trans hsecond.created)⟩
  cases h with
  | unopened hfault =>
      refine iff_of_false nofun ?_
      rintro ⟨hfaults, fresh, created, -, -, hopened, -⟩
      exact Bool.false_ne_true
        ((hfaults .createTemporary nofun).symm.trans (hfault fresh created hopened))
  | unwritten fresh created removed hopened hfault =>
      refine iff_of_false nofun ?_
      rintro ⟨hfaults, _, _, written, -, hother, hwritten, -⟩
      obtain ⟨rfl, rfl⟩ := hsame hopened hother
      exact Bool.false_ne_true
        ((hfaults .writeTemporary nofun).symm.trans (hfault written hwritten))
  | unmoved fresh created written removed hopened hwritten hfault =>
      refine iff_of_false nofun ?_
      rintro ⟨hfaults, _, _, _, replaced, hother, hagain, hreplaced⟩
      obtain ⟨rfl, rfl⟩ := hsame hopened hother
      obtain rfl := Option.some.inj (hwritten.symm.trans hagain)
      exact Bool.false_ne_true
        ((hfaults .replace nofun).symm.trans (hfault replaced hreplaced))
  | moved fresh created written replaced hopened hwritten hreplaced hfaults =>
      exact iff_of_true rfl
        ⟨hfaults, fresh, created, written, replaced, hopened, hwritten, hreplaced⟩

/-- A save succeeds exactly if its steps can be carried out and have no faults. -/
theorem result_saveRunBy_eq_ok_iff (naming : Naming) (faults : Faults) (s : Storage)
    (base : List String) (context : String) (snapshot : Snapshot) (now : Nat) :
    (saveRunBy naming faults s base context snapshot now).result = .ok () ↔
      (∀ step, faults step = false) ∧
        Feasible naming s.root base context (Entry.text ⟨snapshot, now⟩).toUTF8 := by
  obtain ⟨hrun, hfault⟩ | ⟨made, run, hmade, hfault, hreplacing, hrun⟩ :=
    saveRunBy_cases naming faults s base context snapshot now
  · rw [hrun]
    refine iff_of_false nofun ?_
    rintro ⟨hfaults, made, -, -, -, -, hmade, -⟩
    exact Bool.false_ne_true ((hfaults _).symm.trans (hfault made hmade))
  · rw [hrun]
    refine hreplacing.result_eq_ok_iff.trans ⟨?_, ?_⟩
    · rintro ⟨hfaults, fresh, created, written, replaced, hsteps⟩
      refine ⟨fun step => ?_, made, fresh, created, written, replaced, hmade, hsteps⟩
      by_cases hstep : step = .makeDirectory
      · rw [hstep, hfault]
      · exact hfaults step hstep
    · rintro ⟨hfaults, again, fresh, created, written, replaced, hagain, hsteps⟩
      obtain rfl := Option.some.inj (hmade.symm.trans hagain)
      exact ⟨fun step _ => hfaults step, fresh, created, written, replaced, hsteps⟩

/-- In the end the directory of the cache has the entries from before, and that of the context with
its new content if no step failed. -/
theorem entriesAt_final_saveRunBy (hnaming : naming.Fresh) (faults : Faults) (s : Storage)
    (base : List String) (context : String) (snapshot : Snapshot) (now : Nat) :
    ((saveRunBy naming faults s base context snapshot now).final s.root).entriesAt
        (Cache.directory base) =
      match (saveRunBy naming faults s base context snapshot now).result with
      | .ok () => Keyed.put (fileName context) (.file (Entry.text ⟨snapshot, now⟩).toUTF8)
          (s.root.entriesAt (Cache.directory base))
      | .error _ => s.root.entriesAt (Cache.directory base) := by
  obtain ⟨hrun, -⟩ | ⟨made, run, hmade, -, hreplacing, hrun⟩ :=
    saveRunBy_cases naming faults s base context snapshot now
  · rw [hrun]
    rfl
  · have hfinal := hreplacing.entriesAt_final hnaming (not_isTemporary_fileName context)
    rw [hrun, Run.final_after, Run.result_after, hfinal, Node.entriesAt_makeDirectories hmade]

/-- A save that fails returns with the entries of the directory of the cache from before, or also
with a temporary file that belongs to the error. -/
theorem returns_saveRunBy (hnaming : naming.Fresh) (faults : Faults) (s : Storage)
    (base : List String) (context : String) (snapshot : Snapshot) (now : Nat) {error : CacheError}
    (herror : (saveRunBy naming faults s base context snapshot now).result = .error error) :
    (saveRunBy naming faults s base context snapshot now).Returns s.root (Cache.directory base)
      (s.shown (path base context)) (Entry.text ⟨snapshot, now⟩).toUTF8 error := by
  obtain ⟨hrun, -⟩ | ⟨made, run, hmade, -, hreplacing, hrun⟩ :=
    saveRunBy_cases naming faults s base context snapshot now
  · rw [hrun] at herror ⊢
    cases herror
    exact ⟨fun _ => ⟨fun _ => nofun, rfl⟩, nofun⟩
  · rw [hrun] at herror ⊢
    have hreturns := hreplacing.returns hnaming herror
    have hentries := Node.entriesAt_makeDirectories hmade
    constructor
    · rw [Run.returned_after, ← hentries]
      exact hreturns.plain
    · rw [Run.returned_after, ← hentries]
      exact hreturns.held

/-- At every step of a save the directory of the cache is as it was, temporary files apart, or all
is done. -/
theorem agrees_of_mem_saveRunBy (hnaming : naming.Fresh) {snapshot : Snapshot} {now : Nat}
    (hstate : state ∈ (saveRunBy naming faults s base context snapshot now).states) :
    AgreeApart (Cache.directory base) s.root state ∨
      (saveRunBy naming faults s base context snapshot now).result = .ok () ∧
        state = (saveRunBy naming faults s base context snapshot now).final s.root := by
  obtain ⟨hrun, -⟩ | ⟨made, run, hmade, -, hreplacing, hrun⟩ :=
    saveRunBy_cases naming faults s base context snapshot now
  · rw [hrun, List.mem_singleton] at hstate
    rw [hstate]
    exact .inl (.refl _ _)
  · have hmake : AgreeApart (Cache.directory base) s.root made :=
      agreeApart_of_entriesAt (Node.entriesAt_makeDirectories hmade)
    rw [hrun] at hstate ⊢
    rw [Run.final_after]
    rcases List.mem_cons.1 hstate with rfl | hlater
    · exact .inl (.refl _ _)
    · rcases List.mem_cons.1 hlater with rfl | hlater
      · exact .inl hmake
      · exact (hreplacing.agrees_of_mem hnaming hlater).imp_left hmake.trans

/-! ## Loading meanwhile -/

/-- What is loaded is found in a file that is not temporary. -/
theorem AgreeApart.load_eq {seen : Node} (h : AgreeApart (Cache.directory base) root seen)
    (context : String) (seconds now : Nat) :
    load seen base context seconds now = load root base context seconds now := by
  have hfile := h (fileName context) (not_isTemporary_fileName context)
  rw [load_eq_fresh?, load_eq_fresh?, path, hfile]

/-- What the document of an entry is read back as, unless it cannot be read. -/
def reread? (document : Json) : Option Json := Written.value? documentDepth document.spelled

/-- What is loaded from the entry of a snapshot. -/
def renewed? (snapshot : Snapshot) (createdAt seconds now : Nat) : Option Snapshot :=
  if now - createdAt < seconds then
    (reread? snapshot.openapi).map fun openapi => { snapshot with openapi }
  else none

/-- What is fresh in the file of an entry is the snapshot, with its document as it is read back. -/
theorem fresh?_text_eq_renewed? (snapshot : Snapshot) {createdAt : Nat}
    (htime : createdAt < NumberLiteral.wordLimit) (seconds now : Nat) :
    fresh? (some (Entry.text ⟨snapshot, createdAt⟩).toUTF8) seconds now =
      renewed? snapshot createdAt seconds now := by
  have hdecode : Snapshot.decode (Written.depthLimit - 1) snapshot.toJson.spelled =
      (reread? snapshot.openapi).map fun openapi => { snapshot with openapi } :=
    Snapshot.decode_spelled snapshot _
  rw [fresh?, Option.bind_eq_bind, Option.bind_some, Entry.ofContent?_toUTF8, Entry.decode_spelled,
    hdecode, Written.natural?_ofNat htime, renewed?]
  cases reread? snapshot.openapi with
  | none => exact (ite_self none).symm
  | some openapi => simp [Entry.isFresh]

/-- After a save that succeeds the snapshot is loaded for all contexts with the file, and for others
what was loaded before. -/
theorem load_final_saveRunBy (hnaming : naming.Fresh) (snapshot : Snapshot) (now : UInt64)
    (hdone : (saveRunBy naming faults s base context snapshot now.toNat).result = .ok ())
    (other : String) (seconds time : Nat) :
    load ((saveRunBy naming faults s base context snapshot now.toNat).final s.root) base other
        seconds time =
      if fileName other = fileName context then renewed? snapshot now.toNat seconds time
      else load s.root base other seconds time := by
  have hentries := entriesAt_final_saveRunBy hnaming faults s base context snapshot now.toNat
  rw [hdone] at hentries
  rw [load_eq_fresh?, load_eq_fresh?, path, Node.content?_concat, Node.content?_concat, hentries,
    Keyed.get?_put]
  by_cases hfile : fileName other = fileName context
  · rw [if_pos hfile, if_pos hfile.symm]
    exact fresh?_text_eq_renewed? snapshot now.toNat_lt seconds time
  · rw [if_neg hfile, if_neg (Ne.symm hfile)]

/-- A save succeeds exactly if its steps can be carried out and have no faults. If it fails, the
entries of the directory of the cache are those from before once the error has been dropped, and
until then too, but for the temporary file if that could not take the place of the old one. If it
succeeds, only the entry of the context is another one. Whatever temporary files hold, at every step
the same is loaded as before, for all contexts, or all is done and what is loaded for the contexts
with the file is the new entry: the snapshot, with its document as it is read back, as long as it is
fresh. A document is read back up to its binary64 numbers, if at all, and it is read back itself if
these are, unless it is too deep. No temporary file is that of a context. -/
theorem saveRunBy_all_or_nothing (hnaming : naming.Fresh) (faults : Faults) (s : Storage)
    (base : List String) (context : String) (snapshot : Snapshot) (now : UInt64) :
    let run := saveRunBy naming faults s base context snapshot now.toNat
    let content := (Entry.text ⟨snapshot, now.toNat⟩).toUTF8
    let before := s.root.entriesAt (Cache.directory base)
    let after := (run.final s.root).entriesAt (Cache.directory base)
    (run.result = .ok () ↔
      (∀ step, faults step = false) ∧ Feasible naming s.root base context content) ∧
    (∀ error, run.result = .error error → after = before ∧
      run.Returns s.root (Cache.directory base) (s.shown (path base context)) content error) ∧
    (run.result = .ok () → after = Keyed.put (fileName context) (.file content) before) ∧
    (∀ state ∈ run.states, ∀ seen, AgreeApart (Cache.directory base) state seen →
      (∀ other seconds time,
        load seen base other seconds time = load s.root base other seconds time) ∨
      run.result = .ok () ∧ state = run.final s.root) ∧
    (run.result = .ok () → ∀ seen, AgreeApart (Cache.directory base) (run.final s.root) seen →
      ∀ other seconds time, load seen base other seconds time =
        if fileName other = fileName context then renewed? snapshot now.toNat seconds time
        else load s.root base other seconds time) ∧
    (snapshot.openapi.Legible → ∀ openapi, reread? snapshot.openapi = some openapi →
      openapi.coarse = snapshot.openapi.coarse) ∧
    (snapshot.Storable → reread? snapshot.openapi =
      if snapshot.openapi.depth ≤ documentDepth then some snapshot.openapi else none) ∧
    ∀ name, IsTemporary name → ∀ other, name ≠ fileName other := by
  intro run content before after
  have hentries : after = _ := entriesAt_final_saveRunBy hnaming faults s base context snapshot _
  refine ⟨result_saveRunBy_eq_ok_iff naming faults s base context snapshot _,
    fun error herror => ?_, fun hdone => ?_, fun state hstate seen hseen => ?_,
    fun hdone seen hseen => ?_, fun hlegible openapi => ?_, fun hstorable => ?_, ?_⟩
  · have hreturns := returns_saveRunBy hnaming faults s base context snapshot _ herror
    exact ⟨by rw [hentries, herror], hreturns⟩
  · rw [hentries, hdone]
  · refine (agrees_of_mem_saveRunBy hnaming hstate).imp_left fun hagree => ?_
    exact (hagree.trans hseen).load_eq
  · intro other seconds time
    rw [hseen.load_eq, load_final_saveRunBy hnaming snapshot now hdone]
  · exact Written.coarse_of_value?_spelled _ hlegible.ordered hlegible.fits _ openapi
  · exact Written.value?_spelled _ hstorable.ordered hstorable.numbers _
  · rintro _ htemporary other rfl
    exact not_isTemporary_fileName other htemporary

namespace Stale

/-- The entry that is there before. -/
def old : Snapshot := ⟨[], .null⟩

/-- A cache with the entry. -/
def storage : Storage := { root := single "p" (Entry.text ⟨old, 0⟩).toUTF8 }

/-- The old entry is loaded. -/
theorem load_storage : load storage.root [] "p" 60 0 = some old := by
  have hold : fresh? (some (Entry.text ⟨old, 0⟩).toUTF8) 60 0 = some old :=
    fresh?_text (e := ⟨old, 0⟩) ⟨trivial, trivial⟩ (by decide) 60 0
  rw [load_eq_fresh?, storage, content?_single, hold]

/-- The old entry is loaded at every step of a save that fails at the last one, and the new one
after a save without faults. -/
theorem load_during_save :
    let failing := saveRunBy freshName? (· = .replace) storage [] "p" TwoClusters.apps 0
    let done := saveRunBy freshName? noFaults storage [] "p" TwoClusters.apps 0
    Naming.Fresh freshName? ∧
    (∃ error, failing.result = .error error) ∧
    (failing.final storage.root).entriesAt (Cache.directory []) =
      storage.root.entriesAt (Cache.directory []) ∧
    (∀ state ∈ failing.states, load state [] "p" 60 0 = some old) ∧
    load (done.final storage.root) [] "p" 60 0 = some TwoClusters.apps := by
  intro failing done
  obtain ⟨hsuccess, hentries, -, hsteps, -⟩ := saveRunBy_all_or_nothing fresh_freshName?
    (· = .replace) storage [] "p" TwoClusters.apps 0
  obtain ⟨-, -, -, -, hloaded, -, hreread, -⟩ := saveRunBy_all_or_nothing fresh_freshName?
    noFaults storage [] "p" TwoClusters.apps 0
  have hfailed : failing.result ≠ .ok () := fun hok =>
    absurd ((hsuccess.1 hok).1 .replace) (by decide)
  have hdone : done.result = .ok () := by decide +kernel
  obtain ⟨error, herror⟩ : ∃ error, failing.result = .error error := by
    cases hresult : failing.result with
    | ok => exact absurd hresult hfailed
    | error error => exact ⟨error, rfl⟩
  refine ⟨fresh_freshName?, ⟨error, herror⟩, (hentries error herror).1, fun state hstate => ?_, ?_⟩
  · rcases hsteps state hstate state (.refl _ _) with hsame | ⟨hok, -⟩
    · rw [hsame, load_storage]
    · exact absurd hok hfailed
  · have hload := hloaded hdone _ (.refl _ _) "p" 60 0
    rw [if_pos rfl, renewed?, if_pos (by decide), hreread TwoClusters.storable_apps,
      if_pos (by decide)] at hload
    exact hload

/-- A number whose text is read as its neighbour. -/
def uneven : Binary64 := ⟨false, 5443235302173035, 279⟩

/-- The neighbour. -/
def neighbour : Binary64 := ⟨false, 5443235302173036, 279⟩

/-- The number is read back as its neighbour. -/
theorem reread?_uneven :
    reread? (.number (.float uneven)) = some (.number (.float neighbour)) := by
  have hvalue : (Number.float uneven).literal.value? = some (.float neighbour) := by
    decide +kernel
  rw [reread?, Json.spelled, Written.value?, hvalue]
  rfl

/-- A document that is too deep is not read back. -/
theorem reread?_deep : reread? DeepDocument.snapshot.openapi = none := by
  have hdeep : ¬ DeepDocument.snapshot.openapi.depth ≤ documentDepth := by
    rw [DeepDocument.snapshot, DeepDocument.depth_nested]
    exact Nat.not_succ_le_self _
  have hvalue := Written.value?_spelled DeepDocument.snapshot.openapi
    DeepDocument.storable_snapshot.ordered DeepDocument.storable_snapshot.numbers documentDepth
  rw [if_neg hdeep] at hvalue
  exact hvalue

/-- Both snapshots are saved without a fault, and yet neither they nor the old one are loaded then:
a number of the first one is read differently, and the document of the second one is too deep. A
third one is not saved, and as long as there is the error, there is a temporary file. -/
theorem not_loaded_as_saved :
    let numbered : Snapshot := ⟨[], .number (.float uneven)⟩
    let first := saveRun noFaults storage [] "p" numbered 0
    let second := saveRun noFaults storage [] "p" DeepDocument.snapshot 0
    let third := saveRun (· = .replace) storage [] "p" old 0
    load storage.root [] "p" 60 0 = some old ∧
    (first.result = .ok () ∧ ∃ loaded,
      load (first.final storage.root) [] "p" 60 0 = some loaded ∧
        loaded ≠ old ∧ loaded ≠ numbered) ∧
    (second.result = .ok () ∧ load (second.final storage.root) [] "p" 60 0 = none) ∧
    third.result = .error (.notReplaced "clusters/p.json") ∧
      (third.returned storage.root).names (Cache.directory []) = [".tmp0", "p.json"] := by
  intro numbered first second third
  have hfirst : first.result = .ok () := by decide +kernel
  have hsecond : second.result = .ok () := by decide +kernel
  refine ⟨load_storage, ⟨hfirst, ⟨[], .number (.float neighbour)⟩, ?_, nofun, ?_⟩,
    ⟨hsecond, ?_⟩, ?_, ?_⟩
  · have hload := load_final_saveRunBy fresh_freshName? numbered 0 hfirst "p" 60 0
    rw [if_pos rfl, renewed?, if_pos (by decide), reread?_uneven] at hload
    exact hload
  · intro hsame
    have hnumbers : uneven = neighbour :=
      (Number.float.inj (Json.number.inj (Snapshot.mk.inj hsame).2)).symm
    revert hnumbers
    decide
  · have hload := load_final_saveRunBy fresh_freshName? DeepDocument.snapshot 0 hsecond "p" 60 0
    rw [if_pos rfl, renewed?, if_pos (by decide), reread?_deep] at hload
    exact hload
  · decide +kernel
  · decide +kernel

end Stale

end ApiCatalog.Cache
