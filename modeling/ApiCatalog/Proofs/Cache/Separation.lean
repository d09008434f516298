import ApiCatalog.Proofs.Cache.History

/-!
# Contexts apart

Contexts share a directory, and a context reaches its file by the characters of its name that are
kept. So two contexts stay apart exactly if they have different files, as two contexts have whose
names are kept as they are (`separate_iff_fileName_ne`). Names that differ in other characters only
have one file, and then the snapshot of one cluster is loaded for the other one
(`loaded_for_another_context`).
-/

namespace ApiCatalog.Cache

variable {first second : String}

/-- What is loaded for the first context never comes from the second one. No operation on the second
context changes it, and after a history it is either what was loaded before or what a save left
that was the last change of the file and was not made for the second context. -/
structure Separate (first second : String) : Prop where
  unaffected : ∀ (base : List String) (s : Storage) (op : Operation), s.root.Ordered →
    op.context = second → ∀ seconds now,
      load (op.perform base s).2.root base first seconds now = load s.root base first seconds now
  source : ∀ (base : List String) (s : Storage) (history : List Operation), s.root.Ordered →
    ∀ seconds now snapshot,
      load (after base s history).root base first seconds now = some snapshot →
      (lastChange? (fileName first) (carriedOut base s history) = none ∧
        load s.root base first seconds now = some snapshot) ∨
      ∃ context saved time faults,
        lastChange? (fileName first) (carriedOut base s history) =
          some (.save context saved time faults) ∧
        context ≠ second ∧
        fresh? (some (Entry.text ⟨saved, time.toNat⟩).toUTF8) seconds now = some snapshot ∧
        (saved.Storable → snapshot = saved)

/-- A snapshot that is fresh in the file of an entry is that of the entry. -/
theorem eq_of_fresh?_text {e : Entry} {seconds now : Nat} {snapshot : Snapshot}
    (hsnapshot : e.snapshot.Storable) (htime : e.createdAt < NumberLiteral.wordLimit)
    (h : fresh? (some e.text.toUTF8) seconds now = some snapshot) : snapshot = e.snapshot := by
  rw [fresh?_text hsnapshot htime, Option.ite_none_right_eq_some] at h
  exact (Option.some.inj h.2).symm

/-- Contexts with different files stay apart. -/
theorem separate_of_fileName_ne (hne : fileName first ≠ fileName second) :
    Separate first second := by
  constructor
  · intro base s op hordered hcontext seconds now
    have hpath : path base first ≠ path base op.context := by
      rw [hcontext]
      exact fun h => hne (path_eq_path_iff.1 h)
    rw [load_eq_fresh?, load_eq_fresh?, content?_perform_of_ne hordered hpath]
  · intro base s history hordered seconds now snapshot hload
    rw [load_after hordered] at hload
    cases hlast : lastChange? (fileName first) (carriedOut base s history) with
    | none =>
        rw [hlast] at hload
        exact .inl ⟨rfl, hload⟩
    | some op =>
        rw [hlast] at hload
        cases op with
        | load | clear => cases hload
        | save context saved time faults =>
            have hfile : fileName context = fileName first :=
              of_decide_eq_true (lastChange?_spec hlast).2
            refine .inr ⟨context, saved, time, faults, rfl, ?_, hload, fun hsaved => ?_⟩
            · rintro rfl
              exact hne hfile.symm
            · exact eq_of_fresh?_text (e := ⟨saved, time.toNat⟩) hsaved time.toNat_lt hload

/-- A tree with nothing but the file of a context. -/
def single (context : String) (content : ByteArray) : Node :=
  .directory [("clusters", .directory [(fileName context, .file content)])]

/-- The tree with a single file is in order. -/
theorem ordered_single (context : String) (content : ByteArray) :
    (single context content).Ordered := by
  have hfile : (Node.file content).Ordered := Node.ordered_of_isLeaf fun _ => nofun
  have hone : ∀ {name : String} {child : Node}, child.Ordered →
      (Node.directory [(name, child)]).Ordered := fun {name child} hchild =>
    Node.ordered_put Node.ordered_emptyDirectory hchild
  exact hone (hone hfile)

/-- The single file is found where the context has its own. -/
theorem content?_single (context : String) (content : ByteArray) :
    (single context content).content? (path [] context) = some content := by
  simp [single, path, directory, Node.content?, Node.at?, Keyed.get?]

/-- Contexts with one file do not stay apart: what is loaded for one is cleared for the other. -/
theorem not_separate_of_fileName_eq (heq : fileName first = fileName second) :
    ¬ Separate first second := by
  intro hseparate
  have hpath : path [] first = path [] second := path_eq_path_iff.2 heq
  let stored : Entry := ⟨⟨[], .null⟩, 0⟩
  let s : Storage := { root := single second stored.text.toUTF8 }
  have hordered : s.root.Ordered := ordered_single second _
  have hcontent : s.root.content? (path [] second) = some stored.text.toUTF8 :=
    content?_single second _
  obtain ⟨cleared, hclear⟩ := exists_clear hcontent
  have hperform : ((Operation.clear second).perform [] s).2 = cleared := by
    rw [Operation.perform, hclear]
  have hbefore : load s.root [] first 1 0 = some stored.snapshot := by
    rw [load_eq_fresh?, hpath, hcontent]
    exact fresh?_text (e := stored) ⟨trivial, trivial⟩ (by decide) 1 0
  have hafter : load cleared.root [] first 1 0 = none := by
    rw [load_eq_fresh?, hpath, (replaced_clear hordered hclear).content?_self]
    rfl
  have hsame := hseparate.unaffected [] s (.clear second) hordered rfl 1 0
  rw [hperform, hafter, hbefore] at hsame
  cases hsame

/-- Contexts have one file exactly if their names are spelled alike in the names of files. -/
theorem fileName_eq_iff :
    fileName first = fileName second ↔
      first.toList.map fileChar = second.toList.map fileChar := by
  rw [← String.toList_inj, toList_fileName, toList_fileName, List.append_cancel_right_eq]

/-- Two contexts stay apart exactly if they have different files, and they do if their names differ
and have only characters that are kept. -/
theorem separate_iff_fileName_ne (first second : String) :
    (Separate first second ↔ fileName first ≠ fileName second) ∧
      ((∀ c ∈ first.toList, fileChar c = c) → (∀ c ∈ second.toList, fileChar c = c) →
        first ≠ second → Separate first second) := by
  refine ⟨⟨fun hseparate heq => not_separate_of_fileName_eq heq hseparate,
    separate_of_fileName_ne⟩, fun hfirst hsecond hne => ?_⟩
  refine separate_of_fileName_ne fun heq => hne ?_
  rw [fileName_eq_iff, List.map_congr_left hfirst, List.map_congr_left hsecond, List.map_id',
    List.map_id', String.toList_inj] at heq
  exact heq

/-- Whether all characters of a text are kept can be computed. -/
theorem forall_kept {text : String} (h : text.toList.all (fun c => fileChar c = c) = true) :
    ∀ c ∈ text.toList, fileChar c = c := fun c hc =>
  of_decide_eq_true (List.all_eq_true.1 h c hc)

/-- Contexts whose names differ in a letter stay apart. -/
theorem separate_prod_staging :
    ((∀ c ∈ "prod".toList, fileChar c = c) ∧ (∀ c ∈ "staging".toList, fileChar c = c) ∧
      "prod" ≠ "staging") ∧ Separate "prod" "staging" := by
  have hprod : ∀ c ∈ "prod".toList, fileChar c = c := forall_kept (by decide)
  have hstaging : ∀ c ∈ "staging".toList, fileChar c = c := forall_kept (by decide)
  have hne : "prod" ≠ "staging" := by decide
  exact ⟨⟨hprod, hstaging, hne⟩,
    (separate_iff_fileName_ne "prod" "staging").2 hprod hstaging hne⟩

/-- What is saved for one context is loaded for another one whose name differs in characters that
are not kept. -/
theorem loaded_for_another_context :
    let history : List Operation := [.save "prod:eu" ⟨[], .null⟩ 0 noFaults]
    "prod:eu" ≠ "prod_eu" ∧ carriedOut ["cache"] {} history = history ∧
      load (after ["cache"] {} history).root ["cache"] "prod_eu" 60 0 = some ⟨[], .null⟩ := by
  intro history
  have hdone : carriedOut ["cache"] {} history = history :=
    (carriedOut_sublist ["cache"] {} history).eq_of_length (by decide +kernel)
  have hfile : fileName "prod:eu" = fileName "prod_eu" := by decide +kernel
  have hlast : lastChange? (fileName "prod_eu") history =
      some (.save "prod:eu" ⟨[], .null⟩ 0 noFaults) := by
    simp [history, lastChange?, Operation.changes, hfile]
  refine ⟨by decide, hdone, ?_⟩
  rw [load_after Node.ordered_emptyDirectory, hdone, hlast]
  exact fresh?_text (e := ⟨⟨[], .null⟩, 0⟩) ⟨trivial, trivial⟩ (by decide) 60 0

end ApiCatalog.Cache
