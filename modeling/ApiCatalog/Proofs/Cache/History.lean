import ApiCatalog.Proofs.Cache.Saving

/-!
# Histories of a cache

A history is a list of operations that are performed one after the other on the files of a cache.
`content?_after` says what the file of a context holds after a history: what was left there by the
last operation on a context with this file that was carried out, whatever was done to other files.

`load_after_history` reads the same off what is loaded: the cache is a map from the names of files
to snapshots with their times. Documents in which arrays and objects stand too deep are the
exception. They are stored, and the reader refuses them (`deep_document_not_loaded`).
-/

namespace ApiCatalog.Cache

open Node (Replaced)

/-- An operation on the cache, with the reading of the clock, the time to live, both in seconds, and
the steps that fail for reasons outside the files. -/
inductive Operation where
  | save (context : String) (snapshot : Snapshot) (now : UInt64) (faults : Faults)
  | load (context : String) (seconds now : UInt64)
  | clear (context : String)

namespace Operation

/-- The context that the operation is about. -/
def context : Operation → String
  | .save context .. | .load context _ _ | .clear context => context

/-- Perform an operation, and say whether it was carried out. -/
def perform (base : List String) (s : Storage) : Operation → Bool × Storage
  | .save context snapshot now faults =>
    let run := saveRun faults s base context snapshot now.toNat
    (run.result.isOk, { s with root := run.final s.root })
  | .load .. => (true, s)
  | .clear context =>
    match Cache.clear s base context with
    | .ok cleared => (true, cleared)
    | .error _ => (false, s)

/-- The content that the operation leaves in the file of its context. -/
def leaves (before : Option ByteArray) : Operation → Option ByteArray
  | .save _ snapshot now _ => some (Entry.text ⟨snapshot, now.toNat⟩).toUTF8
  | .load .. => before
  | .clear _ => none

/-- The operation saves or clears a context whose file has the name. -/
def changes (name : String) : Operation → Bool
  | .save context .. | .clear context => fileName context = name
  | .load .. => false

end Operation

variable {s : Storage} {base : List String}

/-- The files after a history. -/
def after (base : List String) (s : Storage) (history : List Operation) : Storage :=
  history.foldl (fun s op => (op.perform base s).2) s

/-- The operations of a history that are carried out. -/
def carriedOut (base : List String) : Storage → List Operation → List Operation
  | _, [] => []
  | s, op :: history =>
    let (done, next) := op.perform base s
    if done then op :: carriedOut base next history else carriedOut base next history

/-- The last operation that saves or clears a context whose file has the name. -/
def lastChange? (name : String) (history : List Operation) : Option Operation :=
  history.reverse.find? (·.changes name)

/-- An operation changes the file of its context only, and no file if it is not carried out. -/
theorem replaced_perform {op : Operation} {done : Bool} {next : Storage}
    (hordered : s.root.Ordered) (h : op.perform base s = (done, next)) :
    Replaced s.root next.root (path base op.context)
      (if done then op.leaves (s.root.content? (path base op.context))
        else s.root.content? (path base op.context)) := by
  have hsame : Node.Unchanged s.root s.root := ⟨hordered, fun _ => rfl⟩
  cases op with
  | load context seconds now =>
      cases h
      exact hsame.replaced _
  | clear context =>
      simp only [Operation.perform] at h
      split at h
      next cleared hclear =>
        cases h
        exact replaced_clear hordered hclear
      next =>
        cases h
        exact hsame.replaced _
  | save context snapshot now faults =>
      have hsave := replaces_saveRun faults hordered base context snapshot now.toNat
      simp only [Operation.perform] at h
      generalize saveRun faults s base context snapshot now.toNat = run at h hsave
      obtain ⟨states, result⟩ := run
      cases h
      cases result with
      | ok => exact hsave
      | error => exact hsave.replaced _

/-- Only the file of its context is changed by an operation. -/
theorem content?_perform_of_ne (hordered : s.root.Ordered) {op : Operation} {other : List String}
    (hne : other ≠ path base op.context) :
    (op.perform base s).2.root.content? other = s.root.content? other :=
  (replaced_perform hordered rfl).content?_of_ne other hne

/-- What one operation leaves in the file with a name. -/
theorem content?_perform {op : Operation} {done : Bool} {next : Storage}
    (hordered : s.root.Ordered) (h : op.perform base s = (done, next)) (name : String) :
    next.root.content? (directory base ++ [name]) =
      if done && op.changes name then op.leaves none
      else s.root.content? (directory base ++ [name]) := by
  have hreplaced := replaced_perform hordered h
  by_cases hname : fileName op.context = name
  · have hpath : path base op.context = directory base ++ [name] := by rw [path, hname]
    rw [hpath] at hreplaced
    rw [hreplaced.content?_self]
    cases done with
    | false => rfl
    | true =>
        cases op with
        | load => rfl
        | save | clear =>
            simp only [Operation.context] at hname
            simp [Operation.changes, Operation.leaves, hname]
  · have hne : directory base ++ [name] ≠ path base op.context := by
      intro heq
      exact hname (List.cons.inj (List.append_cancel_left heq)).1.symm
    have hchanges : op.changes name = false := by
      cases op with
      | load => rfl
      | save | clear => exact decide_eq_false hname
    rw [hreplaced.content?_of_ne _ hne, hchanges, Bool.and_false, if_neg Bool.false_ne_true]

/-- An operation that comes first is the last change if no other one follows. -/
theorem lastChange?_cons (name : String) (op : Operation) (history : List Operation) :
    lastChange? name (op :: history) =
      (lastChange? name history).or (if op.changes name then some op else none) := by
  rw [lastChange?, List.reverse_cons, List.find?_append, lastChange?, List.find?_singleton]

/-- After a history the file with a name holds what the last change that was carried out left in
it. -/
theorem content?_after (hordered : s.root.Ordered) (history : List Operation) (name : String) :
    (after base s history).root.content? (directory base ++ [name]) =
      match lastChange? name (carriedOut base s history) with
      | some op => op.leaves none
      | none => s.root.content? (directory base ++ [name]) := by
  induction history generalizing s with
  | nil => rfl
  | cons op history ih =>
      cases hperform : op.perform base s with
      | mk done next =>
          have hstep := content?_perform hordered hperform name
          have hafter : after base s (op :: history) = after base next history := by
            rw [after, List.foldl_cons, hperform, after]
          rw [hafter, ih (replaced_perform hordered hperform).ordered, hstep, carriedOut, hperform]
          cases done with
          | false => simp
          | true =>
              simp only [if_true, lastChange?_cons, Bool.true_and]
              cases lastChange? name (carriedOut base next history) with
              | some last => rfl
              | none => cases op.changes name <;> rfl

/-- The operations that are carried out are some of the history, in its order. -/
theorem carriedOut_sublist (base : List String) (s : Storage) (history : List Operation) :
    (carriedOut base s history).Sublist history := by
  induction history generalizing s with
  | nil => exact List.Sublist.slnil
  | cons op history ih =>
      rw [carriedOut]
      dsimp only
      split
      · exact (ih _).cons_cons op
      · exact (ih _).cons op

/-- The last change is an operation of the history, and it changes the file with the name. -/
theorem lastChange?_spec {name : String} {history : List Operation} {op : Operation}
    (h : lastChange? name history = some op) : op ∈ history ∧ op.changes name = true :=
  ⟨List.mem_reverse.1 (List.mem_of_find?_eq_some h), List.find?_some h⟩

/-- What is loaded after a history is what is fresh in the content that the last change left. -/
theorem load_after (hordered : s.root.Ordered) (history : List Operation) (context : String)
    (seconds now : Nat) :
    load (after base s history).root base context seconds now =
      match lastChange? (fileName context) (carriedOut base s history) with
      | some op => fresh? (op.leaves none) seconds now
      | none => load s.root base context seconds now := by
  rw [load_eq_fresh?, path, content?_after hordered]
  cases lastChange? (fileName context) (carriedOut base s history) <;> rfl

/-- Every snapshot that the history saves can be stored. -/
def Storable (history : List Operation) : Prop :=
  ∀ context snapshot now faults,
    .save context snapshot now faults ∈ history → snapshot.Storable

/-- A snapshot is fresh in what an operation leaves if the operation saved it, not too long ago, and
its document is not too deep. -/
theorem fresh?_leaves_eq_some_iff {history : List Operation} (hstorable : Storable history)
    {op : Operation} (hmem : op ∈ history) (seconds now : Nat) (snapshot : Snapshot) :
    fresh? (op.leaves none) seconds now = some snapshot ↔
      ∃ context saved faults, op = .save context snapshot saved faults ∧
        now - saved.toNat < seconds ∧ snapshot.openapi.depth ≤ documentDepth := by
  cases op with
  | load | clear =>
      refine ⟨nofun, fun h => ?_⟩
      obtain ⟨_, _, _, hop, _⟩ := h
      cases hop
  | save context stored saved faults =>
      have hstored := hstorable context stored saved faults hmem
      have htext := fresh?_text (e := ⟨stored, saved.toNat⟩) hstored saved.toNat_lt seconds now
      rw [Operation.leaves, htext, Option.ite_none_right_eq_some]
      constructor
      · rintro ⟨⟨hdepth, hfresh⟩, hsame⟩
        cases hsame
        exact ⟨context, saved, faults, rfl, hfresh, hdepth⟩
      · rintro ⟨other, time, steps, hop, hfresh, hdepth⟩
        cases hop
        exact ⟨⟨hdepth, hfresh⟩, rfl⟩

/-- From no file on, what is loaded after a history of operations that are all carried out is the
snapshot that the last change of the file saved, if it is fresh and its document is not too deep.
Every operation changes the file of its context only, and what is loaded depends on this file only.
It is a direct child of the directory of the cache. -/
theorem load_after_history {history : List Operation} (hordered : s.root.Ordered)
    (hempty : ∀ name, s.root.content? (directory base ++ [name]) = none)
    (hstorable : Storable history) (hdone : carriedOut base s history = history) :
    (∀ context seconds now snapshot,
      load (after base s history).root base context seconds now = some snapshot ↔
        ∃ other saved faults,
          lastChange? (fileName context) history = some (.save other snapshot saved faults) ∧
            now - saved.toNat < seconds ∧ snapshot.openapi.depth ≤ documentDepth) ∧
    (∀ (t : Storage) (op : Operation) other, t.root.Ordered → other ≠ path base op.context →
      (op.perform base t).2.root.content? other = t.root.content? other) ∧
    (∀ (root changed : Node) context seconds now,
      changed.content? (path base context) = root.content? (path base context) →
      load changed base context seconds now = load root base context seconds now) ∧
    ∀ context, path base context = directory base ++ [fileName context] ∧
      '/' ∉ (fileName context).toList ∧
      fileName context ≠ "" ∧ fileName context ≠ "." ∧ fileName context ≠ ".." := by
  refine ⟨fun context seconds now snapshot => ?_, fun t op other hother hne => ?_, ?_, ?_⟩
  · rw [load_after hordered, hdone]
    cases hlast : lastChange? (fileName context) history with
    | none =>
        have hnone : load s.root base context seconds now = none := by
          rw [load_eq_fresh?, path, hempty]
          rfl
        simp only [hnone, reduceCtorEq, false_and, exists_false]
    | some op =>
        have hmem := (lastChange?_spec hlast).1
        simp only [fresh?_leaves_eq_some_iff hstorable hmem, Option.some.injEq]
  · exact content?_perform_of_ne hother hne
  · intro root changed context seconds now hsame
    rw [load_eq_fresh?, load_eq_fresh?, hsame]
  · exact fun context => ⟨rfl, slash_not_mem_fileName context, fileName_ne_dots context⟩

namespace TwoClusters

/-- A snapshot whose document has a null and a negative number. -/
def apps : Snapshot where
  announcements := [⟨"apps/v1", [{ name := "deployments", shortNames := some ["deploy"] }]⟩]
  openapi := .object [("definitions", .array [.null, .number (.int (-7))])]

/-- Of two clusters one is saved, and the other is saved and cleared under a name with the same
file. -/
def history : List Operation :=
  [.save "prod" apps 100 noFaults, .save "arn:dev" apps 110 noFaults, .load "arn:dev" 60 120,
    .clear "arn/dev"]

/-- The snapshot can be stored. -/
theorem storable_apps : apps.Storable := by
  constructor
  · refine ⟨?_, ⟨trivial, trivial, trivial⟩, trivial⟩
    decide
  · exact ⟨⟨trivial, Number.readsBack_int (by decide) (by decide), trivial⟩, trivial⟩

/-- All operations of the history are carried out. -/
theorem carriedOut_history : carriedOut ["cache"] {} history = history :=
  (carriedOut_sublist ["cache"] {} history).eq_of_length (by decide +kernel)

/-- The file of the first cluster was changed last when it was saved. -/
theorem lastChange?_prod :
    lastChange? (fileName "prod") history = some (.save "prod" apps 100 noFaults) := by
  have hdev : fileName "arn/dev" ≠ fileName "prod" ∧ fileName "arn:dev" ≠ fileName "prod" := by
    decide +kernel
  simp [lastChange?, history, Operation.changes, hdev]

/-- The file of the second cluster was changed last when the other name was cleared. -/
theorem lastChange?_dev : lastChange? (fileName "arn:dev") history = some (.clear "arn/dev") := by
  have hdev : fileName "arn/dev" = fileName "arn:dev" := by decide +kernel
  simp [lastChange?, history, Operation.changes, hdev]

/-- The snapshot of the first cluster is loaded while it is fresh, also when the clock went back,
and none of the second. -/
theorem load_prod_after_history :
    ((Node.directory []).Ordered ∧
      (∀ name, (Node.directory []).content? (directory ["cache"] ++ [name]) = none) ∧
      Storable history ∧ carriedOut ["cache"] {} history = history) ∧
    load (after ["cache"] {} history).root ["cache"] "prod" 60 159 = some apps ∧
    load (after ["cache"] {} history).root ["cache"] "prod" 60 160 = none ∧
    load (after ["cache"] {} history).root ["cache"] "prod" 1 40 = some apps ∧
    load (after ["cache"] {} history).root ["cache"] "arn:dev" 60 120 = none := by
  have hempty : ∀ name, (Node.directory []).content? (directory ["cache"] ++ [name]) = none :=
    fun name => Node.content?_emptyDirectory _
  have hstorable : Storable history := by
    intro context snapshot now faults hmem
    simp only [history, List.mem_cons, Operation.save.injEq, reduceCtorEq, List.not_mem_nil,
      or_false] at hmem
    rcases hmem with ⟨-, rfl, -⟩ | ⟨-, rfl, -⟩ <;> exact storable_apps
  obtain ⟨hload, -⟩ := load_after_history (s := {}) Node.ordered_emptyDirectory hempty hstorable
    carriedOut_history
  refine ⟨⟨Node.ordered_emptyDirectory, hempty, hstorable, carriedOut_history⟩, ?_, ?_, ?_, ?_⟩
  · exact (hload "prod" 60 159 apps).2
      ⟨"prod", 100, noFaults, lastChange?_prod, by decide, by decide⟩
  · refine Option.eq_none_iff_forall_ne_some.2 fun snapshot hsome => ?_
    obtain ⟨other, saved, faults, hlast, hfresh, -⟩ := (hload "prod" 60 160 snapshot).1 hsome
    rw [lastChange?_prod] at hlast
    cases hlast
    exact absurd hfresh (by decide)
  · exact (hload "prod" 1 40 apps).2
      ⟨"prod", 100, noFaults, lastChange?_prod, by decide, by decide⟩
  · refine Option.eq_none_iff_forall_ne_some.2 fun snapshot hsome => ?_
    obtain ⟨other, saved, faults, hlast, -⟩ := (hload "arn:dev" 60 120 snapshot).1 hsome
    rw [lastChange?_dev] at hlast
    cases hlast

end TwoClusters

namespace DeepDocument

/-- An array in an array and so on, as deep as the number says. -/
def nested : Nat → Json
  | 0 => .null
  | depth + 1 => .array [nested depth]

/-- The arrays are as deep as the number says. -/
theorem depth_nested (n : Nat) : (nested n).depth = n := by
  induction n with
  | zero => rfl
  | succ n ih => rw [nested, Json.depth, Json.itemsDepth, Json.itemsDepth, ih, Nat.max_zero]

/-- A snapshot whose document is one level too deep. -/
def snapshot : Snapshot := ⟨[], nested (documentDepth + 1)⟩

/-- But for its depth the snapshot can be stored. -/
theorem storable_snapshot : snapshot.Storable := by
  have hnested : ∀ n, (nested n).Ordered ∧ (nested n).NumbersReadBack := by
    intro n
    induction n with
    | zero => exact ⟨trivial, trivial⟩
    | succ n ih => exact ⟨⟨ih.1, trivial⟩, ⟨ih.2, trivial⟩⟩
  exact ⟨(hnested _).1, (hnested _).2⟩

/-- A snapshot was saved last and is fresh, and yet it is not loaded: its document is too deep. -/
theorem deep_document_not_loaded :
    let history : List Operation := [.save "prod" snapshot 0 noFaults]
    Storable history ∧ carriedOut ["cache"] {} history = history ∧
      (∃ other saved faults,
        lastChange? (fileName "prod") history = some (.save other snapshot saved faults) ∧
          0 - saved.toNat < 60) ∧
      load (after ["cache"] {} history).root ["cache"] "prod" 60 0 = none := by
  intro history
  have hdone : carriedOut ["cache"] {} history = history :=
    (carriedOut_sublist ["cache"] {} history).eq_of_length (by decide +kernel)
  have hlast : lastChange? (fileName "prod") history = some (.save "prod" snapshot 0 noFaults) := by
    simp [history, lastChange?, Operation.changes]
  refine ⟨?_, hdone, ⟨"prod", 0, noFaults, hlast, by decide⟩, ?_⟩
  · intro context saved now faults hmem
    cases List.mem_singleton.1 hmem
    exact storable_snapshot
  · rw [load_after Node.ordered_emptyDirectory, hdone, hlast]
    have hdeep : ¬ snapshot.openapi.depth ≤ documentDepth := by
      rw [snapshot, depth_nested]
      exact Nat.not_succ_le_self _
    have htext := fresh?_text (e := ⟨snapshot, 0⟩) storable_snapshot (by decide) 60 0
    rw [if_neg fun h => hdeep h.1] at htext
    exact htext

end DeepDocument

end ApiCatalog.Cache
