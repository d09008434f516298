import ApiCatalog.Proofs.Cache.Places
import ApiCatalog.Run

/-!
# Taking a snapshot

`acquireFor` takes the snapshot of a context from the cache or from the server. What the server
gives is in the file of the context afterwards, if the file has changed at all (`kind?_fetch`). From
there it is read back as it is if the numbers of its document are, and in any case up to its
binary64 numbers (`Detail.ofSnapshot_of_saved`). So taking the snapshot a second time comes to the
same (`Follows.taken_eq`), whether it is cached, asked for or missing.
-/

namespace ApiCatalog

/-! ## The snapshot of a server -/

/-- An exchange that is continued comes to something if both parts do. -/
theorem Exchange.result_bind_eq_ok {α β : Type} {exchange : Exchange α} {next : α → Exchange β}
    {last : β} : (exchange >>= next).result = .ok last ↔
      ∃ value, exchange.result = .ok value ∧ (next value).result = .ok last := by
  show (exchange.bind next).result = .ok last ↔ _
  rw [Exchange.bind]
  cases exchange.result with
  | error => exact iff_of_false nofun nofun
  | ok value => exact ⟨fun h => ⟨value, rfl, h⟩, fun ⟨_, hvalue, h⟩ => Except.ok.inj hvalue ▸ h⟩

/-- The document that a server has is read from a JSON text. -/
theorem Json.legible_of_fetchDocument {server : Server} {document : Json}
    (h : (Json.fetchDocument server).result = .ok document) : document.Legible := by
  obtain ⟨body, -, hread⟩ := Exchange.result_bind_eq_ok.1 h
  split at hread
  next found hfound =>
    obtain rfl : found = document := Except.ok.inj hread
    exact Written.legible_of_read hfound
  next => cases hread

/-- The document of a snapshot is read from a JSON text. -/
theorem Snapshot.legible_of_fetch {server : Server} {snapshot : Snapshot}
    (h : (Snapshot.fetch server).result = .ok snapshot) : snapshot.openapi.Legible := by
  obtain ⟨announcements, -, hrest⟩ := Exchange.result_bind_eq_ok.1 h
  obtain ⟨openapi, hopenapi, hsnapshot⟩ := Exchange.result_bind_eq_ok.1 hrest
  obtain rfl : Snapshot.mk announcements openapi = snapshot := Except.ok.inj hsnapshot
  exact Json.legible_of_fetchDocument hopenapi

namespace Run

open Cache (Entry)

variable {o : Options} {config : Config} {w next : World} {context : String} {entry : Entry}
  {snapshot : Snapshot}

/-! ## The snapshot of a context -/

/-- A fresh snapshot is taken from the cache. -/
theorem acquireFor_of_load_some (hplain : o.refresh = false)
    (hload : Cache.load w.home.root cacheBase context config.cacheSeconds w.now = some snapshot) :
    acquireFor o config w context = ⟨.ok snapshot, w.home, []⟩ := by
  rw [acquireFor, hplain]
  simp only [Bool.false_eq_true, if_false, hload]

/-- Without one the server is asked. -/
theorem acquireFor_of_load_none (hplain : o.refresh = false)
    (hload : Cache.load w.home.root cacheBase context config.cacheSeconds w.now = none) :
    acquireFor o config w context = fetch w context := by
  rw [acquireFor, hplain]
  simp only [Bool.false_eq_true, if_false, hload]

/-- To refresh, the file of the context is cleared and the server is asked. -/
theorem acquireFor_of_refresh (hrefresh : o.refresh = true) {cleared : Storage}
    (hclear : Cache.clear w.home cacheBase context = .ok cleared) :
    acquireFor o config w context = fetch { w with home := cleared } context := by
  rw [acquireFor, if_pos hrefresh, hclear]

/-- The server is not asked if the file cannot be cleared. -/
theorem acquireFor_of_directory (hrefresh : o.refresh = true) (config : Config)
    (hplace : w.home.root.kind? (Cache.path cacheBase context) = some .directory) :
    acquireFor o config w context =
      ⟨.error (.cache (.notRemoved (w.home.shown (Cache.path cacheBase context)))),
        w.home, []⟩ := by
  rw [acquireFor, if_pos hrefresh, Cache.clear_of_directory hplace]

/-- Either the server is not asked and all stays as it is, or it is asked when the file of the
context may have been cleared. -/
theorem acquireFor_cases (o : Options) (config : Config) (w : World) (context : String) :
    (∃ result, acquireFor o config w context = ⟨result, w.home, []⟩) ∨
      ∃ home : Storage, home.label = w.home.label ∧
        Node.SameApart (Cache.path cacheBase context) w.home.root home.root ∧
        acquireFor o config w context = fetch { w with home } context := by
  cases hrefresh : o.refresh with
  | true =>
      by_cases hdirectory : w.home.root.kind? (Cache.path cacheBase context) = some .directory
      · exact .inl ⟨_, acquireFor_of_directory hrefresh config hdirectory⟩
      · obtain ⟨cleared, hclear, hlabel, hsame⟩ := Cache.exists_clear_of_ne hdirectory
        exact .inr ⟨cleared, hlabel, hsame, acquireFor_of_refresh hrefresh hclear⟩
  | false =>
      cases hload : Cache.load w.home.root cacheBase context config.cacheSeconds w.now with
      | some snapshot => exact .inl ⟨_, acquireFor_of_load_some hrefresh hload⟩
      | none => exact .inr ⟨w.home, rfl, .refl _ _, acquireFor_of_load_none hrefresh hload⟩

/-- What is asked of the server does not depend on anything else. -/
theorem result_fetch (w : World) (context : String) :
    (fetch w context).result = (Snapshot.fetch w.server).result.mapError fun error =>
      .fetch error (error.response? w.server) := by
  rw [fetch]
  cases (Snapshot.fetch w.server).result <;> rfl

/-- Nothing else is asked. -/
theorem requests_fetch (w : World) (context : String) :
    (fetch w context).requests = (Snapshot.fetch w.server).requests := by
  rw [fetch]
  cases (Snapshot.fetch w.server).result <;> rfl

/-- The file of the context is as it was, or it holds the snapshot of the server. -/
theorem kind?_fetch (w : World) (context : String) :
    (fetch w context).home.root.kind? (Cache.path cacheBase context) =
        w.home.root.kind? (Cache.path cacheBase context) ∨
      ∃ snapshot, (Snapshot.fetch w.server).result = .ok snapshot ∧
        (fetch w context).home.root.kind? (Cache.path cacheBase context) =
          some (.file (Entry.text ⟨snapshot, w.now⟩).toUTF8) := by
  rw [fetch]
  cases hfetch : (Snapshot.fetch w.server).result with
  | error => exact .inl rfl
  | ok snapshot =>
      have hfile :=
        (Cache.saves_saveRun w.faults.cache w.home cacheBase context snapshot w.now).file
      simp only [Cache.save]
      cases hresult :
          (Cache.saveRun w.faults.cache w.home cacheBase context snapshot w.now).result with
      | error =>
          rw [hresult] at hfile
          exact .inl hfile
      | ok =>
          rw [hresult] at hfile
          exact .inr ⟨snapshot, rfl, hfile⟩

/-- When the server is asked for another snapshot, nothing is left of what the file of the context
held before. -/
theorem kind?_acquireFor_of_refresh (hrefresh : o.refresh = true) (hordered : w.home.root.Ordered)
    (config : Config)
    (hplace : w.home.root.kind? (Cache.path cacheBase context) ≠ some .directory) :
    (acquireFor o config w context).home.root.isPresent (Cache.path cacheBase context) = false ∨
      ∃ snapshot, (Snapshot.fetch w.server).result = .ok snapshot ∧
        (acquireFor o config w context).home.root.kind? (Cache.path cacheBase context) =
          some (.file (Entry.text ⟨snapshot, w.now⟩).toUTF8) := by
  obtain ⟨cleared, hclear, -⟩ := Cache.exists_clear_of_ne hplace
  have hcleared := Cache.isPresent_of_clear hordered hclear
  rw [acquireFor_of_refresh hrefresh hclear]
  rcases kind?_fetch { w with home := cleared } context with hsame | hsaved
  · exact .inl ((Node.isPresent_congr hsame).trans hcleared)
  · exact .inr hsaved

/-! ## What is compared -/

/-- How closely two runs are compared: in full, or up to the causes of their errors. These may show
a binary64 number of the document. -/
inductive Detail where
  | full
  | outline

/-- What counts of a snapshot. -/
def Detail.ofSnapshot : Detail → Snapshot → Snapshot
  | .full, snapshot => snapshot
  | .outline, snapshot => snapshot.coarse

/-- What counts of the snapshot is read back from its text. -/
def Detail.Keeps : Detail → Snapshot → Prop
  | .full, snapshot => snapshot.openapi.NumbersReadBack
  | .outline, _ => True

/-- What counts of what stands in a saved file is that of the snapshot that was saved. -/
theorem Detail.ofSnapshot_of_saved (detail : Detail) (hkeeps : detail.Keeps snapshot) {root : Node}
    {place : List String} {now : Nat} (hfetch : (Snapshot.fetch w.server).result = .ok snapshot)
    (hfile : root.kind? place = some (.file (Entry.text ⟨snapshot, now⟩).toUTF8))
    (hstored : (root.content? place).bind Entry.ofContent? = some entry) :
    detail.ofSnapshot entry.snapshot = detail.ofSnapshot snapshot := by
  have hlegible := Snapshot.legible_of_fetch hfetch
  rw [Node.content?_eq_some_iff.2 hfile, Option.bind_some] at hstored
  cases detail with
  | full =>
      exact Entry.snapshot_of_ofContent?_text (e := ⟨snapshot, now⟩) ⟨hlegible.ordered, hkeeps⟩
        hstored
  | outline => exact Entry.coarse_of_ofContent?_text hlegible hstored

/-! ## The snapshot taken twice -/

/-- What counts of a snapshot, or why there is none. -/
def Detail.ofTaken (detail : Detail) (taken : Except RunError Snapshot) :
    Except RunError Snapshot :=
  taken.map detail.ofSnapshot

/-- The second run finds what the first one has left in the file of the context, at the same time
and with the same server. -/
structure Follows (w next : World) (o : Options) (config : Config) (context : String) : Prop where
  server : next.server = w.server
  now : next.now = w.now
  label : next.home.label = w.home.label
  file : next.home.root.kind? (Cache.path cacheBase context) =
    (acquireFor o config w context).home.root.kind? (Cache.path cacheBase context)

/-- The server gives the second run what it has given the first one. -/
theorem Follows.result_fetch (h : Follows w next o config context) (home before : Storage) :
    (fetch { next with home } context).result =
      (fetch { w with home := before } context).result := by
  rw [Run.result_fetch, Run.result_fetch, h.server]

/-- The file can be cleared again if it could be cleared before. -/
theorem Follows.not_directory (h : Follows w next o config context) (hrefresh : o.refresh = true)
    (hordered : w.home.root.Ordered)
    (hplace : w.home.root.kind? (Cache.path cacheBase context) ≠ some .directory) :
    next.home.root.kind? (Cache.path cacheBase context) ≠ some .directory := by
  rw [h.file]
  intro hdirectory
  rcases kind?_acquireFor_of_refresh hrefresh hordered config hplace with hgone | ⟨_, -, hsaved⟩
  · rw [Node.isPresent_eq_true_iff.2 (.inl hdirectory)] at hgone
    cases hgone
  · rw [hdirectory] at hsaved
    cases hsaved

/-- Refreshing twice comes to the same. -/
theorem Follows.result_of_refresh (h : Follows w next o config context)
    (hrefresh : o.refresh = true) (hordered : w.home.root.Ordered) :
    (acquireFor o config next context).result = (acquireFor o config w context).result := by
  by_cases hplace : w.home.root.kind? (Cache.path cacheBase context) = some .directory
  · have hsame := h.file
    rw [acquireFor_of_directory hrefresh config hplace] at hsame ⊢
    rw [acquireFor_of_directory hrefresh config (hsame.trans hplace), Storage.shown, Storage.shown,
      h.label]
  · obtain ⟨cleared, hclear, -⟩ := Cache.exists_clear_of_ne hplace
    obtain ⟨again, hagain, -⟩ :=
      Cache.exists_clear_of_ne (h.not_directory hrefresh hordered hplace)
    rw [acquireFor_of_refresh hrefresh hclear, acquireFor_of_refresh hrefresh hagain,
      h.result_fetch]

/-- What is loaded depends on the file of the context. -/
theorem load_congr {root other : Node} (seconds now : Nat)
    (h : other.kind? (Cache.path cacheBase context) = root.kind? (Cache.path cacheBase context)) :
    Cache.load other cacheBase context seconds now =
      Cache.load root cacheBase context seconds now := by
  rw [Cache.load, Cache.load, Node.content?_congr h]

/-- A snapshot that is loaded from the file that was left for it is the one that was asked for. -/
theorem Detail.ofTaken_of_load (detail : Detail) {snapshot loaded : Snapshot} {root : Node}
    {seconds now later : Nat} (hkeeps : detail.Keeps snapshot)
    (hfetch : (Snapshot.fetch w.server).result = .ok snapshot)
    (hfile : root.kind? (Cache.path cacheBase context) =
      some (.file (Entry.text ⟨snapshot, now⟩).toUTF8))
    (hload : Cache.load root cacheBase context seconds later = some loaded) :
    detail.ofTaken (.ok loaded) = detail.ofTaken (.ok snapshot) := by
  obtain ⟨entry, hstored, -, rfl⟩ := Cache.load_eq_some_iff.1 hload
  exact congrArg Except.ok (detail.ofSnapshot_of_saved hkeeps hfetch hfile hstored)

/-- A snapshot that is not cached is asked for, and then it is taken from the cache or asked for
again. -/
theorem Follows.taken_of_load_none (h : Follows w next o config context) (detail : Detail)
    (hkeeps : ∀ snapshot, (Snapshot.fetch w.server).result = .ok snapshot → detail.Keeps snapshot)
    (hplain : o.refresh = false)
    (hload : Cache.load w.home.root cacheBase context config.cacheSeconds w.now = none) :
    detail.ofTaken (acquireFor o config next context).result =
      detail.ofTaken (acquireFor o config w context).result := by
  have hfile := h.file
  rw [acquireFor_of_load_none hplain hload] at hfile ⊢
  cases hagain : Cache.load next.home.root cacheBase context config.cacheSeconds next.now with
  | none =>
      rw [acquireFor_of_load_none hplain hagain]
      exact congrArg detail.ofTaken (h.result_fetch next.home w.home)
  | some loaded =>
      rw [acquireFor_of_load_some hplain hagain]
      rcases kind?_fetch w context with hsame | ⟨snapshot, hfetch, hsaved⟩
      · -- Nothing was fresh before, and nothing has changed.
        rw [h.now, load_congr _ _ (hfile.trans hsame), hload] at hagain
        cases hagain
      · rw [Run.result_fetch, hfetch]
        exact detail.ofTaken_of_load (hkeeps snapshot hfetch) hfetch (hfile.trans hsaved) hagain

/-- Taking the snapshot of a context twice comes to the same. -/
theorem Follows.taken_eq (h : Follows w next o config context) (detail : Detail)
    (hkeeps : ∀ snapshot, (Snapshot.fetch w.server).result = .ok snapshot → detail.Keeps snapshot)
    (hordered : w.home.root.Ordered) :
    detail.ofTaken (acquireFor o config next context).result =
      detail.ofTaken (acquireFor o config w context).result := by
  -- The second run goes the way of the first one, unless that has stored what it had missed.
  cases hrefresh : o.refresh with
  | true => exact congrArg detail.ofTaken (h.result_of_refresh hrefresh hordered)
  | false =>
      cases hload : Cache.load w.home.root cacheBase context config.cacheSeconds w.now with
      | none => exact h.taken_of_load_none detail hkeeps hrefresh hload
      | some snapshot =>
          have hfile := h.file
          rw [acquireFor_of_load_some hrefresh hload] at hfile ⊢
          rw [← h.now, ← load_congr _ _ hfile] at hload
          rw [acquireFor_of_load_some hrefresh hload]

end Run

end ApiCatalog
