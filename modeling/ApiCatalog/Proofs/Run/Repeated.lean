import ApiCatalog.Proofs.Run.Cached

/-!
# Runs on saved defaults

A run that saves its context, group and version leaves a configuration from which the rest of the
command line is carried out in the same way (`reply_on_saved_defaults`). The cache that the first
run leaves behind makes no difference but one: taking the snapshot of a context twice comes to the
same, whether it is cached, asked for or missing (`Follows.taken_eq`), but for the binary64 numbers
of its document. These can be seen in the cause of an error (`Uneven.causes_differ`).
-/

namespace ApiCatalog.Run

variable {o : Options} {config stored : Config} {w next : World} {context : String}

/-! ## The second run -/

/-- What was saved is what the rest of the options lead to. -/
theorem configuration_on_saved (h : Saves w.home o stored) (hfault : w.faults.config = none) :
    configuration (later w o w.now) o.withoutDefaults = .ok (stored.override o) := by
  have hfile := (kind?_configPath_openLog _).trans (kind?_configPath_perform w o)
  rw [hfault] at hfile
  have hload : Config.load (openLog (later w o w.now).home).2 ⟨configPath⟩ =
      .ok (stored.override o) := (saves_openLog_iff.2 h).load_later hfile
  have hunsaved : o.withoutDefaults.save ≠ true := Bool.false_ne_true
  have hconfigure : configuration (later w o w.now) o.withoutDefaults = _ :=
    configure_of_writable hload fun hsave => absurd hsave hunsaved
  rwa [Config.override_of_none rfl rfl rfl] at hconfigure

/-- The first run goes on with the configuration that it saves. -/
theorem configuration_of_saves (h : Saves w.home o stored) (hfault : w.faults.config = none) :
    configuration w o = .ok (stored.override o) :=
  configure_of_writable (saves_openLog_iff.2 h).load
    fun _ => ⟨(saves_openLog_iff.2 h).writable, hfault⟩

/-- The second run says what the first one has said, as far as it counts. -/
theorem Detail.reply_on_saved (detail : Detail) (wording : Wording)
    (hkeeps : ∀ snapshot, (Snapshot.fetch w.server).result = .ok snapshot → detail.Keeps snapshot)
    (h : Saves w.home o stored) (hfault : w.faults.config = none)
    (hordered : w.home.root.Ordered) :
    detail.ofReply ((perform (later w o w.now) o.withoutDefaults).reply wording) =
      detail.ofReply ((perform w o).reply wording) := by
  have hfirst := configuration_of_saves h hfault
  have hsecond := configuration_on_saved h hfault
  rw [Outcome.reply, Outcome.reply]
  -- With the same configuration both runs come to the same context, or to none.
  cases hconnect : connect w.kubeconfig (stored.override o).context with
  | error error =>
      have hagain : connect (later w o w.now).kubeconfig (stored.override o).context =
          .error error := hconnect
      rw [(perform_of_connect_error hfirst hconnect).1,
        (perform_of_connect_error hsecond hagain).1]
  | ok context =>
      have hselects : Selects w o (stored.override o) context := ⟨hfirst, hconnect⟩
      have hagain : Selects (later w o w.now) o.withoutDefaults (stored.override o) context :=
        ⟨hsecond, hconnect⟩
      have hfollows : Follows (configured w o) (configured (later w o w.now) o.withoutDefaults) o
          (stored.override o) context := by
        refine ⟨rfl, rfl, ?_, ?_⟩
        · rw [label_configured, label_configured]
          exact label_perform w o
        · rw [kind?_cachePath_configured, later, (perform_of_selects hselects).2.1]
      rw [(perform_of_selects hselects).1, (perform_of_selects hagain).1]
      exact detail.ofReply_bind_present wording o (stored.override o)
        (hfollows.taken_eq detail hkeeps (ordered_configured o hordered))

/-- The second run leaves the file of the configuration as it is. -/
theorem kind?_configPath_on_saved (h : Saves w.home o stored) (hfault : w.faults.config = none) :
    (perform (later w o w.now) o.withoutDefaults).home.root.kind? configPath =
      some (.file (stored.override o).text.toUTF8) := by
  have hfirst := (kind?_configPath_perform w o).trans
    ((saves_openLog_iff.2 h).kind?_configPath (Config.left?_of_eq_none hfault _))
  rw [kind?_configPath_perform, kind?_configPath_of_not_saves, kind?_configPath_openLog]
  · exact hfirst
  · intro _ hagain
    cases hagain.save

/-- The core group is saved as the empty group, which admits no other one. -/
theorem admits_override_core (config : Config)
    (hgroup : o.group = some Table.coreGroup ∨ o.group = some "") (gv : GroupVersion) :
    (config.override o).restriction.admits gv = true ↔
      gv.group = "" ∧ (config.override o).apiVersion.all (· = gv.version) = true := by
  have hcore : (config.override o).group = some "" := by
    rw [Config.override]
    rcases hgroup with hgroup | hgroup <;> rw [hgroup] <;> rfl
  rw [Config.restriction, Restriction.admits, hcore, Bool.and_eq_true, Option.all_some,
    decide_eq_true_eq, eq_comm]

/-- A command line that saves its context, group and version need not give them again. Carried out
without them on the files that it has left, which were in a tree in order, it is replied the same:
the code, what is printed and the message of the error, and also the causes of the error if the
numbers of the server's document are read back. The configuration stays as it was saved. What is
loaded then is the stored configuration with what was given: the core group, by either of its names,
is loaded as a group that admits no other one, and what was not given is as it was stored before. -/
theorem reply_on_saved_defaults {words : List String} (h : Configures w words o stored)
    (hfault : w.faults.config = none) (hordered : w.home.root.Ordered) (wording : Wording) :
    Options.read (CommandLine.withoutDefaults words) = .ok o.withoutDefaults ∧
    (∀ again, Options.read again = .ok o.withoutDefaults →
      (replyTo wording { w with home := homeAfter w words } again).map Reply.outline =
        (replyTo wording w words).map Reply.outline ∧
      ((∀ snapshot, (Snapshot.fetch w.server).result = .ok snapshot →
          snapshot.openapi.NumbersReadBack) →
        replyTo wording { w with home := homeAfter w words } again = replyTo wording w words) ∧
      (homeAfter { w with home := homeAfter w words } again).root.kind? configPath =
        (homeAfter w words).root.kind? configPath) ∧
    (homeAfter w words).root.content? configPath = some (stored.override o).text.toUTF8 ∧
    Config.load (homeAfter w words) ⟨configPath⟩ = .ok (stored.override o) ∧
    (o.group = some Table.coreGroup ∨ o.group = some "" → ∀ gv,
      ((stored.override o).restriction.admits gv = true ↔
        gv.group = "" ∧ (stored.override o).apiVersion.all (· = gv.version) = true)) ∧
    (o.context = none → (stored.override o).context = stored.context) ∧
    (o.group = none → (stored.override o).group = stored.group) ∧
    (o.apiVersion = none → (stored.override o).apiVersion = stored.apiVersion) := by
  have hsaves := h.toSaves
  have hfile := h.kind?_configPath (Config.left?_of_eq_none hfault _)
  refine ⟨Options.read_withoutDefaults h.read, fun again hagain => ⟨?_, fun hkeeps => ?_, ?_⟩,
    Node.content?_eq_some_iff.2 hfile, ?_, fun hgroup => admits_override_core stored hgroup,
    fun hnone => ?_, fun hnone => ?_, fun hnone => ?_⟩
  · rw [replyTo_of_read hagain, replyTo_of_read h.read, homeAfter_of_read h.read]
    exact congrArg Except.ok
      (Detail.outline.reply_on_saved wording (fun _ _ => trivial) hsaves hfault hordered)
  · rw [replyTo_of_read hagain, replyTo_of_read h.read, homeAfter_of_read h.read]
    exact congrArg Except.ok (Detail.full.reply_on_saved wording hkeeps hsaves hfault hordered)
  · rw [homeAfter_of_read hagain, hfile, homeAfter_of_read h.read]
    exact kind?_configPath_on_saved hsaves hfault
  · exact hsaves.load_later (hfile.trans (hsaves.kind?_configPath rfl).symm)
  all_goals
    rw [Config.override, hnone]
    rfl

/-- With the core group saved the listing is that of the core group again. -/
theorem listing_on_saved_core_group :
    replyTo {} { Dev.world with home := homeAfter Dev.world ["--save", "-g", "core"] } [] =
      replyTo {} Dev.world ["--save", "-g", "core"] ∧
    Config.load (homeAfter Dev.world ["--save", "-g", "core"]) ⟨configPath⟩ =
      .ok { group := some "" } := by
  have hconfigures : Configures Dev.world ["--save", "-g", "core"]
      { group := some "core", save := true } {} :=
    ⟨⟨rfl, load_nowhere, writable_nowhere⟩, by decide⟩
  obtain ⟨-, hagain, -, hload, -⟩ :=
    reply_on_saved_defaults hconfigures rfl Node.ordered_emptyDirectory {}
  refine ⟨(hagain [] (by decide)).2.1 fun snapshot hfetch => ?_, hload⟩
  obtain rfl := Except.ok.inj (Dev.fetch_server.symm.trans hfetch)
  exact ⟨trivial, trivial⟩

namespace Uneven

/-- A server whose document has a number in the place of a definition. The number is printed as a
text that is read as its neighbour. -/
def server : Server := .ofTable [
  ("/api", ⟨200, "\x7b\"kind\":\"APIVersions\",\"versions\":[]\x7d"⟩),
  ("/apis", ⟨200, "\x7b\"kind\":\"APIGroupList\",\"groups\":[]\x7d"⟩),
  ("/openapi/v2", ⟨200, "\x7b\"definitions\":\x7b\"a\":5.287201947298235e+99\x7d\x7d"⟩)]

/-- A cluster with this server. -/
def world : World := { Dev.world with server }

/-- The messages about a definition that is such a number. -/
def messages (number : String) : List String :=
  ["Failed to load OpenAPI schemas",
    "invalid OpenAPI document: definition a: invalid OpenAPI document: " ++
      "expected a schema object, found " ++ number]

/-- The run on the saved defaults finds the number in the cache, and there it is another one. So the
same error is caused by something else. -/
theorem causes_differ :
    replyTo {} world ["--save"] = .ok ⟨1, "", messages "5.287201947298236e+99"⟩ ∧
    replyTo {} { world with home := homeAfter world ["--save"] } [] =
      .ok ⟨1, "", messages "5.287201947298237e+99"⟩ := by
  constructor
  · decide +kernel
  · decide +kernel

end Uneven

end ApiCatalog.Run
