import ApiCatalog.Proofs.Config
import ApiCatalog.Proofs.Run.Acquiring

/-!
# What a run is seen to change

Every step of a run keeps to its own part of the home directory: the log (`within_openLog`), the
file of the configuration (`within_configure`), and the directory of the cache (`within_acquire`).
So the file of the configuration is written by `configure` or not at all (`Saves.kind?_configPath`),
and what it holds after a command line follows from what it held, from the words and from the fault
with which it is written, if there is one (`configuration_after_run`).
-/

namespace ApiCatalog.Run

open Node (Grown Within)

variable {o : Options} {config stored : Config} {w : World} {home : Storage}
  {fault : Option Config.Fault}

/-! ## The steps -/

/-- With the log the home directory is shown as before. -/
theorem label_openLog (home : Storage) : (openLog home).2.label = home.label := by
  unfold openLog
  split
  next => rfl
  next =>
    split
    next => rfl
    next => split <;> rfl

/-- The log is opened in its own directory. -/
theorem within_openLog (home : Storage) : Within logPath home.root (openLog home).2.root := by
  unfold openLog
  split
  next => exact .refl _ _
  next root hmade =>
    have hdirectories : Within logPath home.root root :=
      Node.within_makeDirectories hmade (List.prefix_append logDirectory _)
    split
    next => exact hdirectories
    next =>
      split
      next => exact hdirectories
      next created hcreated =>
        exact hdirectories.trans (Node.sameApart_alter hcreated).within

/-- Opening the log keeps a tree in order. -/
theorem ordered_openLog (hordered : home.root.Ordered) : (openLog home).2.root.Ordered := by
  unfold openLog
  split
  next => exact hordered
  next root hmade =>
    have hdirectories := Node.ordered_makeDirectories hordered hmade
    split
    next => exact hdirectories
    next =>
      split
      next => exact hdirectories
      next created hcreated => exact (Node.replaced_create hdirectories hcreated).ordered

/-- A configuration that is not loaded leaves all files as they are. -/
theorem configure_of_error {error : ConfigError}
    (h : Config.load home ⟨configPath⟩ = .error error) :
    configure o home fault = (.error (.config error), home) := by
  rw [configure, h]

/-- A configuration that is loaded is overridden, and saved if that is asked for. -/
theorem configure_of_ok (h : Config.load home ⟨configPath⟩ = .ok stored) :
    configure o home fault =
      if o.save then
        (((stored.override o).save home ⟨configPath⟩ fault).1.mapError .notSaved |>.map fun _ =>
            stored.override o,
          ((stored.override o).save home ⟨configPath⟩ fault).2)
      else (.ok (stored.override o), home) := by
  rw [configure, h]
  dsimp only
  split
  next => cases (stored.override o).save home ⟨configPath⟩ fault with
    | mk result home => cases result <;> rfl
  next => rfl

/-- With the configuration settled the home directory is shown as before. -/
theorem label_configure (o : Options) (home : Storage) (fault : Option Config.Fault) :
    (configure o home fault).2.label = home.label := by
  cases hload : Config.load home ⟨configPath⟩ with
  | error => rw [configure_of_error hload]
  | ok stored =>
      rw [configure_of_ok hload]
      split
      next => exact (Config.stores_save _ home fault).label
      next => rfl

/-- Only the file of the configuration is written, in its own directory. -/
theorem within_configure (o : Options) (home : Storage) (fault : Option Config.Fault) :
    Within configPath home.root (configure o home fault).2.root := by
  cases hload : Config.load home ⟨configPath⟩ with
  | error =>
      rw [configure_of_error hload]
      exact .refl _ _
  | ok stored =>
      rw [configure_of_ok hload]
      split
      next => exact (Config.stores_save _ home fault).within
      next => exact .refl _ _

/-- Settling the configuration keeps a tree in order. -/
theorem ordered_configure (o : Options) (fault : Option Config.Fault)
    (hordered : home.root.Ordered) : (configure o home fault).2.root.Ordered := by
  cases hload : Config.load home ⟨configPath⟩ with
  | error =>
      rw [configure_of_error hload]
      exact hordered
  | ok stored =>
      rw [configure_of_ok hload]
      split
      next => exact (Config.stores_save _ home fault).ordered hordered
      next => exact hordered

/-- After a snapshot was asked for the home directory is shown as before. -/
theorem label_fetch (w : World) (context : String) :
    (fetch w context).home.label = w.home.label := by
  unfold fetch
  dsimp only
  split <;> rfl

/-- A snapshot is cached in the file of its context. -/
theorem within_fetch (w : World) (context : String) :
    Within (Cache.path cacheBase context) w.home.root (fetch w context).home.root := by
  unfold fetch
  dsimp only
  split
  next => exact .refl _ _
  next snapshot _ =>
    exact (Cache.saves_saveRun w.faults.cache w.home cacheBase context snapshot w.now).within

/-- The snapshot of a context is taken from the cache or put there. -/
theorem within_acquireFor (o : Options) (config : Config) (w : World) (context : String) :
    (acquireFor o config w context).home.label = w.home.label ∧
      Within (Cache.path cacheBase context) w.home.root
        (acquireFor o config w context).home.root := by
  obtain ⟨result, hacquire⟩ | ⟨home, hlabel, hsame, hacquire⟩ := acquireFor_cases o config w context
  · rw [hacquire]
    exact ⟨rfl, .refl _ _⟩
  · rw [hacquire]
    exact ⟨(label_fetch _ context).trans hlabel,
      hsame.within.trans (within_fetch { w with home } context)⟩

/-- Where there is one server, the snapshot of a context is taken from the cache or from there. -/
theorem acquire_eq (o : Options) (config : Config) (w : World) :
    acquire o config w =
      match connect w.kubeconfig config.context with
      | .error error => ⟨.error (.connect error), w.home, []⟩
      | .ok context => acquireFor o config w context := rfl

/-- After a snapshot was taken the home directory is shown as before. -/
theorem label_acquire (o : Options) (config : Config) (w : World) :
    (acquire o config w).home.label = w.home.label := by
  rw [acquire_eq]
  split
  next => rfl
  next context _ => exact (within_acquireFor o config w context).1

/-- A snapshot is taken from the cache or put there. -/
theorem within_acquire (o : Options) (config : Config) (w : World) :
    Within (Cache.directory cacheBase) w.home.root (acquire o config w).home.root := by
  rw [acquire_eq]
  split
  next => exact .refl _ _
  next context _ =>
    exact (within_acquireFor o config w context).2.above (List.prefix_append _ _)

/-- The configuration that a run goes on with. -/
def configuration (w : World) (o : Options) : Except RunError Config :=
  (configure o (openLog w.home).2 w.faults.config).1

/-- What a run finds once its configuration is settled. -/
def configured (w : World) (o : Options) : World :=
  { w with home := (configure o (openLog w.home).2 w.faults.config).2 }

/-- A run settles its configuration, and goes on with it if there is one. -/
theorem perform_eq (w : World) (o : Options) :
    perform w o =
      match configuration w o with
      | .error error =>
        { result := .error error, warning := (openLog w.home).1, home := (configured w o).home }
      | .ok config =>
        { result := (acquire o config (configured w o)).result.bind (present o config)
          warning := (openLog w.home).1
          home := (acquire o config (configured w o)).home
          requests := (acquire o config (configured w o)).requests } := by
  unfold perform performAmong configuration configured
  rw [show w.landscape.home = w.home from rfl, show w.landscape.faults = w.faults from rfl]
  obtain ⟨warning, home⟩ := openLog w.home
  dsimp only
  obtain ⟨result, home⟩ := configure o home w.faults.config
  cases result <;> rfl

/-- Settling the configuration leaves the cache as it is. -/
theorem kind?_configured (w : World) (o : Options) {place : List String}
    (hplace : cacheBase <+: place) :
    (configured w o).home.root.kind? place = w.home.root.kind? place := by
  obtain ⟨rest, rfl⟩ := hplace
  have hlog : ¬ logPath <+: cacheBase ++ rest ∧ ¬ cacheBase ++ rest <+: logPath := by
    simp [logPath, logDirectory, base, cacheBase]
  have hconfig : ¬ configPath <+: cacheBase ++ rest ∧ ¬ cacheBase ++ rest <+: configPath := by
    simp [configPath, base, cacheBase]
  exact ((within_configure o (openLog w.home).2 _).apart _ hconfig.1 hconfig.2).trans
    ((within_openLog w.home).apart _ hlog.1 hlog.2)

/-- So it does the file of a context. -/
theorem kind?_cachePath_configured (w : World) (o : Options) (context : String) :
    (configured w o).home.root.kind? (Cache.path cacheBase context) =
      w.home.root.kind? (Cache.path cacheBase context) :=
  kind?_configured w o ((List.prefix_append _ _).trans (List.prefix_append _ _))

/-- Once the configuration is settled the home directory is shown as before. -/
theorem label_configured (w : World) (o : Options) :
    (configured w o).home.label = w.home.label :=
  (label_configure o _ _).trans (label_openLog w.home)

/-- Up to the settled configuration a tree is kept in order. -/
theorem ordered_configured (o : Options) (hordered : w.home.root.Ordered) :
    (configured w o).home.root.Ordered :=
  ordered_configure o _ (ordered_openLog hordered)

/-! ## The file of the configuration -/

/-- The log is no part of the file, and neither is the cache. -/
theorem kind?_configPath_openLog (home : Storage) :
    (openLog home).2.root.kind? configPath = home.root.kind? configPath :=
  (within_openLog home).apart configPath (by decide) (by decide)

/-- Taking a snapshot leaves the file as it is. -/
theorem kind?_configPath_acquire (o : Options) (config : Config) (w : World) :
    (acquire o config w).home.root.kind? configPath = w.home.root.kind? configPath :=
  (within_acquire o config w).apart configPath (by decide) (by decide)

/-- On the way to the file the log changes nothing that matters. -/
theorem sameWay_openLog (home : Storage) : Config.SameWay home.root (openLog home).2.root := by
  have hlog := within_openLog home
  exact .of_grown (hlog.grown [] (by decide)) (hlog.grown base (by decide))

/-- With the log the file can be written as before. -/
theorem writable_openLog_iff (home : Storage) :
    Config.Writable (openLog home).2.root ↔ Config.Writable home.root :=
  (sameWay_openLog home).writable_iff (kind?_configPath_openLog home)

/-- The configuration is loaded as if there were no log. -/
theorem load_openLog (home : Storage) :
    Config.load (openLog home).2 ⟨configPath⟩ = Config.load home ⟨configPath⟩ :=
  Config.load_congr (label_openLog home) (kind?_configPath_openLog home)

/-- The options save a configuration: they ask for that, the stored one can be loaded, and its file
can be written. -/
structure Saves (home : Storage) (o : Options) (stored : Config) : Prop where
  save : o.save = true
  load : Config.load home ⟨configPath⟩ = .ok stored
  writable : Config.Writable home.root

/-- Options save a configuration as if there were no log. -/
theorem saves_openLog_iff : Saves (openLog home).2 o stored ↔ Saves home o stored := by
  have hload := load_openLog home
  have hwritable := writable_openLog_iff home
  exact ⟨fun h => ⟨h.save, hload.symm.trans h.load, hwritable.1 h.writable⟩,
    fun h => ⟨h.save, hload.trans h.load, hwritable.2 h.writable⟩⟩

/-- Options that save a configuration write its file, as far as the fault admits. -/
theorem Saves.kind?_configPath (h : Saves home o stored) {content : ByteArray}
    (hleft : Config.Fault.left? (stored.override o).text.toUTF8 fault = some content) :
    (configure o home fault).2.root.kind? configPath = some (.file content) := by
  rw [configure_of_ok h.load, if_pos h.save]
  exact (Config.stores_save (stored.override o) home fault).written h.writable content hleft

/-- Options that save none leave it as it is, and so they do if the file is not opened. -/
theorem kind?_configPath_of_not_saves
    (h : ∀ stored, Saves home o stored →
      Config.Fault.left? (stored.override o).text.toUTF8 fault = none) :
    (configure o home fault).2.root.kind? configPath = home.root.kind? configPath := by
  cases hload : Config.load home ⟨configPath⟩ with
  | error => rw [configure_of_error hload]
  | ok stored =>
      rw [configure_of_ok hload]
      split
      next hsave =>
        refine (Config.stores_save (stored.override o) home fault).unwritten fun hwritable => ?_
        exact h stored ⟨hsave, hload, hwritable⟩
      next => rfl

/-- After the configuration nothing writes its file. -/
theorem kind?_configPath_perform (w : World) (o : Options) :
    (perform w o).home.root.kind? configPath =
      (configure o (openLog w.home).2 w.faults.config).2.root.kind? configPath := by
  rw [perform_eq]
  split
  next => rfl
  next config _ => exact kind?_configPath_acquire o config (configured w o)

/-- After a run the home directory is shown as before. -/
theorem label_perform (w : World) (o : Options) : (perform w o).home.label = w.home.label := by
  rw [perform_eq]
  split
  next => exact label_configured w o
  next config _ => exact (label_acquire o config _).trans (label_configured w o)

/-- The home directory after a command line. One that stops before anything is done leaves it as it
is. -/
def homeAfter (w : World) (words : List String) : Storage :=
  match run w words with
  | .ok outcome => outcome.home
  | .error _ => w.home

/-- A command line that can be read is carried out. -/
theorem homeAfter_of_read {words : List String} (h : Options.read words = .ok o) :
    homeAfter w words = (perform w o).home := by
  rw [homeAfter, run, runAmong, h]
  rfl

/-- One that stops leaves all files as they are. -/
theorem homeAfter_of_stop {words : List String} {reason : Stop}
    (h : Options.read words = .error reason) : homeAfter w words = w.home := by
  rw [homeAfter, run, runAmong, h]
  rfl

/-- The command line saves what it gives: it can be read and asks for that, the stored configuration
can be loaded, and its file can be written. -/
structure Configures (w : World) (words : List String) (o : Options) (stored : Config) : Prop
    extends Saves w.home o stored where
  read : Options.read words = .ok o

/-- A command line that saves what it gives writes the file, as far as the fault admits. -/
theorem Configures.kind?_configPath {words : List String} (h : Configures w words o stored)
    {content : ByteArray}
    (hleft : Config.Fault.left? (stored.override o).text.toUTF8 w.faults.config = some content) :
    (homeAfter w words).root.kind? configPath = some (.file content) := by
  rw [homeAfter_of_read h.read, kind?_configPath_perform]
  exact (saves_openLog_iff.2 h.toSaves).kind?_configPath hleft

/-- A command line that saves nothing leaves the file as it is, whatever else goes right or wrong,
and so it does if the file is not opened. -/
theorem kind?_configPath_of_not_configures {words : List String}
    (h : ∀ o stored, Configures w words o stored →
      Config.Fault.left? (stored.override o).text.toUTF8 w.faults.config = none) :
    (homeAfter w words).root.kind? configPath = w.home.root.kind? configPath := by
  cases hread : Options.read words with
  | error reason => rw [homeAfter_of_stop hread]
  | ok o =>
      rw [homeAfter_of_read hread, kind?_configPath_perform, kind?_configPath_of_not_saves,
        kind?_configPath_openLog]
      exact fun stored hsaves => h o stored ⟨saves_openLog_iff.1 hsaves, hread⟩

/-- Whether the file is opened does not depend on what is written. -/
theorem left?_eq_none_iff {content : ByteArray} :
    Config.Fault.left? content fault = none ↔
      fault = some .directory ∨ fault = some .file := by
  rcases fault with _ | _ | _ | written <;> simp [Config.Fault.left?]

/-- What the file of the configuration holds after a command line. If the line saves what it gives,
this is the stored configuration with the context, the group and the version that are given, and
with its time for the cache. If the write is broken off, it is the beginning of this text. Otherwise
the file is as it was. So it depends on the file, on whether it can be written, on the fault and on
the words, but not on the cluster, the cache, the clock or the outcome of the run. A file that holds
no configuration is never written. -/
theorem configuration_after_run (w : World) (words : List String) :
    (∀ o stored, Configures w words o stored →
      let text := (Config.text { stored with
        context := o.context.or stored.context
        group := (o.group.map Options.groupOf).or stored.group
        apiVersion := o.apiVersion.or stored.apiVersion }).toUTF8
      (w.faults.config = none → (homeAfter w words).root.content? configPath = some text) ∧
      (∀ written, w.faults.config = some (.write written) →
        (homeAfter w words).root.content? configPath =
          some (text.extract 0 (min written (text.size - 1))))) ∧
    ((¬ ∃ o stored, Configures w words o stored) ∨ w.faults.config = some .directory ∨
        w.faults.config = some .file →
      (homeAfter w words).root.kind? configPath = w.home.root.kind? configPath) ∧
    (∀ other : World, other.home.root.kind? configPath = w.home.root.kind? configPath →
      (Config.Writable other.home.root ↔ Config.Writable w.home.root) →
      other.faults.config = w.faults.config →
      (homeAfter other words).root.kind? configPath =
        (homeAfter w words).root.kind? configPath) ∧
    ∀ content, w.home.root.content? configPath = some content →
      Config.ofContent? content = none →
        (homeAfter w words).root.content? configPath = some content := by
  refine ⟨fun o stored h => ⟨fun hfault => ?_, fun written hfault => ?_⟩, fun h => ?_,
    fun other hfile hwritable hfaults => ?_, fun content hcontent hmalformed => ?_⟩
  · rw [Node.content?_eq_some_iff]
    exact h.kind?_configPath (Config.left?_of_eq_none hfault _)
  · rw [Node.content?_eq_some_iff]
    refine h.kind?_configPath ?_
    rw [hfault]
    rfl
  · refine kind?_configPath_of_not_configures fun o stored hconfigures => ?_
    rcases h with hnone | hfault
    · exact absurd ⟨o, stored, hconfigures⟩ hnone
    · exact left?_eq_none_iff.2 hfault
  · have htransfer : ∀ o stored, Configures other words o stored ↔ Configures w words o stored := by
      intro o stored
      have hload : Config.load other.home ⟨configPath⟩ = .ok stored ↔
          Config.load w.home ⟨configPath⟩ = .ok stored := Config.load_eq_ok_congr hfile
      exact ⟨fun h => ⟨⟨h.save, hload.1 h.load, hwritable.1 h.writable⟩, h.read⟩,
        fun h => ⟨⟨h.save, hload.2 h.load, hwritable.2 h.writable⟩, h.read⟩⟩
    -- The same is written in both worlds, or the file is left alone in both.
    by_cases hwrites : ∃ o stored content, Configures w words o stored ∧
        Config.Fault.left? (stored.override o).text.toUTF8 w.faults.config = some content
    · obtain ⟨o, stored, content, hconfigures, hleft⟩ := hwrites
      rw [hconfigures.kind?_configPath hleft,
        ((htransfer o stored).2 hconfigures).kind?_configPath (hfaults ▸ hleft)]
    · have hnone : ∀ o stored, Configures w words o stored →
          Config.Fault.left? (stored.override o).text.toUTF8 w.faults.config = none :=
        fun o stored h => Option.eq_none_iff_forall_ne_some.2 fun content hleft =>
          hwrites ⟨o, stored, content, h, hleft⟩
      rw [kind?_configPath_of_not_configures hnone, kind?_configPath_of_not_configures, hfile]
      rw [hfaults]
      exact fun o stored h => hnone o stored ((htransfer o stored).1 h)
  · rw [Node.content?_congr (kind?_configPath_of_not_configures fun o stored h => ?_), hcontent]
    rcases Config.load_eq_ok_iff.1 h.load with hdecode | ⟨hmissing, -⟩
    · rw [hcontent, Option.bind_some, hmalformed] at hdecode
      cases hdecode
    · rw [Node.isPresent_of_content? hcontent] at hmissing
      cases hmissing

/-- A world with nothing in it. -/
def nowhere : World where
  home := {}
  kubeconfig := none
  server := Server.unreachable
  now := 0

/-- The configuration can be saved there. -/
theorem writable_nowhere : Config.Writable nowhere.home.root := ⟨rfl, .inl rfl, .inl rfl⟩

/-- No defaults are stored there. -/
theorem load_nowhere : Config.load nowhere.home ⟨configPath⟩ = .ok {} :=
  Config.load_eq_ok_iff.2 (.inr ⟨rfl, rfl⟩)

/-- A command line saves the core group there, whatever fails. -/
theorem configures_nowhere (faults : Faults) :
    Configures { nowhere with faults } ["--save", "-g", "core"]
      { group := some "core", save := true } {} :=
  ⟨⟨rfl, load_nowhere, writable_nowhere⟩, by decide⟩

/-- The core group is saved although there is no cluster to connect to. -/
theorem configuration_after_saving_core_group :
    (homeAfter nowhere ["--save", "-g", "core"]).root.content? configPath =
      some (Config.text { group := some "" }).toUTF8 :=
  ((configuration_after_run nowhere _).1 _ _ (configures_nowhere {})).1 rfl

/-- The group that is given is not the one that is saved. And if the write is broken off after a
byte, there is a file then that was not there before, although it holds no configuration. -/
theorem configuration_neither_kept_nor_given :
    let broken : World := { nowhere with faults := { config := some (.write 1) } }
    ((homeAfter nowhere ["--save", "-g", "core"]).root.content? configPath).isSome = true ∧
    (homeAfter nowhere ["--save", "-g", "core"]).root.content? configPath ≠
      some (Config.text { group := some "core" }).toUTF8 ∧
    broken.home.root.content? configPath = none ∧
    (homeAfter broken ["--save", "-g", "core"]).root.content? configPath = some "\x7b".toUTF8 ∧
    Config.ofContent? "\x7b".toUTF8 = none := by
  intro broken
  have hsaved : (homeAfter nowhere ["--save", "-g", "core"]).root.content? configPath =
      some (Config.text { group := some "" }).toUTF8 :=
    Node.content?_eq_some_iff.2 ((configures_nowhere {}).kind?_configPath rfl)
  have hbroken : (homeAfter broken ["--save", "-g", "core"]).root.content? configPath =
      some ((Config.text { group := some "" }).toUTF8.extract 0 1) :=
    Node.content?_eq_some_iff.2 ((configures_nowhere _).kind?_configPath (by decide +kernel))
  have htext : (Config.text { group := some "" }).toUTF8.extract 0 1 = "\x7b".toUTF8 := by
    decide +kernel
  refine ⟨by rw [hsaved]; rfl, fun h => ?_, rfl, by rw [hbroken, htext], by decide +kernel⟩
  have hsame : (Config.text { group := some "" }).toUTF8 =
      (Config.text { group := some "core" }).toUTF8 := Option.some.inj (hsaved.symm.trans h)
  revert hsame
  decide +kernel

end ApiCatalog.Run
