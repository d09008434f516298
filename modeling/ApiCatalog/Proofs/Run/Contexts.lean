import ApiCatalog.Proofs.Run.Cached

/-!
# The context of a run

A run is for the context that its options name, or else the stored configuration, or else the
kubeconfig (`Names`). It asks the server of that context and no other, and of the cache it reads and
changes the file of that context only (`KeepsTo`). If the kubeconfig has no such context, or if no
client can be made for it, the run fails with nothing asked and nothing touched (`Refuses`): a name
that is given and not found is not replaced by one that would be found. `run_keeps_to_its_context`
puts this together.

What a run does is found by connecting all contexts to the server of one (`performAmong_congr`),
so the runs with one server say what it does.
-/

namespace ApiCatalog

/-- The kubeconfig has the context, and a client can be made for it. -/
structure Kubeconfig.Reaches (k : Kubeconfig) (context : String) : Prop where
  mem : context ∈ k.contexts
  client : k.failures.lookup context = none

/-- What connecting to the name that is chosen comes to. -/
theorem connect_of_name {k : Kubeconfig} {requested : Option String} {name : String}
    (h : requested.or k.current = some name) :
    connect (some k) requested =
      if name ∈ k.contexts then
        match k.failures.lookup name with
        | some failure => .error (.noClient name failure)
        | none => .ok name
      else .error (.unknownContext name) := by
  rw [connect, Kubeconfig.choose, h]
  dsimp only
  split <;> rfl

/-- A run is connected to the first of the two names that is there, if the kubeconfig has it and a
client can be made for it. -/
theorem connect_eq_ok_iff {kubeconfig : Option Kubeconfig} {requested : Option String}
    {context : String} :
    connect kubeconfig requested = .ok context ↔
      ∃ k, kubeconfig = some k ∧ requested.or k.current = some context ∧ k.Reaches context := by
  cases kubeconfig with
  | none => exact iff_of_false nofun nofun
  | some k =>
      simp only [Option.some.injEq, exists_eq_left']
      cases hname : requested.or k.current with
      | none =>
          rw [connect, Kubeconfig.choose, hname]
          exact iff_of_false nofun nofun
      | some name =>
          rw [connect_of_name hname]
          by_cases hmem : name ∈ k.contexts
          · rw [if_pos hmem]
            cases hclient : k.failures.lookup name with
            | none =>
                refine ⟨fun h => ?_, fun h => congrArg Except.ok (Option.some.inj h.1)⟩
                obtain rfl := Except.ok.inj h
                exact ⟨rfl, hmem, hclient⟩
            | some failure =>
                refine iff_of_false nofun fun ⟨hsame, hreaches⟩ => ?_
                obtain rfl := Option.some.inj hsame
                rw [hreaches.client] at hclient
                cases hclient
          · rw [if_neg hmem]
            exact iff_of_false nofun fun h => hmem (Option.some.inj h.1 ▸ h.2.mem)

namespace Run

open Node (Grown SameApart)

variable {o : Options} {config stored : Config} {w v : World} {l other : Landscape}
  {k : Kubeconfig} {context name : String}

/-! ## One server for all contexts -/

/-- It does not matter to a run where the contexts lead that it does not select. -/
theorem performAmong_congr (l : Landscape) (o : Options) {servers : String → Server}
    (h : ∀ config context, Selects (l.connected context) o config context →
      servers context = l.servers context) :
    performAmong { l with servers } o = performAmong l o := by
  -- Once the configuration is settled, the server of the selected context is the only one in use.
  have hacquire : ∀ config,
      (configure o (openLog l.home).2 l.faults.config).1 = .ok config → ∀ home,
      acquireAmong o config { l with home, servers } = acquireAmong o config { l with home } := by
    intro config hconfig home
    rw [acquireAmong, acquireAmong]
    cases hconnect : connect l.kubeconfig config.context with
    | error => rfl
    | ok context =>
        have hserver : servers context = l.servers context := h config context ⟨hconfig, hconnect⟩
        show acquireFor o config ⟨home, l.kubeconfig, servers context, l.now, l.faults⟩ context = _
        rw [hserver]
        rfl
  unfold performAmong
  cases hlog : openLog l.home with
  | mk warning home =>
      rw [hlog] at hacquire
      dsimp only
      cases hconfigure : configure o home l.faults.config with
      | mk result home =>
          cases result with
          | error => rfl
          | ok config =>
              dsimp only at hacquire ⊢
              rw [hacquire config (congrArg Prod.fst hconfigure)]

/-- If no other context is selected, all of them may as well lead to the server of one. -/
theorem performAmong_eq_perform
    (h : ∀ config name, Selects (l.connected name) o config name → name = context) :
    performAmong l o = perform (l.connected context) o := by
  refine (performAmong_congr l o fun config name hselects => ?_).symm
  exact congrArg l.servers (h config name hselects).symm

/-! ## The name of the context -/

/-- The options lead to the name: it is given, or else stored, or else current in the kubeconfig.
This does not say that the kubeconfig has a context of this name. -/
structure Names (l : Landscape) (o : Options) (stored : Config) (k : Kubeconfig)
    (context : String) : Prop where
  load : Config.load l.home ⟨configPath⟩ = .ok stored
  kubeconfig : l.kubeconfig = some k
  name : o.context.or (stored.context.or k.current) = some context

/-- A configuration that is settled comes from one that is stored. -/
theorem exists_of_configuration (h : configuration w o = .ok config) :
    ∃ stored, Config.load w.home ⟨configPath⟩ = .ok stored ∧ stored.override o = config := by
  rw [configuration] at h
  have hload := load_openLog w.home
  cases hstored : Config.load (openLog w.home).2 ⟨configPath⟩ with
  | error =>
      rw [configure_of_error hstored] at h
      cases h
  | ok stored =>
      refine ⟨stored, hload.symm.trans hstored, ?_⟩
      by_cases hcan : o.save = true →
          Config.Writable (openLog w.home).2.root ∧ w.faults.config = none
      · rw [configure_of_writable hstored hcan] at h
        exact Except.ok.inj h
      · obtain ⟨hsave, hcannot⟩ := Classical.not_imp.1 hcan
        obtain ⟨error, herror⟩ := configure_of_not_writable hstored hsave hcannot
        rw [herror] at h
        cases h

/-- A context that is selected has the name that the options lead to, and the kubeconfig reaches
it. -/
theorem exists_names_of_selects (h : Selects (l.connected name) o config context) :
    ∃ stored k, Names l o stored k context ∧ k.Reaches context := by
  obtain ⟨stored, hload, rfl⟩ := exists_of_configuration h.configured
  obtain ⟨k, hkubeconfig, hname, hreaches⟩ := connect_eq_ok_iff.1 h.connected
  refine ⟨stored, k, ⟨hload, hkubeconfig, ?_⟩, hreaches⟩
  rw [← Option.or_assoc]
  exact hname

/-- The options lead to one name. -/
theorem Names.unique {again : Config} {others : Kubeconfig} (h : Names l o stored k context)
    (hother : Names l o again others name) : name = context := by
  obtain rfl := Except.ok.inj (h.load.symm.trans hother.load)
  obtain rfl := Option.some.inj (h.kubeconfig.symm.trans hother.kubeconfig)
  exact Option.some.inj (hother.name.symm.trans h.name)

/-- So no other context is selected. -/
theorem Names.eq_of_selects (h : Names l o stored k context)
    (hselects : Selects (l.connected name) o config name) : name = context := by
  obtain ⟨again, others, hother, -⟩ := exists_names_of_selects hselects
  exact h.unique hother

/-- The run of a context that is named is a run with its server. -/
theorem Names.performAmong_eq (h : Names l o stored k context) :
    performAmong l o = perform (l.connected context) o :=
  performAmong_eq_perform fun _ _ => h.eq_of_selects

/-! ## What a run touches -/

/-- The server is asked for a snapshot, or nothing is asked. -/
theorem requests_acquireFor (o : Options) (config : Config) (w : World) (context : String) :
    (acquireFor o config w context).requests = [] ∨
      (acquireFor o config w context).requests = (Snapshot.fetch w.server).requests := by
  obtain ⟨result, hacquire⟩ | ⟨home, -, -, hacquire⟩ := acquireFor_cases o config w context
  · rw [hacquire]
    exact .inl rfl
  · rw [hacquire]
    exact .inr (requests_fetch _ context)

/-- A run that selects no context fails, with the cache as it was and nothing asked. -/
theorem perform_of_not_selects (h : ∀ config context, ¬ Selects w o config context) :
    (∃ error, (perform w o).result = .error error) ∧
      (perform w o).home = (configured w o).home ∧ (perform w o).requests = [] := by
  cases hconfiguration : configuration w o with
  | error error => exact (perform_of_error hconfiguration).imp_left fun h => ⟨error, h⟩
  | ok config =>
      cases hconnect : connect w.kubeconfig config.context with
      | error error =>
          exact (perform_of_connect_error hconfiguration hconnect).imp_left fun h => ⟨_, h⟩
      | ok context => exact absurd ⟨hconfiguration, hconnect⟩ (h config context)

/-- What a run leaves of the cache if it can select no context but one. -/
theorem within_perform (h : ∀ config name, Selects w o config name → name = context) :
    Node.Within (Cache.path cacheBase context) (configured w o).home.root
      (perform w o).home.root := by
  by_cases hselects : ∃ config name, Selects w o config name
  · obtain ⟨config, name, hname⟩ := hselects
    obtain rfl := h config name hname
    rw [(perform_of_selects hname).2.1]
    exact (within_acquireFor o config (configured w o) name).2
  · have hnone := fun config context hname => hselects ⟨config, context, hname⟩
    rw [(perform_of_not_selects hnone).2.1]
    exact .refl _ _

/-- The other world is the same as far as the context is concerned: its server, the clock and its
file in the cache. -/
structure Alike (w v : World) (context : String) : Prop where
  server : v.server = w.server
  now : v.now = w.now
  file : v.home.root.kind? (Cache.path cacheBase context) =
    w.home.root.kind? (Cache.path cacheBase context)

/-- What is taken for a context depends on nothing that is there for others. -/
theorem Alike.acquireFor_eq (h : Alike w v context) (hlabel : v.home.label = w.home.label)
    (o : Options) (config : Config) :
    (acquireFor o config v context).result = (acquireFor o config w context).result ∧
      (acquireFor o config v context).requests = (acquireFor o config w context).requests := by
  have hfetch : ∀ before after : Storage,
      (fetch { v with home := after } context).result =
          (fetch { w with home := before } context).result ∧
        (fetch { v with home := after } context).requests =
          (fetch { w with home := before } context).requests := by
    intro before after
    rw [result_fetch, result_fetch, requests_fetch, requests_fetch, h.server]
    exact ⟨rfl, rfl⟩
  cases hrefresh : o.refresh with
  | true =>
      by_cases hplace : w.home.root.kind? (Cache.path cacheBase context) = some .directory
      · rw [acquireFor_of_directory hrefresh config hplace,
          acquireFor_of_directory hrefresh config (h.file.trans hplace), Storage.shown,
          Storage.shown, hlabel]
        exact ⟨rfl, rfl⟩
      · obtain ⟨before, hbefore, -⟩ := Cache.exists_clear_of_ne hplace
        obtain ⟨after, hafter, -⟩ := Cache.exists_clear_of_ne (h.file ▸ hplace)
        rw [acquireFor_of_refresh hrefresh hbefore, acquireFor_of_refresh hrefresh hafter]
        exact hfetch before after
  | false =>
      have hload := load_congr config.cacheSeconds w.now h.file
      rw [← h.now] at hload
      cases hcached : Cache.load w.home.root cacheBase context config.cacheSeconds v.now with
      | some snapshot =>
          rw [acquireFor_of_load_some hrefresh (hload.trans hcached),
            acquireFor_of_load_some hrefresh (h.now ▸ hcached)]
          exact ⟨rfl, rfl⟩
      | none =>
          rw [acquireFor_of_load_none hrefresh (hload.trans hcached),
            acquireFor_of_load_none hrefresh (h.now ▸ hcached)]
          exact hfetch w.home v.home

/-- The two landscapes have the same kubeconfig, and the same files but for the cache. A
configuration is saved in both of them with the same fault, if there is one. -/
structure SameOutside (l other : Landscape) : Prop where
  kubeconfig : other.kubeconfig = l.kubeconfig
  faults : other.faults.config = l.faults.config
  label : other.home.label = l.home.label
  files : SameApart cacheBase l.home.root other.home.root

/-- The options lead to the same name whatever is in the cache. -/
theorem SameOutside.names_iff (h : SameOutside l other) :
    Names other o stored k context ↔ Names l o stored k context := by
  have hload : Config.load other.home ⟨configPath⟩ = Config.load l.home ⟨configPath⟩ :=
    Config.load_congr h.label (h.files configPath (by decide))
  exact ⟨fun hnames => ⟨hload ▸ hnames.load, h.kubeconfig ▸ hnames.kubeconfig, hnames.name⟩,
    fun hnames => ⟨hload ▸ hnames.load, h.kubeconfig ▸ hnames.kubeconfig, hnames.name⟩⟩

/-- What a run says and asks depends on the configuration and on what there is for the context that
it selects. -/
theorem perform_congr (hkubeconfig : v.kubeconfig = w.kubeconfig)
    (hfaults : v.faults.config = w.faults.config) (hlabel : v.home.label = w.home.label)
    (hsame : SameApart cacheBase w.home.root v.home.root)
    (halike : ∀ config context, Selects w o config context → Alike w v context) :
    (perform v o).result = (perform w o).result ∧
      (perform v o).requests = (perform w o).requests := by
  have hconfiguration := configuration_of_sameApart o hfaults hlabel hsame
  cases hw : configuration w o with
  | error error =>
      obtain ⟨hresult, -, hrequests⟩ := perform_of_error hw
      obtain ⟨hresult', -, hrequests'⟩ := perform_of_error (hconfiguration.trans hw)
      rw [hresult, hresult', hrequests, hrequests']
      exact ⟨rfl, rfl⟩
  | ok config =>
      have hv := hconfiguration.trans hw
      cases hconnect : connect w.kubeconfig config.context with
      | error error =>
          obtain ⟨hresult, -, hrequests⟩ := perform_of_connect_error hw hconnect
          obtain ⟨hresult', -, hrequests'⟩ := perform_of_connect_error hv (hkubeconfig ▸ hconnect)
          rw [hresult, hresult', hrequests, hrequests']
          exact ⟨rfl, rfl⟩
      | ok context =>
          have hselects : Selects w o config context := ⟨hw, hconnect⟩
          have hagain : Selects v o config context := ⟨hv, hkubeconfig ▸ hconnect⟩
          have hfound := halike config context hselects
          have hsettled : Alike (configured w o) (configured v o) context := by
            refine ⟨hfound.server, hfound.now, ?_⟩
            rw [kind?_cachePath_configured, kind?_cachePath_configured, hfound.file]
          have hacquired := hsettled.acquireFor_eq
            ((label_configured v o).trans (hlabel.trans (label_configured w o).symm)) o config
          obtain ⟨hresult, -, hrequests⟩ := perform_of_selects hselects
          obtain ⟨hresult', -, hrequests'⟩ := perform_of_selects hagain
          rw [hresult, hresult', hrequests, hrequests', hacquired.1, hacquired.2]
          exact ⟨rfl, rfl⟩

/-! ## Keeping to a context -/

/-- The run keeps to the context. -/
structure KeepsTo (l : Landscape) (o : Options) (context : String) : Prop where
  /-- Nothing is asked for but the snapshot of its server. -/
  requests : (performAmong l o).requests = [] ∨
    (performAmong l o).requests = (Snapshot.fetch (l.servers context)).requests
  /-- All goes as it does with any servers for the other contexts. -/
  servers : ∀ servers : String → Server, servers context = l.servers context →
    performAmong { l with servers } o = performAmong l o
  /-- In the cache nothing is changed but its file, and the directories that lead there may be
  made. -/
  written : ∀ place, cacheBase <+: place → ¬ Cache.path cacheBase context <+: place →
    Grown place l.home.root (performAmong l o).home.root ∧
      (¬ place <+: Cache.path cacheBase context →
        (performAmong l o).home.root.kind? place = l.home.root.kind? place)
  /-- All that is said and asked is the same with any cache in which its file is the same. -/
  read : ∀ other, SameOutside l other →
    Alike (l.connected context) (other.connected context) context →
    (performAmong other o).result = (performAmong l o).result ∧
      (performAmong other o).requests = (performAmong l o).requests

/-- The run fails before it comes to a context. -/
structure Refuses (l : Landscape) (o : Options) : Prop where
  result : ∃ error, (performAmong l o).result = .error error
  requests : (performAmong l o).requests = []
  /-- Nothing in the cache is changed. -/
  written : ∀ place, cacheBase <+: place →
    (performAmong l o).home.root.kind? place = l.home.root.kind? place
  /-- The same is said with any cache, any servers and at any time. -/
  read : ∀ other, SameOutside l other →
    (performAmong other o).result = (performAmong l o).result ∧
      (performAmong other o).requests = []

/-- A run keeps to the context that its options name, also if it does not come to it. -/
theorem Names.keepsTo (h : Names l o stored k context) : KeepsTo l o context := by
  have hone : ∀ config name, Selects (l.connected context) o config name → name = context :=
    fun config name hselects => h.eq_of_selects ⟨hselects.configured, hselects.connected⟩
  constructor
  · rw [h.performAmong_eq]
    by_cases hselects : ∃ config name, Selects (l.connected context) o config name
    · obtain ⟨config, name, hname⟩ := hselects
      rw [(perform_of_selects hname).2.2]
      exact requests_acquireFor o config _ name
    · have hnone := fun config name hname => hselects ⟨config, name, hname⟩
      exact .inl (perform_of_not_selects hnone).2.2
  · intro servers hserver
    refine performAmong_congr l o fun config name hselects => ?_
    rw [h.eq_of_selects hselects, hserver]
  · intro place hplace hbelow
    have hsettled := kind?_configured (l.connected context) o hplace
    have hwithin := within_perform hone
    rw [h.performAmong_eq]
    exact ⟨.trans (.inl hsettled) (hwithin.grown place hbelow),
      fun haway => (hwithin.apart place hbelow haway).trans hsettled⟩
  · intro other houtside halike
    rw [h.performAmong_eq, (houtside.names_iff.2 h).performAmong_eq]
    refine perform_congr houtside.kubeconfig houtside.faults houtside.label houtside.files
      fun config name hselects => ?_
    exact hone config name hselects ▸ halike

/-- Where the options lead to no context that the kubeconfig reaches, none is selected. -/
theorem not_selects (h : ∀ stored k context, Names l o stored k context → ¬ k.Reaches context)
    (config : Config) (context : String) : ¬ Selects (l.connected name) o config context := by
  intro hselects
  obtain ⟨stored, k, hnames, hreaches⟩ := exists_names_of_selects hselects
  exact h stored k context hnames hreaches

/-- A run for which there is no context fails with all as it was. -/
theorem refuses (h : ∀ stored k context, Names l o stored k context → ¬ k.Reaches context) :
    Refuses l o := by
  -- No context is selected, so any server will do.
  have hperform : ∀ v : Landscape, SameOutside l v →
      performAmong v o = perform (v.connected "") o ∧
        ∀ config context, ¬ Selects (v.connected "") o config context := by
    intro v hv
    have hnone := fun stored k context hnames => h stored k context (hv.names_iff.1 hnames)
    exact ⟨performAmong_eq_perform fun config name hname => absurd hname (not_selects hnone _ _),
      not_selects hnone⟩
  obtain ⟨heq, hnone⟩ := hperform l ⟨rfl, rfl, rfl, .refl _ _⟩
  obtain ⟨herror, hhome, hrequests⟩ := perform_of_not_selects hnone
  refine ⟨heq ▸ herror, heq ▸ hrequests, fun place hplace => ?_, fun other houtside => ?_⟩
  · rw [heq, hhome]
    exact kind?_configured (l.connected "") o hplace
  · obtain ⟨hother, hnothing⟩ := hperform other houtside
    rw [heq, hother]
    refine ⟨(perform_congr houtside.kubeconfig houtside.faults houtside.label houtside.files ?_).1,
      (perform_of_not_selects hnothing).2.2⟩
    exact fun config context hselects => absurd hselects (hnone config context)

/-- If it has to be saved, the configuration can be. -/
def Savable (l : Landscape) (o : Options) : Prop :=
  o.save = true → Config.Writable l.home.root ∧ l.faults.config = none

/-- The configuration is settled, unless it has to be saved and cannot be. -/
theorem Names.configuration_eq (h : Names l o stored k context) (hsave : Savable l o) :
    configuration (l.connected context) o = .ok (stored.override o) :=
  configure_of_writable ((load_openLog l.home).trans h.load)
    fun hasked => ⟨(writable_openLog_iff l.home).2 (hsave hasked).1, (hsave hasked).2⟩

/-- The run is connected to the context that is named, or it fails with its name. -/
theorem Names.connect_eq (h : Names l o stored k context) :
    connect l.kubeconfig (stored.override o).context =
      if context ∈ k.contexts then
        match k.failures.lookup context with
        | some failure => .error (.noClient context failure)
        | none => .ok context
      else .error (.unknownContext context) := by
  have hname : (stored.override o).context.or k.current = some context :=
    (Option.or_assoc ..).trans h.name
  rw [h.kubeconfig, connect_of_name hname]

/-- A run whose context is not reached fails with all as it was, and it says why. -/
theorem Names.refuses (h : Names l o stored k context) {error : ConnectError}
    (hconnect : connect l.kubeconfig (stored.override o).context = .error error) :
    Refuses l o ∧ (Savable l o → (performAmong l o).result = .error (.connect error)) := by
  refine ⟨Run.refuses fun again others name hother hreaches => ?_, fun hsave => ?_⟩
  · obtain rfl := h.unique hother
    obtain rfl := Option.some.inj (h.kubeconfig.symm.trans hother.kubeconfig)
    have heq := h.connect_eq
    rw [if_pos hreaches.mem, hreaches.client, hconnect] at heq
    cases heq
  · rw [h.performAmong_eq]
    exact (perform_of_connect_error (h.configuration_eq hsave) hconnect).1

/-- A run keeps to the context that its command line names, or else the stored configuration, or
else the kubeconfig. It asks nothing but the server of this context, whatever the others lead to,
and of the cache it changes and reads nothing but the file of this context. If the kubeconfig
reaches the context, the report is that on its snapshot, unless a configuration has to be saved and
cannot be. If the kubeconfig does not have it, or if no client can be made for it, the run fails
with the name of the context, whatever other names there are. Then, and if no name is found at all,
nothing is asked, nothing in the cache is changed, and neither the cache nor the servers make a
difference. -/
theorem run_keeps_to_its_context (l : Landscape) (words : List String) :
    (∀ reason, Options.read words = .error reason → runAmong l words = .error reason) ∧
    ∀ o, Options.read words = .ok o →
      runAmong l words = .ok (performAmong l o) ∧
      (∀ stored k context, Names l o stored k context →
        KeepsTo l o context ∧
        (k.Reaches context → Savable l o →
          (performAmong l o).result =
            (acquireFor o (stored.override o) (configured (l.connected context) o)
              context).result.bind (present o (stored.override o))) ∧
        (∀ failure, context ∈ k.contexts → k.failures.lookup context = some failure →
          Refuses l o ∧
          (Savable l o →
            (performAmong l o).result = .error (.connect (.noClient context failure)))) ∧
        (context ∉ k.contexts → Refuses l o ∧
          (Savable l o →
            (performAmong l o).result = .error (.connect (.unknownContext context))))) ∧
      ((∀ stored k context, ¬ Names l o stored k context) → Refuses l o) := by
  constructor
  · intro reason hread
    rw [runAmong, hread]
    rfl
  intro o hread
  refine ⟨?_, fun stored k context h => ?_, fun hnone => ?_⟩
  · rw [runAmong, hread]
    rfl
  · have hconnect := h.connect_eq
    refine ⟨h.keepsTo, fun hreaches hsave => ?_, fun failure hmem hfailure => ?_,
      fun hmissing => ?_⟩
    · rw [if_pos hreaches.mem, hreaches.client] at hconnect
      rw [h.performAmong_eq]
      exact (perform_of_selects ⟨h.configuration_eq hsave, hconnect⟩).1
    · rw [if_pos hmem, hfailure] at hconnect
      exact h.refuses hconnect
    · rw [if_neg hmissing] at hconnect
      exact h.refuses hconnect
  · exact refuses fun stored k context h => absurd h (hnone stored k context)

namespace TwoClusters

/-- The configuration that is stored. -/
def defaults : Config := { context := some "prod" }

/-- A kubeconfig with two contexts. -/
def kubeconfig : Kubeconfig := { contexts := ["dev", "prod"], current := some "dev" }

/-- Two clusters, of which only one can be reached. The other one is current in the kubeconfig. -/
def landscape : Landscape where
  home := { root := .directory [(".k8scatalog",
    .directory [("config.json", .file defaults.text.toUTF8)])] }
  kubeconfig := some kubeconfig
  servers context := if context = "prod" then Dev.server else Server.unreachable
  now := 100

/-- The configuration is loaded. -/
theorem load_landscape : Config.load landscape.home ⟨configPath⟩ = .ok defaults :=
  Config.load_of_text (c := defaults) (by decide) rfl

/-- A context that is given and not found is not replaced by the stored or the current one. Without
it the run keeps to the stored one. -/
theorem staging_is_not_prod :
    (performAmong landscape { context := some "staging", refresh := true }).result =
        .error (.connect (.unknownContext "staging")) ∧
      (performAmong landscape { context := some "staging", refresh := true }).requests = [] ∧
      KeepsTo landscape {} "prod" := by
  obtain ⟨-, hgiven, -⟩ := (run_keeps_to_its_context landscape
    ["--context", "staging", "--refresh"]).2 { context := some "staging", refresh := true }
    (by decide)
  obtain ⟨-, hplain, -⟩ := (run_keeps_to_its_context landscape []).2 {} (by decide)
  obtain ⟨-, -, -, hunknown⟩ := hgiven defaults kubeconfig "staging" ⟨load_landscape, rfl, rfl⟩
  obtain ⟨hrefuses, hresult⟩ := hunknown (by decide)
  exact ⟨hresult nofun, hrefuses.requests,
    (hplain defaults kubeconfig "prod" ⟨load_landscape, rfl, rfl⟩).1⟩

end TwoClusters

end Run

end ApiCatalog
