import ApiCatalog.Proofs.Run.Files
import ApiCatalog.Proofs.Schema.Fractions

/-!
# What a run says

The reply of a run follows from its configuration, its context and the snapshot that it takes. The
configuration depends on its file, on what is on the way there and on the fault with which it is
written (`configure_congr`), and after a run the same options lead to the same one
(`configure_again`). Of a snapshot a reply shows the binary64 numbers at most in the causes of an
error (`Detail.ofReply_present`), so one that was read back from the cache is as good as the one
that was put there, up to these causes.
-/

namespace ApiCatalog

/-- The code, what is printed and the message of the error itself. -/
def Reply.outline (reply : Reply) : Reply := { reply with messages := reply.messages.take 1 }

namespace Run

variable {o : Options} {config stored : Config} {w : World} {context : String}
  {snapshot : Snapshot} {fault : Option Config.Fault}

/-! ## The report on a snapshot -/

/-- What counts of a reply. -/
def Detail.ofReply : Detail → Reply → Reply
  | .full, reply => reply
  | .outline, reply => reply.outline

/-- Up to causes, snapshots that differ in the binary64 numbers of their documents only are replied
the same. -/
theorem outline_present_congr (wording : Wording) (o : Options) (config : Config)
    {snapshot other : Snapshot} (h : snapshot.coarse = other.coarse) :
    (Reply.of wording (present o config snapshot)).outline =
      (Reply.of wording (present o config other)).outline := by
  obtain ⟨hannouncements, hopenapi⟩ := Snapshot.mk.inj h
  have hdefinitions := Definitions.toOption_ofDocument_eq hopenapi
  rw [present, present, catalog, catalog, hannouncements]
  cases hfirst : Definitions.ofDocument snapshot.openapi with
  | error error =>
      rw [hfirst] at hdefinitions
      cases hsecond : Definitions.ofDocument other.openapi with
      | error => rfl
      | ok definitions =>
          rw [hsecond] at hdefinitions
          cases hdefinitions
  | ok definitions =>
      rw [hfirst] at hdefinitions
      cases hsecond : Definitions.ofDocument other.openapi with
      | error =>
          rw [hsecond] at hdefinitions
          cases hdefinitions
      | ok others =>
          rw [hsecond] at hdefinitions
          rw [Option.some.inj hdefinitions]

/-- What counts of the reply on a snapshot depends on what counts of the snapshot. -/
theorem Detail.ofReply_present (detail : Detail) (wording : Wording) (o : Options)
    (config : Config) {snapshot other : Snapshot}
    (h : detail.ofSnapshot snapshot = detail.ofSnapshot other) :
    detail.ofReply (.of wording (present o config snapshot)) =
      detail.ofReply (.of wording (present o config other)) := by
  cases detail with
  | full =>
      obtain rfl : snapshot = other := h
      rfl
  | outline => exact outline_present_congr wording o config h

/-- What counts of the reply on what was taken. -/
theorem Detail.ofReply_bind_present (detail : Detail) (wording : Wording) (o : Options)
    (config : Config) {first second : Except RunError Snapshot}
    (h : detail.ofTaken first = detail.ofTaken second) :
    detail.ofReply (.of wording (first.bind (present o config))) =
      detail.ofReply (.of wording (second.bind (present o config))) := by
  cases first with
  | ok snapshot =>
      cases second with
      | ok other => exact detail.ofReply_present wording o config (Except.ok.inj h)
      | error => cases h
  | error error =>
      cases second with
      | ok => cases h
      | error other =>
          obtain rfl : error = other := Except.error.inj h
          rfl

/-! ## The configuration -/

/-- The configuration is settled with what the options give, if it need not be saved or can be. -/
theorem configure_of_writable {home : Storage} (hload : Config.load home ⟨configPath⟩ = .ok stored)
    (h : o.save = true → Config.Writable home.root ∧ fault = none) :
    (configure o home fault).1 = .ok (stored.override o) := by
  rw [configure_of_ok hload]
  split
  next hsave =>
    have hsaved := (Config.stores_save (stored.override o) home fault).result_eq_ok_iff.2 (h hsave)
    dsimp only
    rw [hsaved]
    rfl
  next => rfl

/-- It is not settled if it has to be saved and cannot be. -/
theorem configure_of_not_writable {home : Storage}
    (hload : Config.load home ⟨configPath⟩ = .ok stored) (hsave : o.save = true)
    (h : ¬ (Config.Writable home.root ∧ fault = none)) :
    ∃ error, (configure o home fault).1 = .error (.notSaved error) := by
  rw [configure_of_ok hload, if_pos hsave]
  cases hsaved : ((stored.override o).save home ⟨configPath⟩ fault).1 with
  | error error => exact ⟨error, rfl⟩
  | ok =>
      exact absurd ((Config.stores_save (stored.override o) home fault).result_eq_ok_iff.1 hsaved) h

/-- A configuration is settled in the same way where the file and the way to it are the same. -/
theorem configure_congr (o : Options) (fault : Option Config.Fault) {home other : Storage}
    (hlabel : other.label = home.label)
    (hfile : other.root.kind? configPath = home.root.kind? configPath)
    (hway : Config.SameWay home.root other.root) :
    (configure o other fault).1 = (configure o home fault).1 := by
  have hload := Config.load_congr hlabel hfile
  cases hstored : Config.load home ⟨configPath⟩ with
  | error => rw [configure_of_error hstored, configure_of_error (hload.trans hstored)]
  | ok stored =>
      rw [configure_of_ok hstored, configure_of_ok (hload.trans hstored)]
      split
      next =>
        dsimp only
        rw [(Config.stores_save (stored.override o) home fault).result,
          (Config.stores_save (stored.override o) other fault).result,
          hway.reported_eq hlabel, Node.standing_eq configPath, Node.standing_eq configPath, hfile]
      next => rfl

/-- A configuration that is saved is loaded afterwards. -/
theorem Saves.load_later {home later : Storage} (h : Saves home o stored)
    (hfile : later.root.kind? configPath = (configure o home).2.root.kind? configPath) :
    Config.load later ⟨configPath⟩ = .ok (stored.override o) := by
  refine Config.load_of_text ?_ (hfile.trans (h.kind?_configPath rfl))
  exact (Config.cacheSeconds_lt_of_load h.load : stored.cacheSeconds < _)

/-- The run goes on with a configuration and a context. -/
structure Selects (w : World) (o : Options) (config : Config) (context : String) : Prop where
  configured : configuration w o = .ok config
  connected : connect w.kubeconfig config.context = .ok context

/-- Without a configuration nothing is asked for. -/
theorem perform_of_error {error : RunError} (h : configuration w o = .error error) :
    (perform w o).result = .error error ∧
      (perform w o).home = (configured w o).home ∧ (perform w o).requests = [] := by
  rw [perform_eq, h]
  exact ⟨rfl, rfl, rfl⟩

/-- With a configuration the snapshot of its context is taken. -/
theorem perform_of_ok (h : configuration w o = .ok config) :
    (perform w o).result =
        (acquire o config (configured w o)).result.bind (present o config) ∧
      (perform w o).home = (acquire o config (configured w o)).home ∧
      (perform w o).requests = (acquire o config (configured w o)).requests := by
  rw [perform_eq, h]
  exact ⟨rfl, rfl, rfl⟩

/-- Without a context to connect to nothing is asked for either. -/
theorem perform_of_connect_error {error : ConnectError} (h : configuration w o = .ok config)
    (hconnect : connect w.kubeconfig config.context = .error error) :
    (perform w o).result = .error (.connect error) ∧
      (perform w o).home = (configured w o).home ∧ (perform w o).requests = [] := by
  obtain ⟨hresult, hhome, hrequests⟩ := perform_of_ok h
  rw [hresult, hhome, hrequests, acquire_eq,
    show connect (configured w o).kubeconfig config.context = .error error from hconnect]
  exact ⟨rfl, rfl, rfl⟩

/-- A run takes the snapshot of its context. -/
theorem perform_of_selects (h : Selects w o config context) :
    (perform w o).result =
        (acquireFor o config (configured w o) context).result.bind (present o config) ∧
      (perform w o).home = (acquireFor o config (configured w o) context).home ∧
      (perform w o).requests = (acquireFor o config (configured w o) context).requests := by
  have hacquire : acquire o config (configured w o) =
      acquireFor o config (configured w o) context := by
    rw [acquire_eq, show connect (configured w o).kubeconfig config.context = _ from h.connected]
  rw [← hacquire]
  exact perform_of_ok h.configured

/-- What a run says of a snapshot, or why it says nothing of it. -/
def answer (w : World) (o : Options) (snapshot : Snapshot) : Except RunError String := do
  let config ← configuration w o
  let _ ← (connect w.kubeconfig config.context).mapError .connect
  present o config snapshot

end Run

end ApiCatalog
