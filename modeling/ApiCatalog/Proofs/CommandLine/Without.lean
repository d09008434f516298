import ApiCatalog.CommandLine.Reading

/-!
# Command lines without some switches

`CommandLine.without` removes switches from a command line, with their values. What is left names
the options of the whole line, but for what the removed switches set (`Options.read_without`). The
two lines are read side by side: `Tracks` says that all is known of the shorter one that is known of
the longer one, and `Waits` says so between two words, where a value may be pending.
-/

namespace ApiCatalog

open CommandLine (Switch Setting Flag)

/-- The options with what the hidden switches set taken from other options. -/
def Options.hide (hidden : Switch → Bool) (o base : Options) : Options where
  command := o.command
  context := if hidden (.setting .context) then base.context else o.context
  group := if hidden (.setting .group) then base.group else o.group
  apiVersion := if hidden (.setting .apiVersion) then base.apiVersion else o.apiVersion
  skipStatus := if hidden (.flag .skipStatus) then base.skipStatus else o.skipStatus
  fields := if hidden (.setting .hasField) then base.fields else o.fields
  anyField := if hidden (.flag .anyField) then base.anyField else o.anyField
  format := if hidden (.setting .output) then base.format else o.format
  noHeaders := if hidden (.flag .noHeaders) then base.noHeaders else o.noHeaders
  refresh := if hidden (.flag .refresh) then base.refresh else o.refresh
  save := if hidden (.flag .save) then base.save else o.save
  verbose := if hidden (.flag .verbose) then base.verbose else o.verbose

namespace CommandLine

/-- The setting that waits for a value after a switch without one. -/
def Switch.setting? : Switch → Option Setting
  | .setting s => some s
  | _ => none

/-- The letters of a word that are not of hidden switches, and the setting that waits for a value
behind the word. -/
def keptLetters (hidden : Switch → Bool) : List Char → List Char × Option Setting
  | [] => ([], none)
  | c :: rest =>
    match Switch.ofLetter? c with
    | none => (c :: rest, none)
    | some switch =>
      match switch.setting?, Progress.attachedValue? rest with
      | some _, some _ => (if hidden switch then [] else c :: rest, none)
      | some setting, none => (if hidden switch then [] else [c], some setting)
      | none, _ =>
        let (kept, waiting) := keptLetters hidden rest
        (if hidden switch then kept else c :: kept, waiting)

/-- The words of a command line without the hidden switches and their values. A setting may wait for
its value, and the words from a command on stay as they are. -/
def without (hidden : Switch → Bool) (waiting : Option Setting) : List String → List String
  | [] => []
  | word :: words =>
    match Word.ofText word with
    | .terminator => word :: words
    | .long name value =>
      match Switch.ofName? name with
      | none => word :: words
      | some switch =>
        let rest := without hidden (if value.isSome then none else switch.setting?) words
        if hidden switch then rest else word :: rest
    | .letters letters =>
      let (kept, waiting) := keptLetters hidden letters
      let rest := without hidden waiting words
      if kept = [] then rest else String.ofList ('-' :: kept) :: rest
    | .plain _ =>
      match waiting with
      | none => word :: words
      | some setting =>
        let rest := without hidden none words
        if hidden (.setting setting) then rest else word :: rest

variable {hidden : Switch → Bool} {base o : Options} {p q r : Progress}

/-- Two steps come to a result if the first one comes to what leads the second one to it. -/
theorem bind_eq_ok_iff {α β : Type} {first : Except Stop α} {next : α → Except Stop β} {b : β} :
    first >>= next = .ok b ↔ ∃ a, first = .ok a ∧ next a = .ok b := by
  cases first with
  | error => exact iff_of_false nofun nofun
  | ok a => simp [bind, Except.bind]

/-! ## Nothing pending -/

/-- Of the shorter line all is known that is known of the longer one, and nothing is pending. -/
structure Tracks (hidden : Switch → Bool) (base : Options) (p q : Progress) : Prop where
  options : q.options = p.options.hide hidden base
  given : ∀ switch, hidden switch = false → (switch ∈ q.given ↔ switch ∈ p.given)
  settled : p.pending = none ∧ q.pending = none

/-- A switch that is not hidden is noted in both lines. -/
theorem Tracks.note (h : Tracks hidden base p q) {switch : Switch} (hnote : p.note switch = .ok r) :
    if hidden switch then Tracks hidden base r q
    else ∃ next, q.note switch = .ok next ∧ Tracks hidden base r next := by
  unfold Progress.note at hnote
  split at hnote
  next => cases hnote
  next hfree =>
    cases hnote
    split
    next hhidden =>
      refine ⟨h.options, fun other hother => ?_, h.settled⟩
      have hne : other ≠ switch := by
        rintro rfl
        rw [hhidden] at hother
        cases hother
      rw [h.given other hother, List.mem_cons, or_iff_right hne]
    next hshown =>
      rw [Bool.not_eq_true] at hshown
      refine ⟨{ q with given := switch :: q.given }, ?_, h.options, fun other hother => ?_,
        h.settled⟩
      · exact if_neg fun hgiven => hfree ⟨(h.given switch hshown).1 hgiven.1, hgiven.2⟩
      · rw [List.mem_cons, List.mem_cons, h.given other hother]

/-- A value that is stored is stored likewise with hidden options, or hidden itself. -/
theorem hide_store {setting : Setting} {value : String} {stored : Options}
    (h : setting.store? value o = some stored) :
    if hidden (.setting setting) then stored.hide hidden base = o.hide hidden base
    else setting.store? value (o.hide hidden base) = some (stored.hide hidden base) := by
  cases setting with
  | context | group | apiVersion | hasField =>
      cases h
      split
      next hhidden => simp [Options.hide, hhidden]
      next hshown => simp [Setting.store?, Options.hide, hshown]
  | output =>
      obtain ⟨format, hformat, rfl⟩ := Option.map_eq_some_iff.1 h
      split
      next hhidden => simp [Options.hide, hhidden]
      next hshown => simp [Setting.store?, Options.hide, hshown, hformat]

/-- A flag that is raised is raised likewise with hidden options, or hidden itself. -/
theorem hide_raise (flag : Flag) (o : Options) :
    (flag.raise o).hide hidden base =
      if hidden (.flag flag) then o.hide hidden base else flag.raise (o.hide hidden base) := by
  cases flag <;> split <;> rename_i h <;> simp [Flag.raise, Options.hide, h]

/-- A setting that is not hidden is stored in both lines. -/
theorem Tracks.store (h : Tracks hidden base p q) {setting : Setting} {value : String}
    (hstore : p.store setting value = .ok r) :
    if hidden (.setting setting) then Tracks hidden base r q
    else ∃ next, q.store setting value = .ok next ∧ Tracks hidden base r next := by
  rw [Progress.store, bind_eq_ok_iff] at hstore
  obtain ⟨noted, hnote, hstore⟩ := hstore
  have htracks := h.note hnote
  split at hstore
  next stored hstored =>
    cases hstore
    have hhide := @hide_store hidden base _ _ _ _ hstored
    split at htracks
    next hhidden =>
      rw [if_pos hhidden]
      rw [if_pos hhidden] at hhide
      exact ⟨htracks.options.trans hhide.symm, htracks.given, htracks.settled⟩
    next hshown =>
      obtain ⟨next, hnext, htracks⟩ := htracks
      rw [if_neg hshown]
      rw [if_neg hshown, ← htracks.options] at hhide
      refine ⟨{ next with options := stored.hide hidden base }, ?_, rfl, htracks.given,
        htracks.settled⟩
      rw [Progress.store, bind_eq_ok_iff]
      refine ⟨next, hnext, ?_⟩
      rw [hhide]
  next => cases hstore

/-- A flag that is not hidden is raised in both lines. -/
theorem Tracks.raise (h : Tracks hidden base p q) {flag : Flag} {noted : Progress}
    (hnote : p.note (.flag flag) = .ok noted) :
    if hidden (.flag flag) then
      Tracks hidden base { noted with options := flag.raise noted.options } q
    else ∃ next, q.note (.flag flag) = .ok next ∧
      Tracks hidden base { noted with options := flag.raise noted.options }
        { next with options := flag.raise next.options } := by
  have htracks := h.note hnote
  have hhide := @hide_raise hidden base flag noted.options
  split at htracks
  next hhidden =>
    rw [if_pos hhidden]
    rw [if_pos hhidden] at hhide
    exact ⟨htracks.options.trans hhide.symm, htracks.given, htracks.settled⟩
  next hshown =>
    rw [if_neg hshown]
    rw [if_neg hshown] at hhide
    obtain ⟨next, hnext, htracks⟩ := htracks
    exact ⟨next, hnext, htracks.options ▸ hhide.symm, htracks.given, htracks.settled⟩

/-- Where nothing is pending there is nothing to settle. -/
theorem settle_of_pending_eq_none (h : p.pending = none) : p.settle = .ok p := by
  rw [Progress.settle, h]

/-! ## A value pending -/

/-- The two lines agree as soon as what is pending in them is settled. -/
def Ready (hidden : Switch → Bool) (base : Options) (p q : Progress) : Prop :=
  ∃ settled other, p.settle = .ok settled ∧ q.settle = .ok other ∧ Tracks hidden base settled other

/-- The two lines agree between two words, where a setting may wait for its value. The shorter line
waits for it unless the setting is hidden. -/
def Waits (hidden : Switch → Bool) (base : Options) (p q : Progress) : Option Setting → Prop
  | none => Ready hidden base p q
  | some setting =>
    p.pending = some (setting, none) ∧
      if hidden (.setting setting) then
        ∃ other, q.settle = .ok other ∧ Tracks hidden base { p with pending := none } other
      else
        q.pending = some (setting, none) ∧
          Tracks hidden base { p with pending := none } { q with pending := none }

/-- Lines that agree with nothing pending are ready. -/
theorem Tracks.ready (h : Tracks hidden base p q) : Ready hidden base p q :=
  ⟨p, q, settle_of_pending_eq_none h.settled.1, settle_of_pending_eq_none h.settled.2, h⟩

/-- A line that is settled once stays as it is. -/
theorem Ready.of_settle {settled other : Progress} (h : Tracks hidden base settled other)
    (hq : q.settle = .ok other) : Ready hidden base settled q :=
  ⟨settled, other, settle_of_pending_eq_none h.settled.1, hq, h⟩

/-- A setting with its value is taken in both lines, or only in the longer one if it is hidden. -/
theorem Ready.attach (h : Ready hidden base p q) {setting : Setting} {value : String}
    (hattach : p.attach setting value = .ok r) :
    if hidden (.setting setting) then Ready hidden base r q
    else ∃ next, q.attach setting value = .ok next ∧ Ready hidden base r next := by
  obtain ⟨settled, other, hp, hq, htracks⟩ := h
  rw [Progress.attach, hp] at hattach
  have hstore := htracks.store hattach
  split at hstore
  next hhidden =>
    rw [if_pos hhidden]
    exact .of_settle hstore hq
  next hshown =>
    rw [if_neg hshown]
    obtain ⟨next, hnext, htracks⟩ := hstore
    refine ⟨next, ?_, htracks.ready⟩
    rw [Progress.attach, hq]
    exact hnext

/-- A switch is taken in both lines, or only in the longer one if it is hidden. -/
theorem Ready.take (h : Ready hidden base p q) {switch : Switch} (htake : p.take switch = .ok r) :
    if hidden switch then Waits hidden base r q switch.setting?
    else ∃ next, q.take switch = .ok next ∧ Waits hidden base r next switch.setting? := by
  obtain ⟨settled, other, hp, hq, htracks⟩ := h
  have hpending : { settled with pending := none } = settled := by rw [← htracks.settled.1]
  cases switch with
  | setting setting =>
      rw [Progress.take, Progress.await, hp] at htake
      cases htake
      split
      next hhidden =>
        refine ⟨rfl, ?_⟩
        rw [if_pos hhidden]
        exact ⟨other, hq, hpending.symm ▸ htracks⟩
      next hshown =>
        refine ⟨{ other with pending := some (setting, none) }, ?_, rfl, ?_⟩
        · rw [Progress.take, Progress.await, hq]
          rfl
        · rw [if_neg hshown]
          have hother : { other with pending := none } = other := by rw [← htracks.settled.2]
          exact ⟨rfl, by simpa only [hpending, hother] using htracks⟩
  | flag flag =>
      rw [Progress.take, Progress.raise, bind_eq_ok_iff] at htake
      obtain ⟨_, hsettle, htake⟩ := htake
      rw [hp] at hsettle
      cases hsettle
      obtain ⟨noted, hnote, hraised⟩ := bind_eq_ok_iff.1 htake
      cases hraised
      have hraise := htracks.raise hnote
      split at hraise
      next hhidden =>
        rw [if_pos hhidden]
        exact Ready.of_settle hraise hq
      next hshown =>
        rw [if_neg hshown]
        obtain ⟨next, hnext, htracks⟩ := hraise
        refine ⟨_, ?_, htracks.ready⟩
        rw [Progress.take, Progress.raise, bind_eq_ok_iff]
        exact ⟨other, hq, bind_eq_ok_iff.2 ⟨next, hnext, rfl⟩⟩
  | help | version =>
      rw [Progress.take, Progress.stop, hp] at htake
      cases htake

/-- The value that a setting waits for is given in both lines, or only in the longer one if the
setting is hidden. -/
theorem Waits.supply {setting : Setting} (h : Waits hidden base p q (some setting))
    {value : String} (hsettle : ({ p with pending := some (setting, some value) }).settle = .ok r) :
    Ready hidden base { p with pending := some (setting, some value) }
      (if hidden (.setting setting) then q
        else { q with pending := some (setting, some value) }) := by
  obtain ⟨-, h⟩ := h
  split at h
  next hhidden =>
    obtain ⟨other, hq, htracks⟩ := h
    have hstore := htracks.store hsettle
    rw [if_pos hhidden] at hstore
    rw [if_pos hhidden]
    exact ⟨r, other, hsettle, hq, hstore⟩
  next hshown =>
    have hstore := h.2.store hsettle
    rw [if_neg hshown] at hstore
    rw [if_neg hshown]
    obtain ⟨next, hnext, htracks⟩ := hstore
    exact ⟨r, next, hsettle, hnext, htracks⟩

/-- What can be settled waits for no value. -/
theorem awaits?_of_settle (h : p.settle = .ok r) : p.awaits? = none := by
  unfold Progress.settle at h
  unfold Progress.awaits?
  cases hpending : p.pending with
  | none => rfl
  | some pending =>
      obtain ⟨setting, value⟩ := pending
      cases value with
      | some value => rfl
      | none =>
          rw [hpending] at h
          cases h

/-- A setting that waits for its value cannot be settled. -/
theorem Waits.eq_none {waiting : Option Setting} (h : Waits hidden base p q waiting)
    (hsettle : p.settle = .ok r) : waiting = none := by
  cases waiting with
  | none => rfl
  | some setting =>
      rw [Progress.settle, h.1] at hsettle
      cases hsettle

/-! ## Words -/

/-- Whatever is taken, what is pending is settled before. -/
theorem exists_settle_of_take {switch : Switch} (h : p.take switch = .ok r) :
    ∃ settled, p.settle = .ok settled := by
  cases switch with
  | setting | flag | help | version =>
      obtain ⟨settled, hsettle, -⟩ := bind_eq_ok_iff.1 h
      exact ⟨settled, hsettle⟩

/-- Before a value is attached, what was pending is settled. -/
theorem exists_settle_of_attach {setting : Setting} {value : String}
    (h : p.attach setting value = .ok r) : ∃ settled, p.settle = .ok settled := by
  obtain ⟨settled, hsettle, -⟩ := bind_eq_ok_iff.1 h
  exact ⟨settled, hsettle⟩

/-- A long name is one of a switch. It takes the value that is attached, if the switch is a setting,
and none is attached to other switches. -/
theorem takeLong_cases {name : String} {value : Option String} (h : p.takeLong name value = .ok r) :
    ∃ switch, Switch.ofName? name = some switch ∧
      ((value = none ∧ p.take switch = .ok r) ∨
        ∃ setting text, switch = .setting setting ∧ value = some text ∧
          p.attach setting text = .ok r) := by
  unfold Progress.takeLong at h
  split at h
  next => cases h
  next switch hswitch => exact ⟨switch, hswitch, .inl ⟨rfl, h⟩⟩
  next setting text hswitch => exact ⟨_, hswitch, .inr ⟨setting, text, rfl, rfl, h⟩⟩
  next => cases h

/-- A long name without a value takes its switch. -/
theorem takeLong_none {name : String} {switch : Switch}
    (hswitch : Switch.ofName? name = some switch) : p.takeLong name none = p.take switch := by
  unfold Progress.takeLong
  rw [hswitch]

/-- A long name with a value attaches it to its setting. -/
theorem takeLong_some {name text : String} {setting : Setting}
    (hswitch : Switch.ofName? name = some (.setting setting)) :
    p.takeLong name (some text) = p.attach setting text := by
  unfold Progress.takeLong
  rw [hswitch]

/-- The first of some letters is one of a switch. A setting takes the rest as its value, and after
other switches the rest is taken letter by letter. -/
theorem takeLetters_cases {c : Char} {rest : List Char} (h : p.takeLetters (c :: rest) = .ok r) :
    ∃ switch, Switch.ofLetter? c = some switch ∧
      ((∃ setting text, switch = .setting setting ∧ Progress.attachedValue? rest = some text ∧
          p.attach setting text = .ok r) ∨
        (∃ setting, switch = .setting setting ∧ rest = [] ∧ p.take switch = .ok r) ∨
        switch.setting? = none ∧ ∃ next, p.take switch = .ok next ∧
          next.takeLetters rest = .ok r) := by
  rw [Progress.takeLetters] at h
  split at h
  next => cases h
  next setting text hswitch hvalue => exact ⟨_, hswitch, .inl ⟨setting, text, rfl, hvalue, h⟩⟩
  next switch hswitch hother =>
    obtain ⟨next, hnext, hrest⟩ := bind_eq_ok_iff.1 h
    refine ⟨switch, hswitch, .inr ?_⟩
    cases switch with
    | setting setting =>
        -- Only where nothing is left no value is attached.
        have hempty : rest = [] := by
          cases hvalue : Progress.attachedValue? rest with
          | some text => exact (hother setting text hvalue rfl).elim
          | none =>
              unfold Progress.attachedValue? at hvalue
              split at hvalue
              next => rfl
              next => cases hvalue
              next => cases hvalue
        subst hempty
        rw [Progress.takeLetters] at hrest
        cases hrest
        exact .inl ⟨setting, rfl, rfl, hnext⟩
    | flag | help | version => exact .inr ⟨rfl, next, hnext, hrest⟩

/-- A word of letters has some. -/
theorem exists_cons_of_letters {text : String} {letters : List Char}
    (h : Word.ofText text = .letters letters) : ∃ c rest, letters = c :: rest := by
  unfold Word.ofText at h
  split at h
  next => cases h
  next => cases h
  next =>
    cases h
    exact ⟨_, _, rfl⟩
  next => cases h

/-- Before letters are taken, what was pending is settled. -/
theorem exists_settle_of_takeLetters {text : String} {letters : List Char}
    (hword : Word.ofText text = .letters letters) (h : p.takeLetters letters = .ok r) :
    ∃ settled, p.settle = .ok settled := by
  obtain ⟨c, rest, rfl⟩ := exists_cons_of_letters hword
  obtain ⟨switch, -, ⟨_, _, -, -, hattach⟩ | ⟨_, -, -, htake⟩ | ⟨-, _, htake, -⟩⟩ :=
    takeLetters_cases h
  · exact exists_settle_of_attach hattach
  · exact exists_settle_of_take htake
  · exact exists_settle_of_take htake

/-- The letters of a word that are left begin with one of a switch. -/
theorem head_keptLetters {letters : List Char} (h : p.takeLetters letters = .ok r) :
    ∀ c ∈ (keptLetters hidden letters).1.head?, Switch.ofLetter? c ≠ none := by
  induction letters generalizing p with
  | nil => exact nofun
  | cons c rest ih =>
      obtain ⟨switch, hswitch, hcases⟩ := takeLetters_cases h
      have hc : Switch.ofLetter? c ≠ none := by
        rw [hswitch]
        exact nofun
      rw [keptLetters, hswitch]
      rcases hcases with ⟨setting, text, rfl, hvalue, -⟩ | ⟨setting, rfl, rfl, -⟩ |
        ⟨hnone, next, -, hrest⟩
      · simp only [Switch.setting?, hvalue]
        split <;> simp [hc]
      · simp only [Switch.setting?, Progress.attachedValue?]
        split <;> simp [hc]
      · simp only [hnone]
        split
        next => exact ih hrest
        next => simp [hc]

/-- The letters that are left are taken in the shorter line. -/
theorem Ready.takeLetters {letters : List Char} (h : Ready hidden base p q)
    (htake : p.takeLetters letters = .ok r) :
    ∃ next, q.takeLetters (keptLetters hidden letters).1 = .ok next ∧
      Waits hidden base r next (keptLetters hidden letters).2 := by
  induction letters generalizing p q with
  | nil =>
      rw [Progress.takeLetters] at htake
      cases htake
      exact ⟨q, rfl, h⟩
  | cons c rest ih =>
      obtain ⟨switch, hswitch, hcases⟩ := takeLetters_cases htake
      rw [keptLetters, hswitch]
      rcases hcases with ⟨setting, text, rfl, hvalue, hattach⟩ | ⟨setting, rfl, rfl, hsingle⟩ |
        ⟨hnone, middle, hmiddle, hrest⟩
      · have hboth := h.attach hattach
        simp only [Switch.setting?, hvalue]
        split at hboth
        next hhidden =>
          rw [if_pos hhidden]
          exact ⟨q, rfl, hboth⟩
        next hshown =>
          rw [if_neg hshown]
          obtain ⟨next, hnext, hready⟩ := hboth
          refine ⟨next, ?_, hready⟩
          rw [Progress.takeLetters, hswitch, hvalue]
          exact hnext
      · have hboth := h.take hsingle
        simp only [Switch.setting?, Progress.attachedValue?]
        split at hboth
        next hhidden =>
          rw [if_pos hhidden]
          exact ⟨q, rfl, hboth⟩
        next hshown =>
          rw [if_neg hshown]
          obtain ⟨next, hnext, hwaits⟩ := hboth
          refine ⟨next, ?_, hwaits⟩
          rw [Progress.takeLetters, hswitch]
          exact bind_eq_ok_iff.2 ⟨next, hnext, rfl⟩
      · have hboth := h.take hmiddle
        simp only [hnone] at hboth ⊢
        split at hboth
        next hhidden =>
          rw [if_pos hhidden]
          exact ih hboth hrest
        next hshown =>
          rw [if_neg hshown]
          obtain ⟨other, hother, hready⟩ := hboth
          obtain ⟨next, hnext, hwaits⟩ := ih hready hrest
          refine ⟨next, ?_, hwaits⟩
          have hrun : q.takeLetters (c :: (keptLetters hidden rest).1) =
              (q.take switch >>= (·.takeLetters (keptLetters hidden rest).1)) := by
            rw [Progress.takeLetters, hswitch]
            cases switch with
            | setting => cases hnone
            | flag | help | version => rfl
          rw [hrun]
          exact bind_eq_ok_iff.2 ⟨other, hother, hnext⟩

/-- The longer line and the shorter one end with the same options, but for the hidden ones. -/
theorem Ready.finish (hfields : hidden (.setting .hasField) = false)
    (hany : hidden (.flag .anyField) = false) (h : Ready hidden base p q)
    {command : Option Command} (hfinish : p.finish command = .ok o) :
    q.finish command = .ok (o.hide hidden base) := by
  obtain ⟨settled, other, hp, hq, htracks⟩ := h
  rw [Progress.finish, hp] at hfinish
  rw [Progress.finish, hq]
  have hsame : other.options.anyField = settled.options.anyField ∧
      other.options.fields = settled.options.fields := by
    rw [htracks.options]
    simp [Options.hide, hfields, hany]
  simp only [bind, Except.bind] at hfinish ⊢
  split at hfinish
  next => cases hfinish
  next hfree =>
    cases hfinish
    rw [if_neg (by rw [hsame.1, hsame.2]; exact hfree), htracks.options]
    rfl

/-- Letters behind a dash are a word of letters. -/
theorem ofText_letters {c : Char} (hc : c ≠ '-') (rest : List Char) :
    Word.ofText (String.ofList ('-' :: c :: rest)) = .letters (c :: rest) := by
  rw [Word.ofText, String.toList_ofList]
  split <;> simp_all

/-- A line that is read settles what is pending, unless the next word is a value. -/
theorem exists_settle_of_readWords {words : List String} (hawaits : p.awaits? = none)
    (h : readWords p words = .ok o) : ∃ settled, p.settle = .ok settled := by
  have hfinish : ∀ command, p.finish command = .ok o → ∃ settled, p.settle = .ok settled := by
    intro command hfinish
    obtain ⟨settled, hsettle, -⟩ := bind_eq_ok_iff.1 hfinish
    exact ⟨settled, hsettle⟩
  cases words with
  | nil => exact hfinish none h
  | cons word words =>
      rw [readWords] at h
      split at h
      next =>
        cases words with
        | nil => exact hfinish none h
        | cons => cases h
      next =>
        obtain ⟨next, htake, -⟩ := bind_eq_ok_iff.1 h
        obtain ⟨switch, -, ⟨-, htake⟩ | ⟨_, _, -, -, hattach⟩⟩ := takeLong_cases htake
        · exact exists_settle_of_take htake
        · exact exists_settle_of_attach hattach
      next letters hword =>
        obtain ⟨next, htake, -⟩ := bind_eq_ok_iff.1 h
        exact exists_settle_of_takeLetters hword htake
      next =>
        rw [hawaits] at h
        dsimp only at h
        split at h
        next =>
          obtain ⟨command, -, hcommand⟩ := bind_eq_ok_iff.1 h
          exact hfinish _ hcommand
        next => cases h

/-- The shorter line is read as the longer one, but for what the hidden switches set. -/
theorem readWords_without (hfields : hidden (.setting .hasField) = false)
    (hany : hidden (.flag .anyField) = false) {waiting : Option Setting} {words : List String}
    (h : Waits hidden base p q waiting) (hread : readWords p words = .ok o) :
    readWords q (without hidden waiting words) = .ok (o.hide hidden base) := by
  induction words generalizing p q waiting with
  | nil =>
      obtain ⟨settled, hsettle, -⟩ := bind_eq_ok_iff.1 hread
      obtain rfl := h.eq_none hsettle
      exact h.finish hfields hany hread
  | cons word words ih =>
      rw [readWords] at hread
      rw [without.eq_def]
      split at hread
      next hword =>
        cases words with
        | nil =>
            obtain ⟨settled, hsettle, -⟩ := bind_eq_ok_iff.1 hread
            obtain rfl := h.eq_none hsettle
            simp only [hword]
            rw [readWords]
            simp only [hword]
            exact h.finish hfields hany hread
        | cons => cases hread
      next name value hword =>
        obtain ⟨next, hlong, hrest⟩ := bind_eq_ok_iff.1 hread
        obtain ⟨switch, hswitch, ⟨rfl, htake⟩ | ⟨setting, text, rfl, rfl, hattach⟩⟩ :=
          takeLong_cases hlong
        · obtain ⟨settled, hsettle⟩ := exists_settle_of_take htake
          obtain rfl := h.eq_none hsettle
          have hboth := Ready.take h htake
          simp only [hword, hswitch, Option.isSome_none, Bool.false_eq_true, if_false]
          split at hboth
          next hhidden =>
            rw [if_pos hhidden]
            exact ih hboth hrest
          next hshown =>
            rw [if_neg hshown]
            obtain ⟨other, hother, hwaits⟩ := hboth
            rw [readWords]
            simp only [hword, takeLong_none hswitch]
            exact bind_eq_ok_iff.2 ⟨other, hother, ih hwaits hrest⟩
        · obtain ⟨settled, hsettle⟩ := exists_settle_of_attach hattach
          obtain rfl := h.eq_none hsettle
          have hboth := Ready.attach h hattach
          simp only [hword, hswitch, Option.isSome_some, if_true]
          split at hboth
          next hhidden =>
            rw [if_pos hhidden]
            exact ih hboth hrest
          next hshown =>
            rw [if_neg hshown]
            obtain ⟨other, hother, hready⟩ := hboth
            rw [readWords]
            simp only [hword, takeLong_some hswitch]
            exact bind_eq_ok_iff.2 ⟨other, hother, ih hready hrest⟩
      next letters hword =>
        obtain ⟨next, htake, hread⟩ := bind_eq_ok_iff.1 hread
        obtain ⟨settled, hsettle⟩ := exists_settle_of_takeLetters hword htake
        obtain rfl := h.eq_none hsettle
        obtain ⟨other, hother, hwaits⟩ := Ready.takeLetters h htake
        have hhead := @head_keptLetters hidden _ _ _ htake
        simp only [hword]
        cases hkept : (keptLetters hidden letters).1 with
        | nil =>
            rw [hkept, Progress.takeLetters] at hother
            cases hother
            rw [if_pos rfl]
            exact ih hwaits hread
        | cons c kept =>
            have hc : c ≠ '-' := by
              rintro rfl
              exact hhead '-' (by rw [hkept]; rfl) rfl
            rw [hkept] at hother
            rw [if_neg (List.cons_ne_nil c kept), readWords, ofText_letters hc]
            exact bind_eq_ok_iff.2 ⟨other, hother, ih hwaits hread⟩
      next text hword =>
        simp only [hword]
        cases waiting with
        | none =>
            obtain ⟨settled, other, hp, hq, htracks⟩ := h
            rw [awaits?_of_settle hp] at hread
            dsimp only at hread ⊢
            rw [readWords]
            simp only [hword, awaits?_of_settle hq]
            split at hread
            next subcommand hsubcommand =>
              obtain ⟨command, hcommand, hfinish⟩ := bind_eq_ok_iff.1 hread
              exact bind_eq_ok_iff.2 ⟨command, hcommand,
                Ready.finish hfields hany ⟨settled, other, hp, hq, htracks⟩ hfinish⟩
            next => cases hread
        | some setting =>
            have hawaits : p.awaits? = some setting := by rw [Progress.awaits?, h.1]
            rw [hawaits] at hread
            dsimp only at hread ⊢
            obtain ⟨settled, hsettle⟩ := exists_settle_of_readWords rfl hread
            have hready := h.supply hsettle
            split at hready
            next hhidden =>
              rw [if_pos hhidden]
              exact ih hready hread
            next hshown =>
              have hq := h.2
              rw [if_neg hshown] at hq
              have hpending : q.awaits? = some setting := by rw [Progress.awaits?, hq.1]
              rw [if_neg hshown, readWords]
              simp only [hword, hpending]
              exact ih hready hread

end CommandLine

open CommandLine

/-- A command line without some switches names its options without what these set. -/
theorem Options.read_without {hidden : Switch → Bool}
    (hfields : hidden (.setting .hasField) = false) (hany : hidden (.flag .anyField) = false)
    {words : List String} {o : Options} (h : Options.read words = .ok o) :
    Options.read (without hidden none words) = .ok (o.hide hidden {}) := by
  have hstart : Tracks hidden {} {} {} := by
    refine ⟨?_, fun _ _ => Iff.rfl, rfl, rfl⟩
    simp only [Options.hide, ite_self]
  exact readWords_without hfields hany hstart.ready h

/-! ## Defaults and the cache -/

/-- The switches for the defaults of later runs, and the one that saves them. -/
def CommandLine.Switch.ofDefaults : Switch → Bool
  | .setting .context | .setting .group | .setting .apiVersion | .flag .save => true
  | _ => false

/-- The options without the defaults of later runs. -/
def Options.withoutDefaults (o : Options) : Options :=
  { o with context := none, group := none, apiVersion := none, save := false }

/-- A command line without the switches for defaults. -/
def CommandLine.withoutDefaults (words : List String) : List String :=
  without Switch.ofDefaults none words

/-- Without the words for defaults, a line is read as the same options without defaults. -/
theorem Options.read_withoutDefaults {words : List String} {o : Options}
    (h : Options.read words = .ok o) :
    Options.read (CommandLine.withoutDefaults words) = .ok o.withoutDefaults :=
  Options.read_without rfl rfl h

end ApiCatalog
