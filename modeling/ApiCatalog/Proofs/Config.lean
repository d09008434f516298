import ApiCatalog.Proofs.Json.Coarse
import ApiCatalog.Proofs.Json.Records
import ApiCatalog.Proofs.Storage.Kinds
import ApiCatalog.Proofs.Text.Bytes
import ApiCatalog.Run

/-!
# The stored configuration

A configuration is read back from its text (`decode_text`), so what is loaded after a save is what
was saved (`load_of_text`). Loading looks at the file only (`load_congr`). Where the file can be
written (`Writable`) a save makes the directory above it if there is none and puts the text in its
place, or the part of the text that comes before a fault (`stores_save`). Whether and why it fails
follows from what is seen on the way to the file (`reported`).
-/

namespace ApiCatalog.Config

open Json (optionalMember)
open Node (Grown Within)
open Run (base configPath)

/-! ## The text -/

/-- An optional member is found under its own name only. -/
theorem filter_optionalMember (name key : String) (value : Option Json) :
    (optionalMember name value).filter (·.1 = key) =
      if name = key then optionalMember name value else [] := by
  cases value <;> by_cases hname : name = key <;> simp [optionalMember, hname]

/-- What the text has under a key. -/
theorem occurrences_members (c : Config) (key : String) :
    Written.occurrences key (Json.spelledFields c.members) =
      (if contextKey = key then (c.context.map fun text => (Json.string text).spelled).toList
        else []) ++
      (if groupKey = key then (c.group.map fun text => (Json.string text).spelled).toList
        else []) ++
      (if apiVersionKey = key then (c.apiVersion.map fun text => (Json.string text).spelled).toList
        else []) ++
      (if cacheSecondsKey = key then [(Json.ofNat c.cacheSeconds).spelled] else []) := by
  have hoptional : ∀ (name : String) (value : Option String),
      ((optionalMember name (value.map .string)).filter (·.1 = key)).map (·.2.spelled) =
        if name = key then (value.map fun text => (Json.string text).spelled).toList else [] := by
    intro name value
    rw [filter_optionalMember]
    cases value <;> by_cases hname : name = key <;> simp [optionalMember, hname]
  rw [Written.occurrences, Json.spelledFields, List.filter_map, List.map_map]
  show (c.members.filter (·.1 = key)).map (·.2.spelled) = _
  rw [members, List.filter_append, List.filter_append, List.filter_append, List.map_append,
    List.map_append, List.map_append, hoptional, hoptional, hoptional]
  by_cases hname : cacheSecondsKey = key <;> simp [hname]

/-- A default is decoded from its member, and it is absent if there is none. -/
theorem once_decodeDefault {fields : List (String × Written)} {key : String}
    (value : Option String)
    (h : Written.occurrences key fields =
      (value.map fun text => (Json.string text).spelled).toList) :
    Written.once key decodeDefault fields = some (value.map some) := by
  rw [Written.once, h]
  cases value with
  | none => rfl
  | some text =>
      have hdecode : decodeDefault (Json.string text).spelled = some (some text) := by
        show (Written.text? (Json.string text).spelled).map some = _
        rw [Written.undoes_text.decode_form, Option.map_some]
      show (decodeDefault (Json.string text).spelled).map some = _
      rw [hdecode]
      rfl

/-- A number of seconds is read from its member. -/
theorem once_natural? {fields : List (String × Written)} {key : String} {seconds : Nat}
    (hseconds : seconds < NumberLiteral.wordLimit)
    (h : Written.occurrences key fields = [(Json.ofNat seconds).spelled]) :
    Written.once key Written.natural? fields = some (some seconds) := by
  rw [Written.once, h]
  show (Written.natural? (Json.ofNat seconds).spelled).map some = _
  rw [Written.natural?_ofNat hseconds, Option.map_some]

/-- The configuration is read back from its text, if its seconds fit 64 bits. -/
theorem decode_text {c : Config} (hseconds : c.cacheSeconds < NumberLiteral.wordLimit) :
    (Written.read c.text).bind decode = some c := by
  have hmember := occurrences_members c
  have hcontext := once_decodeDefault c.context
    ((hmember contextKey).trans (by simp [contextKey, groupKey, apiVersionKey, cacheSecondsKey]))
  have hgroup := once_decodeDefault c.group
    ((hmember groupKey).trans (by simp [contextKey, groupKey, apiVersionKey, cacheSecondsKey]))
  have hversion := once_decodeDefault c.apiVersion
    ((hmember apiVersionKey).trans (by simp [contextKey, groupKey, apiVersionKey, cacheSecondsKey]))
  have hcache := once_natural? hseconds
    ((hmember cacheSecondsKey).trans
      (by simp [contextKey, groupKey, apiVersionKey, cacheSecondsKey]))
  have hjoin : ∀ value : Option String, (value.map some).join = value := by
    rintro (_ | value) <;> rfl
  rw [text, Json.read_pretty, Option.bind_some]
  show (Written.fields? (Json.object c.members).spelled).bind decodeFields = _
  rw [Written.fields?_object, Option.bind_some, decodeFields]
  simp only [hcontext, hgroup, hversion, hcache, Option.bind_eq_bind, Option.bind_some, hjoin,
    Option.getD_some]

/-- A natural number that is read fits 64 bits. -/
theorem natural?_lt {written : Written} {n : Nat} (h : written.natural? = some n) :
    n < NumberLiteral.wordLimit := by
  unfold Written.natural? at h
  split at h
  next literal =>
    split at h
    next m hvalue =>
      obtain rfl := Option.some.inj h
      exact Int.ofNat_lt.1 (NumberLiteral.fits_of_value? hvalue).2
    next => cases h
  next => cases h

/-- The seconds of a configuration that is read fit 64 bits. -/
theorem cacheSeconds_lt_of_decodeFields {fields : List (String × Written)} {c : Config}
    (h : decodeFields fields = some c) : c.cacheSeconds < NumberLiteral.wordLimit := by
  simp only [decodeFields, Option.bind_eq_bind, Option.bind_eq_some_iff] at h
  obtain ⟨context, -, group, -, apiVersion, -, found, hfound, h⟩ := h
  rw [← Option.some.inj h]
  cases found with
  | none => exact (by decide : ({} : Config).cacheSeconds < NumberLiteral.wordLimit)
  | some seconds =>
      rw [Written.once] at hfound
      split at hfound
      next => cases hfound
      next written _ =>
        obtain ⟨n, hn, hsome⟩ := Option.map_eq_some_iff.1 hfound
        obtain rfl := Option.some.inj hsome
        exact natural?_lt hn
      next => cases hfound

/-- The seconds of a configuration that is decoded fit 64 bits. -/
theorem cacheSeconds_lt_of_decode {written : Written} {c : Config} (h : decode written = some c) :
    c.cacheSeconds < NumberLiteral.wordLimit := by
  unfold decode at h
  split at h
  next =>
    obtain ⟨-, h⟩ := Option.ite_none_right_eq_some.1 h
    exact cacheSeconds_lt_of_decodeFields h
  next =>
    obtain ⟨fields, -, h⟩ := Option.bind_eq_some_iff.1 h
    exact cacheSeconds_lt_of_decodeFields h

/-! ## Overriding -/

/-- A command line that gives no defaults leaves those that are stored. -/
theorem override_of_none {c : Config} {o : Options} (hcontext : o.context = none)
    (hgroup : o.group = none) (hversion : o.apiVersion = none) : c.override o = c := by
  rw [override, hcontext, hgroup, hversion]
  rfl

/-! ## The file -/

/-- The file can be reached at all. -/
theorem isUsable_configPath : (Route.mk configPath).isUsable = true := by decide

/-- The file is in the directory of all that is stored. -/
theorem above_configPath : (Route.mk configPath).above = ⟨base⟩ := by decide

/-- The file is reached through its directory. -/
theorem locate?_configPath (root : Node) :
    (Route.mk configPath).locate? root =
      if root.isDirectory [] && root.isDirectory base then some configPath else none := by
  rw [Route.locate?, if_pos isUsable_configPath]
  have hidle : Route.isIdle ".k8scatalog" = false ∧ Route.isIdle "config.json" = false := by decide
  have hupward : ".k8scatalog" ≠ Route.upward ∧ "config.json" ≠ Route.upward := by decide
  simp only [configPath, base, List.cons_append, List.nil_append, Route.follow, hidle, hupward,
    if_false, Bool.false_eq_true]
  by_cases hroot : root.isDirectory [] = true <;>
    by_cases hbase : root.isDirectory [".k8scatalog"] = true <;> simp [hroot, hbase]

/-- What is seen on the way to the directory of the file. -/
theorem way_base (root : Node) :
    (Route.mk base).way root =
      if root.standing [] = .directory then [.directory, root.standing base]
      else [root.standing []] := by
  have hidle : Route.isIdle ".k8scatalog" = false ∧ ".k8scatalog" ≠ Route.upward := by decide
  simp only [Route.way, base, Route.passed, hidle, if_false, Bool.false_eq_true, List.nil_append]

/-- What is seen on the way to the file. -/
theorem way_configPath {root : Node} (hhome : root.standing [] = .directory)
    (hdirectory : root.standing base = .directory) :
    (Route.mk configPath).way root = [.directory, .directory, root.standing configPath] := by
  have hidle : Route.isIdle ".k8scatalog" = false ∧ Route.isIdle "config.json" = false := by decide
  have hupward : ".k8scatalog" ≠ Route.upward ∧ "config.json" ≠ Route.upward := by decide
  simp only [base] at hdirectory
  simp only [Route.way, configPath, base, List.cons_append, List.nil_append, Route.passed, hidle,
    hupward, if_false, Bool.false_eq_true, hhome, hdirectory, if_true]

/-- Above the file there are directories, if anything is there. -/
theorem kind?_above_configPath {root : Node} {kind : Node.Kind}
    (h : root.kind? configPath = some kind) :
    root.kind? [] = some .directory ∧ root.kind? base = some .directory := by
  have habove : ∀ (place : List String) (name : String) (rest : List String),
      configPath = place ++ name :: rest → root.kind? place = some .directory := by
    intro place name rest hpath
    rw [hpath] at h
    exact Node.kind?_of_prefix h
  exact ⟨habove [] ".k8scatalog" ["config.json"] rfl, habove base "config.json" [] rfl⟩

/-- Something is found at the end of the way to the file if it is there. -/
theorem filter_locate?_configPath (root : Node) :
    ((Route.mk configPath).locate? root).filter (fun path => root.isPresent path) =
      if root.isPresent configPath then some configPath else none := by
  rw [locate?_configPath]
  by_cases hpresent : root.isPresent configPath = true
  · obtain ⟨kind, hkind⟩ : ∃ kind, root.kind? configPath = some kind := by
      rcases Node.isPresent_eq_true_iff.1 hpresent with h | ⟨content, h⟩ <;> exact ⟨_, h⟩
    obtain ⟨hroot, hbase⟩ := kind?_above_configPath hkind
    rw [← Node.isDirectory_eq_true_iff] at hroot hbase
    simp [hroot, hbase, hpresent]
  · by_cases hway : (root.isDirectory [] && root.isDirectory base) = true <;> simp [hway, hpresent]

/-- Where something is that cannot be read, there are directories all the way. -/
theorem way_of_unreadable {root : Node} (hpresent : root.isPresent configPath = true)
    (hcontent : root.content? configPath = none) :
    (Route.mk configPath).way root = [.directory, .directory, .directory] := by
  have hfile : root.kind? configPath = some .directory := by
    refine (Node.isPresent_eq_true_iff.1 hpresent).resolve_right ?_
    rintro ⟨content, hkind⟩
    rw [Node.content?_eq_some_iff.2 hkind] at hcontent
    cases hcontent
  obtain ⟨hhome, hbase⟩ := kind?_above_configPath hfile
  rw [← Node.standing_eq_directory_iff] at hfile hhome hbase
  rw [way_configPath hhome hbase, hfile]

/-- The file is loaded if anything is there, and otherwise there are no defaults yet. -/
theorem load_eq (s : Storage) :
    load s ⟨configPath⟩ =
      if s.root.isPresent configPath then
        match s.root.content? configPath with
        | none => .error (.unreadable (s.shown configPath)
            (.blocked [.directory, .directory, .directory]))
        | some content =>
          match String.fromUTF8? content with
          | none => .error (.unreadable (s.shown configPath) .notText)
          | some text =>
            match (Written.read text).bind decode with
            | none => .error (.malformed (s.shown configPath) text)
            | some config => .ok config
      else .ok {} := by
  rw [load, filter_locate?_configPath]
  cases hpresent : s.root.isPresent configPath with
  | false => rfl
  | true =>
      cases hcontent : s.root.content? configPath with
      | some content =>
          rw [if_pos rfl]
          simp only [hcontent]
          rfl
      | none => simp only [if_true, hcontent, way_of_unreadable hpresent hcontent]

/-- What is loaded depends on what is seen at the file alone. -/
theorem load_congr {s t : Storage} (hlabel : s.label = t.label)
    (hfile : s.root.kind? configPath = t.root.kind? configPath) :
    load s ⟨configPath⟩ = load t ⟨configPath⟩ := by
  rw [load_eq, load_eq, Node.isPresent_congr hfile, Node.content?_congr hfile, Storage.shown,
    Storage.shown, hlabel]

/-- The configuration in the content of a file. -/
def ofContent? (content : ByteArray) : Option Config := do
  decode (← Written.read (← String.fromUTF8? content))

/-- A configuration is loaded from a file that holds it, and the default one if nothing is there. -/
theorem load_eq_ok_iff {s : Storage} {c : Config} :
    load s ⟨configPath⟩ = .ok c ↔
      (s.root.content? configPath).bind ofContent? = some c ∨
        s.root.isPresent configPath = false ∧ c = {} := by
  rw [load_eq]
  by_cases hpresent : s.root.isPresent configPath = true
  · simp only [hpresent, if_true, Bool.true_eq_false, false_and, or_false]
    cases s.root.content? configPath with
    | none => simp
    | some content =>
        simp only [Option.bind_some, ofContent?, Option.bind_eq_bind]
        cases String.fromUTF8? content with
        | none => simp
        | some text => cases h : (Written.read text).bind decode <;> simp [h]
  · have hcontent : s.root.content? configPath = none := by
      rw [Option.eq_none_iff_forall_ne_some]
      exact fun content h => hpresent (Node.isPresent_of_content? h)
    simp [hpresent, hcontent, eq_comm]

/-- Which configuration is loaded does not even depend on how messages show the file. -/
theorem load_eq_ok_congr {s t : Storage} {c : Config}
    (hfile : s.root.kind? configPath = t.root.kind? configPath) :
    load s ⟨configPath⟩ = .ok c ↔ load t ⟨configPath⟩ = .ok c := by
  rw [load_eq_ok_iff, load_eq_ok_iff, Node.content?_congr hfile, Node.isPresent_congr hfile]

/-- The configuration is loaded from a file with its text. -/
theorem load_of_text {c : Config} {s : Storage}
    (hseconds : c.cacheSeconds < NumberLiteral.wordLimit)
    (hfile : s.root.kind? configPath = some (.file c.text.toUTF8)) :
    load s ⟨configPath⟩ = .ok c := by
  have hdecode : ofContent? c.text.toUTF8 = some c := by
    rw [ofContent?, Text.fromUTF8?_toUTF8]
    exact decode_text hseconds
  rw [load_eq_ok_iff, Node.content?_eq_some_iff.2 hfile]
  exact .inl hdecode

/-- The seconds of a configuration that is loaded fit 64 bits. -/
theorem cacheSeconds_lt_of_load {s : Storage} {c : Config} (h : load s ⟨configPath⟩ = .ok c) :
    c.cacheSeconds < NumberLiteral.wordLimit := by
  rcases load_eq_ok_iff.1 h with hcontent | ⟨-, rfl⟩
  · simp only [ofContent?, Option.bind_eq_bind, Option.bind_eq_some_iff] at hcontent
    obtain ⟨content, -, text, -, written, -, hdecode⟩ := hcontent
    exact cacheSeconds_lt_of_decode hdecode
  · decide

/-! ## Saving -/

/-- The file can be written: the home directory is there, nothing but a directory stands in the
place of the directory of the file, and nothing but a file in the place of the file. -/
structure Writable (root : Node) : Prop where
  home : root.kind? [] = some .directory
  directory : root.kind? base = none ∨ root.kind? base = some .directory
  file : root.kind? configPath = none ∨ ∃ content, root.kind? configPath = some (.file content)

/-- The directory of the file is made as it is written. -/
theorem makeDirectories?_base (root : Node) :
    (Route.mk base).makeDirectories? root = root.makeDirectories base := by
  have htext : (Route.mk base).text ≠ "" := by decide
  have husable : (Route.mk base).isUsable = true := by decide
  have hidle : Route.isIdle ".k8scatalog" = false ∧ ".k8scatalog" ≠ Route.upward := by decide
  rw [Route.makeDirectories?, if_neg htext, if_pos husable]
  simp only [base, Route.make, hidle, if_false, Bool.false_eq_true, List.nil_append]
  cases root.makeDirectories [".k8scatalog"] <;> rfl

/-- In its directory the file is written as its path says. -/
theorem write?_configPath {root : Node} (hhome : root.kind? [] = some .directory)
    (hdirectory : root.kind? base = some .directory) (content : ByteArray) :
    (Route.mk configPath).write? content root = root.write? configPath content := by
  have hends : (Route.mk configPath).endsInName = true := by decide
  rw [← Node.isDirectory_eq_true_iff] at hhome hdirectory
  simp [Route.write?, hends, locate?_configPath, hhome, hdirectory]

/-- What a save reports, given what is seen in the place of the home directory, of the directory of
the file and of the file. -/
def reported (s : Storage) (home parent place : Standing) (fault : Option Fault) :
    Except ConfigError Unit :=
  if fault = some .directory then .error (.noDirectory (s.shown base) .refused)
  else if home ≠ .directory then .error (.noDirectory (s.shown base) (.blocked [home]))
  else if parent ≠ .nothing ∧ parent ≠ .directory then
    .error (.noDirectory (s.shown base) (.blocked [.directory, parent]))
  else if fault = some .file then .error (.unwritable (s.shown configPath) .refused)
  else if place ≠ .nothing ∧ place ≠ .file then
    .error (.unwritable (s.shown configPath) (.blocked [.directory, .directory, place]))
  else if fault = none then .ok ()
  else .error (.unwritable (s.shown configPath) .brokenOff)

/-- The file can be written if this is seen. -/
theorem writable_iff_standing {root : Node} :
    Writable root ↔ root.standing [] = .directory ∧
      (root.standing base = .nothing ∨ root.standing base = .directory) ∧
      (root.standing configPath = .nothing ∨ root.standing configPath = .file) := by
  rw [Node.standing_eq_directory_iff, Node.standing_eq_directory_iff, Node.standing_eq_nothing_iff,
    Node.standing_eq_nothing_iff, Node.standing_eq_file_iff]
  exact ⟨fun h => ⟨h.home, h.directory, h.file⟩, fun ⟨hhome, hparent, hplace⟩ =>
    ⟨hhome, hparent, hplace⟩⟩

/-- What a save of a configuration is seen to change. Where the file can be written, what the fault
leaves of the text stands there, and otherwise the file is as it was. -/
structure Stores (c : Config) (s : Storage) (fault : Option Fault)
    (saved : Except ConfigError Unit × Storage) : Prop where
  label : saved.2.label = s.label
  result : saved.1 = reported s (s.root.standing []) (s.root.standing base)
    (s.root.standing configPath) fault
  written : Writable s.root → ∀ content, Fault.left? c.text.toUTF8 fault = some content →
    saved.2.root.kind? configPath = some (.file content)
  unwritten : (Writable s.root → Fault.left? c.text.toUTF8 fault = none) →
    saved.2.root.kind? configPath = s.root.kind? configPath
  within : Within configPath s.root saved.2.root
  ordered : s.root.Ordered → saved.2.root.Ordered

/-- Where no directory can be made for the file, this is reported. -/
theorem reported_of_blocked {s : Storage} {fault : Option Fault} (hfault : fault ≠ some .directory)
    (hblocked : ¬ (s.root.standing [] = .directory ∧
      (s.root.standing base = .nothing ∨ s.root.standing base = .directory))) (place : Standing) :
    reported s (s.root.standing []) (s.root.standing base) place fault =
      .error (.noDirectory (s.shown base) (.blocked ((Route.mk base).way s.root))) := by
  rw [reported, if_neg hfault, way_base]
  by_cases hhome : s.root.standing [] = .directory
  · rw [if_pos hhome, if_neg (not_not_intro hhome), if_pos (not_or.1 fun h => hblocked ⟨hhome, h⟩)]
  · rw [if_neg hhome, if_pos hhome]

/-- Where the directory is there or can be made, it depends on the file what is reported. -/
theorem reported_of_not_blocked {s : Storage} {fault : Option Fault}
    (hfault : fault ≠ some .directory) (hhome : s.root.standing [] = .directory)
    (hparent : s.root.standing base = .nothing ∨ s.root.standing base = .directory)
    (place : Standing) :
    reported s (s.root.standing []) (s.root.standing base) place fault =
      if fault = some .file then .error (.unwritable (s.shown configPath) .refused)
      else if place ≠ .nothing ∧ place ≠ .file then
        .error (.unwritable (s.shown configPath) (.blocked [.directory, .directory, place]))
      else if fault = none then .ok ()
      else .error (.unwritable (s.shown configPath) .brokenOff) := by
  rw [reported, if_neg hfault, if_neg (not_not_intro hhome),
    if_neg fun h => hparent.elim h.1 h.2]

/-- What is seen once the directory of the file is there. -/
structure Made (root made : Node) : Prop where
  before : root.standing [] = .directory ∧
    (root.standing base = .nothing ∨ root.standing base = .directory)
  home : made.kind? [] = some .directory
  directory : made.kind? base = some .directory
  file : made.kind? configPath = root.kind? configPath
  within : Within configPath root made
  ordered : root.Ordered → made.Ordered

/-- The directory of the file can be made. -/
theorem exists_makeDirectories_base_iff {root : Node} :
    (∃ made, root.makeDirectories base = some made) ↔
      root.standing [] = .directory ∧
        (root.standing base = .nothing ∨ root.standing base = .directory) := by
  have hname : Node.isName ".k8scatalog" = true := by decide
  rw [Node.standing_eq_directory_iff, Node.standing_eq_directory_iff, Node.standing_eq_nothing_iff]
  exact Node.exists_makeDirectories_singleton_iff hname

/-- Then this is seen. -/
theorem made_of_makeDirectories {root made : Node} (h : root.makeDirectories base = some made) :
    Made root made := by
  have hkind := Node.kind?_makeDirectories h
  refine ⟨exists_makeDirectories_base_iff.1 ⟨made, h⟩, ?_, ?_, ?_,
    Node.within_makeDirectories h (List.prefix_append base _),
    fun hordered => Node.ordered_makeDirectories hordered h⟩
  · rw [hkind, if_pos List.nil_prefix]
  · rw [hkind, if_pos (List.prefix_refl _)]
  · rw [hkind, if_neg (by decide)]

/-- In its directory the file can be written, if nothing but a file is in its place. -/
theorem Made.exists_write_iff {root made : Node} (h : Made root made) (content : ByteArray) :
    (∃ written, (Route.mk configPath).write? content made = some written) ↔
      root.standing configPath = .nothing ∨ root.standing configPath = .file := by
  have hname : Node.isName "config.json" = true := by decide
  have hwrite : (∃ written, made.write? configPath content = some written) ↔
      made.kind? base = some .directory ∧
        (made.kind? configPath = none ∨ ∃ old, made.kind? configPath = some (.file old)) :=
    Node.exists_write_iff hname
  rw [write?_configPath h.home h.directory, hwrite, and_iff_right h.directory, h.file,
    Node.standing_eq_nothing_iff, Node.standing_eq_file_iff]

/-- Without a fault all of the content is written. -/
theorem left?_of_eq_none {fault : Option Fault} (h : fault = none) (content : ByteArray) :
    Fault.left? content fault = some content := by
  rw [h]
  rfl

/-- The file is not opened because of a fault of its own. -/
theorem eq_file_of_left?_eq_none {content : ByteArray} {fault : Option Fault}
    (hfault : fault ≠ some .directory) (h : Fault.left? content fault = none) :
    fault = some .file := by
  rcases fault with _ | _ | _ | written
  · cases h
  · exact absurd rfl hfault
  · rfl
  · cases h

/-- Once its directory is there, the file is opened and written, as far as the fault admits. -/
theorem Made.stores_write {c : Config} {s : Storage} {made : Node} {fault : Option Fault}
    (h : Made s.root made) (hfault : fault ≠ some .directory) {content : ByteArray}
    (hleft : Fault.left? c.text.toUTF8 fault = some content) :
    Stores c s fault
      (match (Route.mk configPath).write? content made with
      | none => (.error (.unwritable (s.shown configPath)
          (.blocked ((Route.mk configPath).way made))), { s with root := made })
      | some written =>
        (if fault.isNone then .ok () else .error (.unwritable (s.shown configPath) .brokenOff),
          { s with root := written })) := by
  have hopened : fault ≠ some .file := by
    rintro rfl
    cases hleft
  have hreported :=
    reported_of_not_blocked hfault h.before.1 h.before.2 (s.root.standing configPath)
  rw [if_neg hopened] at hreported
  cases hwritten : (Route.mk configPath).write? content made with
  | none =>
      have hblocked := (not_congr (h.exists_write_iff content)).1 fun ⟨written, hsome⟩ =>
        Option.some_ne_none written (hsome.symm.trans hwritten)
      refine ⟨rfl, ?_, fun hwritable => ?_, fun _ => h.file, h.within, h.ordered⟩
      · rw [if_pos (not_or.1 hblocked)] at hreported
        rw [hreported, way_configPath (Node.standing_eq_directory_iff.2 h.home)
          (Node.standing_eq_directory_iff.2 h.directory), Node.standing_eq configPath, h.file,
          ← Node.standing_eq]
      · exact absurd (writable_iff_standing.1 hwritable).2.2 hblocked
  | some written =>
      have hfile := (h.exists_write_iff content).1 ⟨written, hwritten⟩
      have hplace : ¬ (s.root.standing configPath ≠ .nothing ∧
          s.root.standing configPath ≠ .file) := fun hblocked => hfile.elim hblocked.1 hblocked.2
      have hwritable : Writable s.root :=
        writable_iff_standing.2 ⟨h.before.1, h.before.2, hfile⟩
      rw [write?_configPath h.home h.directory] at hwritten
      refine ⟨rfl, ?_, fun _ other hother => ?_, fun hnone => ?_,
        h.within.trans (Node.sameApart_alter hwritten).within,
        fun hordered => (Node.replaced_write (h.ordered hordered) hwritten).ordered⟩
      · rw [if_neg hplace] at hreported
        rw [hreported]
        cases fault <;> rfl
      · obtain rfl := Option.some.inj (hleft.symm.trans hother)
        exact Node.kind?_write_self hwritten
      · rw [hnone hwritable] at hleft
        cases hleft

/-- A save is seen to do this. -/
theorem stores_save (c : Config) (s : Storage) (fault : Option Fault) :
    Stores c s fault (c.save s ⟨configPath⟩ fault) := by
  unfold save
  rw [above_configPath, makeDirectories?_base]
  dsimp only
  -- The save ends without a directory, without an open file, or with what is written.
  split
  next hfault =>
    subst hfault
    exact ⟨rfl, rfl, fun _ => nofun, fun _ => rfl, .refl _ _, id⟩
  next hfault =>
    cases hmade : s.root.makeDirectories base with
    | none =>
        have hblocked := (not_congr exists_makeDirectories_base_iff).1 fun ⟨made, h⟩ =>
          Option.some_ne_none made (h.symm.trans hmade)
        refine ⟨rfl, (reported_of_blocked hfault hblocked _).symm, fun h => ?_, fun _ => rfl,
          .refl _ _, id⟩
        obtain ⟨hhome, hdirectory, -⟩ := writable_iff_standing.1 h
        exact absurd ⟨hhome, hdirectory⟩ hblocked
    | some made =>
        have hseen := made_of_makeDirectories hmade
        cases hleft : Fault.left? c.text.toUTF8 fault with
        | some content => exact hseen.stores_write hfault hleft
        | none =>
            refine ⟨rfl, ?_, fun _ content h => ?_, fun _ => hseen.file, hseen.within,
              hseen.ordered⟩
            · rw [reported_of_not_blocked hfault hseen.before.1 hseen.before.2,
                if_pos (eq_file_of_left?_eq_none hfault hleft)]
            · rw [hleft] at h
              cases h

/-- A save succeeds exactly if the file can be written and there is no fault. -/
theorem Stores.result_eq_ok_iff {c : Config} {s : Storage} {fault : Option Fault}
    {saved : Except ConfigError Unit × Storage} (h : Stores c s fault saved) :
    saved.1 = .ok () ↔ Writable s.root ∧ fault = none := by
  rw [h.result, writable_iff_standing, reported]
  grind

/-- The two trees are alike on the way to the file, where it does not matter whether its directory
is already there. -/
structure SameWay (root other : Node) : Prop where
  home : other.kind? [] = root.kind? []
  directory : (other.kind? base).getD .directory = (root.kind? base).getD .directory

/-- Trees are alike if only directories were made. -/
theorem SameWay.of_grown {root changed : Node} (hhome : Grown [] root changed)
    (hdirectory : Grown base root changed) : SameWay root changed := by
  constructor
  · rcases hhome with hsame | ⟨hnone, -⟩
    · exact hsame
    · cases hnone
  · rcases hdirectory with hsame | ⟨hnone, hmade⟩
    · rw [hsame]
    · rw [hnone, hmade]
      rfl

/-- Being alike goes both ways. -/
theorem SameWay.symm {root other : Node} (h : SameWay root other) : SameWay other root :=
  ⟨h.home.symm, h.directory.symm⟩

/-- Trees that are alike to one tree are alike. -/
theorem SameWay.trans {root middle other : Node} (hfirst : SameWay root middle)
    (hsecond : SameWay middle other) : SameWay root other :=
  ⟨hsecond.home.trans hfirst.home, hsecond.directory.trans hfirst.directory⟩

/-- In trees that are alike a save reports the same, if the same is in the place of the file. -/
theorem SameWay.reported_eq {s t : Storage} (h : SameWay s.root t.root) (hlabel : t.label = s.label)
    (place : Standing) (fault : Option Fault) :
    reported t (t.root.standing []) (t.root.standing base) place fault =
      reported s (s.root.standing []) (s.root.standing base) place fault := by
  have hdirectory : ∀ (root : Node) (home : Standing),
      reported s home (root.standing base) place fault =
        reported s home ((root.kind? base).getD .directory).standing place fault := by
    intro root home
    rw [Node.standing_eq]
    cases root.kind? base <;> rfl
  have hshown : ∀ home parent, reported t home parent place fault =
      reported s home parent place fault := by
    intro home parent
    rw [reported, reported, Storage.shown, Storage.shown, Storage.shown, Storage.shown, hlabel]
  rw [hshown, hdirectory, hdirectory s.root, h.directory, Node.standing_eq [], Node.standing_eq [],
    h.home]

/-- In trees that are alike the file can be written, if nothing but a file is in its place. -/
theorem SameWay.writable {root other : Node} (h : SameWay root other) (hwritable : Writable root)
    (hfile : other.kind? configPath = none ∨
      ∃ content, other.kind? configPath = some (.file content)) : Writable other := by
  refine ⟨h.home.trans hwritable.home, ?_, hfile⟩
  have hdirectory := h.directory
  cases hother : other.kind? base with
  | none => exact .inl rfl
  | some kind =>
      rw [hother, Option.getD_some] at hdirectory
      rcases hwritable.directory with hnone | hsome
      · rw [hdirectory, hnone]
        exact .inr rfl
      · rw [hdirectory, hsome]
        exact .inr rfl

/-- If the same is in its place, it can be written in both of them or in none. -/
theorem SameWay.writable_iff {root other : Node} (h : SameWay root other)
    (hfile : other.kind? configPath = root.kind? configPath) :
    Writable other ↔ Writable root :=
  ⟨fun hwritable => h.symm.writable hwritable (hfile ▸ hwritable.file),
    fun hwritable => h.writable hwritable (hfile.symm ▸ hwritable.file)⟩

end ApiCatalog.Config
