import ApiCatalog.Proofs.CommandLine.Without
import Mathlib.Data.List.Nodup
import Mathlib.Data.List.Perm.Basic

/-!
# Options spelled as a command line

Options can be spelled with long names and attached values: a word for each of their `choices`, and
behind these the command, two dashes and its arguments (`Closing`). Every word is read as the choice
that it spells, whatever the value is (`readWords_word`), and so are the words of many choices, one
after the other (`readWords_words`). Choices of different switches do not get into each other's way
(`apply_comm`). So they may stand in any order, as long as the fields keep theirs: the line is read
as the options that it spells, or refused if these ask for one of no fields (`read_spelled`).
-/

namespace ApiCatalog

namespace CommandLine

/-- The long name of a switch with a value. -/
def Setting.name : Setting → String
  | .context => "context"
  | .group => "group"
  | .apiVersion => "api-version"
  | .hasField => "has-field"
  | .output => "output"

/-- The long name of a switch without one. -/
def Flag.name : Flag → String
  | .skipStatus => "skip-status"
  | .anyField => "any-field"
  | .noHeaders => "no-headers"
  | .refresh => "refresh"
  | .save => "save"
  | .verbose => "verbose"

/-- What one word of a command line chooses. -/
inductive Choice where
  | setting (setting : Setting) (value : String)
  | flag (flag : Flag)
deriving DecidableEq, Repr

namespace Choice

/-- The switch of a choice. -/
def switch : Choice → Switch
  | .setting s _ => .setting s
  | .flag f => .flag f

/-- The word that spells a choice. -/
def word : Choice → String
  | .setting s value => "--" ++ s.name ++ "=" ++ value
  | .flag f => "--" ++ f.name

/-- The field that a choice asks for. -/
def field? : Choice → Option String
  | .setting .hasField path => some path
  | _ => none

/-- The choice can be made once only: it is not one for a field. -/
def isSingle (c : Choice) : Bool := c.field?.isNone

/-- The value is one that the setting may have. -/
def IsValid : Choice → Prop
  | .setting .output value => (Format.ofName? value).isSome
  | _ => True

/-- The options with a choice made. -/
def apply (o : Options) : Choice → Options
  | .setting s value => (s.store? value o).getD o
  | .flag f => f.raise o

end Choice

end CommandLine

namespace Options

open CommandLine

/-- A flag is raised in the options. -/
def isRaised (o : Options) : Flag → Bool
  | .skipStatus => o.skipStatus
  | .anyField => o.anyField
  | .noHeaders => o.noHeaders
  | .refresh => o.refresh
  | .save => o.save
  | .verbose => o.verbose

/-- The flags that are raised. -/
def raised (o : Options) : List Flag :=
  [Flag.skipStatus, .anyField, .noHeaders, .refresh, .save, .verbose].filter o.isRaised

/-- A choice for each of the options that can be chosen once. The format is chosen in any case. -/
def singles (o : Options) : List Choice :=
  (o.context.map (.setting .context)).toList ++ (o.group.map (.setting .group)).toList ++
    (o.apiVersion.map (.setting .apiVersion)).toList ++
    .setting .output o.format.name :: o.raised.map .flag

/-- A choice for each of the options, but for the command. -/
def choices (o : Options) : List Choice := o.fields.map (.setting .hasField) ++ o.singles

/-- The choices are those of the options in some order, with the fields in theirs. -/
structure Arranged (o : Options) (choices : List Choice) : Prop where
  perm : choices.Perm o.choices
  fields : choices.filterMap Choice.field? = o.fields

end Options

namespace CommandLine

/-- How a command line with the given command ends: with the command, two dashes and its arguments.
Without a command there is nothing, or the dashes stand alone. -/
inductive Closing : Option Command → List String → Prop where
  | nothing : Closing none []
  | dashes : Closing none ["--"]
  | list : Closing (some .list) ["list", "--"]
  | describe (name) : Closing (some (.describe name)) ["describe", "--", name]
  | hasField (name path) : Closing (some (.hasField name path)) ["has-field", "--", name, path]

variable {p : Progress} {c d : Choice} {choices : List Choice} {o : Options}

/-! ## Words -/

/-- Two dashes and a name with an equals sign behind it, and then anything. -/
theorem ofText_of_toList {text : String} {name value : List Char}
    (htext : text.toList = '-' :: '-' :: (name ++ '=' :: value)) (hequals : '=' ∉ name) :
    Word.ofText text = .long (String.ofList name) (some (String.ofList value)) := by
  have hname : ∀ c ∈ name, decide (c ≠ '=') = true := fun c hc =>
    decide_eq_true fun h => hequals (h ▸ hc)
  have hlong : Word.ofText text =
      .long (String.ofList ((name ++ '=' :: value).takeWhile (· ≠ '=')))
        (Text.afterFirst '=' (String.ofList (name ++ '=' :: value))) := by
    rw [Word.ofText, htext]
    cases name <;> rfl
  rw [hlong, Text.afterFirst, String.toList_ofList, List.takeWhile_append_of_pos hname,
    List.dropWhile_append_of_pos hname]
  simp

/-- The word for a setting is read as its long name with the value. -/
theorem ofText_setting (s : Setting) (value : String) :
    Word.ofText (Choice.setting s value).word = .long s.name (some value) := by
  have hequals : '=' ∉ s.name.toList := by cases s <;> decide
  have htext : (Choice.setting s value).word.toList =
      '-' :: '-' :: (s.name.toList ++ '=' :: value.toList) := by simp [Choice.word]
  rw [ofText_of_toList htext hequals, String.ofList_toList, String.ofList_toList]

/-- The word for a flag is read as its long name. -/
theorem ofText_flag (f : Flag) : Word.ofText (Choice.flag f).word = .long f.name none := by
  cases f <;> decide

/-- A setting is found by its long name. -/
theorem ofName?_setting (s : Setting) : Switch.ofName? s.name = some (.setting s) := by
  cases s <;> rfl

/-- A flag is found by its long name. -/
theorem ofName?_flag (f : Flag) : Switch.ofName? f.name = some (.flag f) := by
  cases f <;> rfl

/-- A switch is noted unless it may be given once and is given already. -/
theorem note_of_free {switch : Switch} (h : switch ∈ p.given → switch = .setting .hasField) :
    p.note switch = .ok { p with given := switch :: p.given } :=
  if_neg fun hgiven => hgiven.2 (h hgiven.1)

/-- A valid value is stored. -/
theorem store?_of_isValid {s : Setting} {value : String} (h : (Choice.setting s value).IsValid)
    (o : Options) : s.store? value o = some ((Choice.setting s value).apply o) := by
  cases s with
  | context | group | apiVersion | hasField => rfl
  | output =>
      obtain ⟨format, hformat⟩ := Option.isSome_iff_exists.1 h
      rw [Choice.apply, Setting.store?, hformat]
      rfl

/-- The name and the value in the word of a choice are taken as this choice. -/
theorem takeLong_setting {s : Setting} {value : String} (hvalid : (Choice.setting s value).IsValid)
    (hsettled : p.pending = none)
    (hfree : Switch.setting s ∈ p.given → Switch.setting s = .setting .hasField) :
    p.takeLong s.name (some value) =
      .ok { p with
        options := (Choice.setting s value).apply p.options
        given := .setting s :: p.given } := by
  rw [takeLong_some (ofName?_setting s), Progress.attach, bind_eq_ok_iff]
  refine ⟨p, settle_of_pending_eq_none hsettled, ?_⟩
  rw [Progress.store, bind_eq_ok_iff]
  refine ⟨_, note_of_free hfree, ?_⟩
  rw [store?_of_isValid hvalid]

/-- A flag is raised by its long name, unless it was given before. -/
theorem takeLong_flag {f : Flag} (hsettled : p.pending = none)
    (hfree : Switch.flag f ∈ p.given → Switch.flag f = .setting .hasField) :
    p.takeLong f.name none =
      .ok { p with options := f.raise p.options, given := .flag f :: p.given } := by
  rw [takeLong_none (ofName?_flag f), Progress.take, Progress.raise, bind_eq_ok_iff]
  refine ⟨p, settle_of_pending_eq_none hsettled, ?_⟩
  rw [bind_eq_ok_iff]
  exact ⟨_, note_of_free hfree, rfl⟩

/-- The word of a choice is read as this choice. -/
theorem readWords_word (hvalid : c.IsValid) (hsettled : p.pending = none)
    (hfree : c.switch ∈ p.given → c.switch = .setting .hasField) (words : List String) :
    readWords p (c.word :: words) =
      readWords { p with options := c.apply p.options, given := c.switch :: p.given } words := by
  rw [readWords]
  cases c with
  | setting s value =>
      rw [ofText_setting]
      dsimp only
      rw [takeLong_setting hvalid hsettled hfree]
      rfl
  | flag f =>
      rw [ofText_flag]
      dsimp only
      rw [takeLong_flag hsettled hfree]
      rfl

/-- The words of choices are read as these choices, one after the other, if no switch is repeated
that may be given once. -/
theorem readWords_words (hvalid : ∀ c ∈ choices, c.IsValid) (hsettled : p.pending = none)
    (hfree : ∀ c ∈ choices, c.switch ∈ p.given → c.switch = .setting .hasField)
    (hdistinct : choices.Pairwise fun c d => c.switch = d.switch → c.switch = .setting .hasField)
    (words : List String) :
    ∃ given, readWords p (choices.map Choice.word ++ words) =
      readWords { p with options := choices.foldl Choice.apply p.options, given } words := by
  induction choices generalizing p with
  | nil => exact ⟨p.given, rfl⟩
  | cons c choices ih =>
      obtain ⟨hnew, hdistinct⟩ := List.pairwise_cons.1 hdistinct
      obtain ⟨hc, hvalid⟩ := List.forall_mem_cons.1 hvalid
      obtain ⟨hfirst, hfree⟩ := List.forall_mem_cons.1 hfree
      rw [List.map_cons, List.cons_append, readWords_word hc hsettled hfirst]
      refine ih hvalid hsettled (fun d hd hgiven => ?_) hdistinct
      rcases List.mem_cons.1 hgiven with hsame | hgiven
      · rw [hsame]
        exact hnew d hd hsame.symm
      · exact hfree d hd hgiven

/-- The end of a line gives the command. -/
theorem readWords_closing {command : Option Command} {words : List String}
    (h : Closing command words) (hsettled : p.pending = none) :
    readWords p words = p.finish command := by
  have hawaits := awaits?_of_settle (settle_of_pending_eq_none hsettled)
  cases h with
  | nothing => rfl
  | dashes => rfl
  | list =>
      rw [readWords, show Word.ofText "list" = .plain "list" from rfl]
      simp only [hawaits]
      rfl
  | describe name =>
      rw [readWords, show Word.ofText "describe" = .plain "describe" from rfl]
      simp only [hawaits]
      rfl
  | hasField name path =>
      rw [readWords, show Word.ofText "has-field" = .plain "has-field" from rfl]
      simp only [hawaits]
      rfl

/-! ## The order of choices -/

/-- Choices of different switches can be made in any order. -/
theorem apply_comm (h : c.switch ≠ d.switch) (o : Options) :
    d.apply (c.apply o) = c.apply (d.apply o) := by
  cases c with
  | setting s value =>
      cases d with
      | setting t other =>
          cases s <;> cases t <;> simp_all [Choice.switch, Choice.apply, Setting.store?]
      | flag g =>
          cases s <;> cases g <;> simp_all [Choice.switch, Choice.apply, Setting.store?, Flag.raise]
  | flag f =>
      cases d with
      | setting t other =>
          cases f <;> cases t <;> simp_all [Choice.switch, Choice.apply, Setting.store?, Flag.raise]
      | flag g => cases f <;> cases g <;> simp_all [Choice.switch, Choice.apply, Flag.raise]

/-- A choice that is none for a field lets more fields pass. -/
theorem apply_fields (hsingle : c.isSingle = true) (o : Options) (more : List String) :
    c.apply { o with fields := o.fields ++ more } =
      { c.apply o with fields := (c.apply o).fields ++ more } := by
  cases c with
  | flag f => cases f <;> rfl
  | setting s value =>
      cases s with
      | context | group | apiVersion => rfl
      | hasField => cases hsingle
      | output =>
          rw [Choice.apply, Choice.apply, Setting.store?, Setting.store?]
          cases Format.ofName? value <;> rfl

/-- Only choices for fields can be made more than once. -/
theorem isSingle_eq_false_iff : c.isSingle = false ↔ ∃ path, c = .setting .hasField path := by
  cases c with
  | flag f => simp [Choice.isSingle, Choice.field?]
  | setting s value => cases s <;> simp [Choice.isSingle, Choice.field?]

/-- What can be chosen more than once has the switch for fields. -/
theorem switch_of_not_isSingle (h : ¬ c.isSingle = true) : c.switch = .setting .hasField := by
  obtain ⟨path, rfl⟩ := isSingle_eq_false_iff.1 (Bool.eq_false_iff.2 h)
  rfl

/-- The fields can be chosen before all else. -/
theorem foldl_apply (choices : List Choice) (o : Options) :
    choices.foldl Choice.apply o =
      (choices.filter Choice.isSingle).foldl Choice.apply
        { o with fields := o.fields ++ choices.filterMap Choice.field? } := by
  induction choices generalizing o with
  | nil => simp
  | cons c choices ih =>
      rw [List.foldl_cons, ih]
      cases hsingle : c.isSingle with
      | true =>
          have hfield : c.field? = none := Option.isNone_iff_eq_none.1 hsingle
          rw [List.filter_cons_of_pos hsingle, List.filterMap_cons_none hfield, List.foldl_cons,
            apply_fields hsingle]
      | false =>
          obtain ⟨path, rfl⟩ := isSingle_eq_false_iff.1 hsingle
          simp [Choice.isSingle, Choice.field?, Choice.apply, Setting.store?]

/-- Choices of different switches lead to the same options in any order. -/
theorem foldl_apply_of_perm {others : List Choice} (hdistinct : (others.map Choice.switch).Nodup)
    (hperm : choices.Perm others) (o : Options) :
    choices.foldl Choice.apply o = others.foldl Choice.apply o := by
  refine hperm.foldl_eq' (fun c hc d hd o => ?_) o
  by_cases hsame : c.switch = d.switch
  · rw [List.inj_on_of_nodup_map hdistinct (hperm.subset hc) (hperm.subset hd) hsame]
  · exact apply_comm hsame o

/-- If the choices that can be made once have different switches, no switch but the one for fields
is repeated. -/
theorem pairwise_of_nodup_singles
    (h : ((choices.filter Choice.isSingle).map Choice.switch).Nodup) :
    choices.Pairwise fun c d => c.switch = d.switch → c.switch = .setting .hasField := by
  refine (List.pairwise_filter.1 (List.pairwise_map.1 h)).imp fun {c d} hne hsame => ?_
  by_contra hother
  have hc : c.isSingle = true := by
    by_contra hsingle
    exact hother (switch_of_not_isSingle hsingle)
  have hd : d.isSingle = true := by
    by_contra hsingle
    exact hother (hsame.trans (switch_of_not_isSingle hsingle))
  exact hne hc hd hsame

end CommandLine

namespace Options

open CommandLine

variable {o : Options} {choices : List Choice}

/-- The choices of options that can be made once are valid ones. -/
theorem singles_spec (o : Options) : ∀ c ∈ o.singles, c.isSingle = true ∧ c.IsValid := by
  intro c hc
  simp only [singles, List.mem_append, Option.mem_toList, Option.map_eq_some_iff, List.mem_cons,
    List.mem_map] at hc
  rcases hc with ((⟨_, -, rfl⟩ | ⟨_, -, rfl⟩) | ⟨_, -, rfl⟩) | rfl | ⟨_, -, rfl⟩
  · exact ⟨rfl, trivial⟩
  · exact ⟨rfl, trivial⟩
  · exact ⟨rfl, trivial⟩
  · exact ⟨rfl, by cases o.format <;> rfl⟩
  · exact ⟨rfl, trivial⟩

/-- The switch of an option that may be absent is given once at most. -/
theorem map_switch_optional_sublist (s : Setting) (value : Option String) :
    ((value.map (Choice.setting s)).toList.map Choice.switch).Sublist [.setting s] := by
  cases value with
  | none => exact List.nil_sublist _
  | some value => exact List.Sublist.refl _

/-- The choices of options that can be made once have different switches. -/
theorem nodup_singles (o : Options) : (o.singles.map Choice.switch).Nodup := by
  have hsublist : (o.singles.map Choice.switch).Sublist
      ([.setting .context] ++ [.setting .group] ++ [.setting .apiVersion] ++ .setting .output ::
        [Flag.skipStatus, .anyField, .noHeaders, .refresh, .save, .verbose].map Switch.flag) := by
    simp only [singles, List.map_append, List.map_cons, List.map_map]
    refine (((map_switch_optional_sublist _ _).append (map_switch_optional_sublist _ _)).append
      (map_switch_optional_sublist _ _)).append (.cons_cons _ ?_)
    exact List.filter_sublist.map _
  exact hsublist.nodup (by decide)

/-- Made one after the other, the choices give the options. -/
theorem foldl_singles (o : Options) :
    o.singles.foldl Choice.apply { fields := o.fields } = { o with command := none } := by
  obtain ⟨command, context, group, apiVersion, skipStatus, fields, anyField, format, noHeaders,
    refresh, save, verbose⟩ := o
  have hcontext : ((context.map (Choice.setting .context)).toList).foldl Choice.apply { fields } =
      { context, fields } := by cases context <;> rfl
  have hgroup : ((group.map (Choice.setting .group)).toList).foldl Choice.apply
      { context, fields } = { context, group, fields } := by cases group <;> rfl
  have hversion : ((apiVersion.map (Choice.setting .apiVersion)).toList).foldl Choice.apply
      { context, group, fields } = { context, group, apiVersion, fields } := by
    cases apiVersion <;> rfl
  have hformat : (Choice.setting .output format.name).apply { context, group, apiVersion, fields } =
      { context, group, apiVersion, fields, format } := by cases format <;> rfl
  simp only [singles, List.foldl_append, List.foldl_cons, hcontext, hgroup, hversion, hformat]
  cases skipStatus <;> cases anyField <;> cases noHeaders <;> cases refresh <;> cases save <;>
    cases verbose <;> rfl

/-- Without those for fields, the choices of options are the ones that can be made once. -/
theorem filter_isSingle_choices (o : Options) : o.choices.filter Choice.isSingle = o.singles := by
  have hfields : (o.fields.map (Choice.setting .hasField)).filter Choice.isSingle = [] := by
    simp [List.filter_eq_nil_iff, Choice.isSingle, Choice.field?]
  have hsingles : o.singles.filter Choice.isSingle = o.singles :=
    List.filter_eq_self.2 fun c hc => (singles_spec o c hc).1
  rw [Options.choices, List.filter_append, hfields, hsingles, List.nil_append]

/-- In an arrangement the choices that can be made once are a permutation of those of the
options. -/
theorem Arranged.perm_singles (h : o.Arranged choices) :
    (choices.filter Choice.isSingle).Perm o.singles := by
  rw [← filter_isSingle_choices]
  exact h.perm.filter _

/-- The choices of any arrangement are valid. -/
theorem Arranged.isValid (h : o.Arranged choices) : ∀ c ∈ choices, c.IsValid := by
  intro c hc
  rcases List.mem_append.1 (h.perm.subset hc) with hfield | hsingle
  · obtain ⟨path, -, rfl⟩ := List.mem_map.1 hfield
    trivial
  · exact (singles_spec o c hsingle).2

/-- In whatever order the choices are made, they give the options. -/
theorem Arranged.foldl_eq (h : o.Arranged choices) :
    choices.foldl Choice.apply {} = { o with command := none } := by
  rw [foldl_apply, h.fields, ← foldl_singles]
  exact foldl_apply_of_perm (nodup_singles o) h.perm_singles _

/-- The words of the choices, with the command behind them, are finished as the options. -/
theorem Arranged.read_eq (h : o.Arranged choices) {words : List String}
    (hclosing : Closing o.command words) :
    read (choices.map Choice.word ++ words) =
      if o.anyField = true ∧ o.fields = [] then .error (.wrong .missingRequiredArgument)
      else .ok o := by
  have hdistinct := ((h.perm_singles.map Choice.switch).nodup_iff).2 (nodup_singles o)
  obtain ⟨given, hread⟩ := readWords_words (p := {}) h.isValid rfl (fun _ _ => nofun)
    (pairwise_of_nodup_singles hdistinct) words
  rw [read, hread, readWords_closing hclosing rfl, h.foldl_eq]
  rfl

/-- Options spelled as words, in any order that keeps the fields in theirs and with the command
behind them, are read as these options, whatever the values are. If they ask for one of no fields,
the line is refused. -/
theorem read_spelled (h : o.Arranged choices) {words : List String}
    (hclosing : Closing o.command words) :
    ((o.anyField = true → o.fields ≠ []) →
      read (choices.map Choice.word ++ words) = .ok o) ∧
    (o.anyField = true → o.fields = [] →
      read (choices.map Choice.word ++ words) = .error (.wrong .missingRequiredArgument)) := by
  rw [h.read_eq hclosing]
  constructor
  · intro hany
    exact if_neg fun hnone => hany hnone.1 hnone.2
  · intro hany hnone
    exact if_pos ⟨hany, hnone⟩

namespace Switchlike

/-- Options whose values look like switches and commands. -/
def options : Options where
  command := some (.describe "--help")
  context := some ""
  group := some "=--save"
  fields := ["list", "--any-field"]
  anyField := true
  format := .json
  save := true

/-- The choices of these options in another order. -/
def shuffled : List Choice :=
  [.flag .save, .setting .hasField "list", .setting .output "json", .flag .anyField,
    .setting .group "=--save", .setting .hasField "--any-field", .setting .context ""]

/-- The values are read as values. Without the fields the line is refused. -/
theorem read_shuffled :
    (options.Arranged shuffled ∧ Closing options.command ["describe", "--", "--help"]) ∧
      read ["--save", "--has-field=list", "--output=json", "--any-field", "--group==--save",
        "--has-field=--any-field", "--context=", "describe", "--", "--help"] = .ok options ∧
      read ["--output=table", "--any-field"] = .error (.wrong .missingRequiredArgument) := by
  have harranged : options.Arranged shuffled := ⟨by decide, rfl⟩
  have hclosing : Closing options.command ["describe", "--", "--help"] := .describe "--help"
  have hnone : ({ anyField := true } : Options).Arranged
      [.setting .output "table", .flag .anyField] := ⟨by decide, rfl⟩
  exact ⟨⟨harranged, hclosing⟩, (read_spelled harranged hclosing).1 fun _ => by decide,
    (read_spelled hnone .nothing).2 rfl rfl⟩

end Switchlike

end Options

end ApiCatalog
