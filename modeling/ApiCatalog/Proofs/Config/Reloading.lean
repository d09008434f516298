import ApiCatalog.Proofs.Config
import ApiCatalog.Proofs.Storage.Routes

/-!
# Loading what was saved

A configuration that is saved at the end of any route that can be written is loaded from there
again, and saving what was loaded leaves the same text (`save_load_save`). So it restricts catalogs
as before: the empty group still admits the core group only, and an absent one any group.
-/

namespace ApiCatalog.Config

variable {c : Config} {s : Storage} {route : Route} {place : List String}

/-- A save succeeds if the text can be written. -/
theorem save_of_writeBelow? {root : Node}
    (h : route.writeBelow? c.text.toUTF8 s.root = some root) :
    c.save s route = (.ok (), { s with root }) := by
  obtain ⟨made, hmade, hwritten⟩ := Option.bind_eq_some_iff.1 h
  have hfault : (none : Option Fault) ≠ some .directory := nofun
  rw [save, if_neg hfault, hmade]
  dsimp only [Fault.left?]
  rw [hwritten]
  rfl

/-- The configuration is loaded from the file at the end of a route, if it has its text. -/
theorem load_of_locate? (hseconds : c.cacheSeconds < NumberLiteral.wordLimit)
    (hplace : route.locate? s.root = some place)
    (hfile : s.root.kind? place = some (.file c.text.toUTF8)) : load s route = .ok c := by
  have hpresent : s.root.isPresent place = true :=
    Node.isPresent_eq_true_iff.2 (.inr ⟨_, hfile⟩)
  have hfilter : (some place).filter (fun path => s.root.isPresent path) = some place :=
    Option.filter_eq_some_iff.2 ⟨rfl, hpresent⟩
  rw [load, hplace, hfilter]
  dsimp only
  rw [Node.content?_eq_some_iff.2 hfile]
  dsimp only
  rw [Text.fromUTF8?_toUTF8]
  dsimp only
  rw [decode_text hseconds]

/-- The empty group admits the core group only. -/
theorem group_eq_of_admits (hgroup : c.group = some "") {gv : GroupVersion}
    (h : c.restriction.admits gv = true) : gv.group = "" := by
  rw [Restriction.admits, restriction, hgroup, Bool.and_eq_true] at h
  exact (of_decide_eq_true h.1).symm

/-- An absent group admits any. -/
theorem admits_of_group_eq_none (hgroup : c.group = none) (gv : GroupVersion) (group : String) :
    c.restriction.admits { gv with group } = c.restriction.admits gv := by
  rw [Restriction.admits, Restriction.admits, restriction, hgroup]
  rfl

/-- Where it can be written, a configuration is saved, and it is loaded again. What is loaded is
saved as the same text, and nothing else is changed then. It has the same restriction: the empty
group is loaded as such and admits the core group only, and an absent group is loaded as absent and
admits any. -/
theorem save_load_save (hseconds : c.cacheSeconds < NumberLiteral.wordLimit)
    (hwritable : route.IsWritable s.root) :
    ∃ saved place, c.save s route = (.ok (), saved) ∧
      route.locate? saved.root = some place ∧
      saved.root.content? place = some c.text.toUTF8 ∧
      ∃ loaded, load saved route = .ok loaded ∧ loaded = c ∧
        (∃ again, loaded.save saved route = (.ok (), again) ∧
          again.root.content? place = some c.text.toUTF8 ∧
          ∀ other, again.root.kind? other = saved.root.kind? other) ∧
        loaded.restriction = c.restriction ∧
        (c.group = some "" → loaded.group = some "" ∧
          ∀ gv, loaded.restriction.admits gv = true → gv.group = "") ∧
        (c.group = none → loaded.group = none ∧
          ∀ gv group, loaded.restriction.admits { gv with group } =
            loaded.restriction.admits gv) := by
  obtain ⟨root, hwritten⟩ := hwritable.exists_writeBelow? c.text.toUTF8
  obtain ⟨place, hholds⟩ := Route.writeBelow?_spec hwritten
  obtain ⟨after, hagain, -, hfile, hsame⟩ := hholds.again c.text.toUTF8
  refine ⟨{ s with root }, place, save_of_writeBelow? hwritten, hholds.locate,
    Node.content?_eq_some_iff.2 hholds.file, c, load_of_locate? hseconds hholds.locate hholds.file,
    rfl, ⟨{ s with root := after }, save_of_writeBelow? hagain, Node.content?_eq_some_iff.2 hfile,
      fun other => ?_⟩, rfl, fun hgroup => ⟨hgroup, fun gv => group_eq_of_admits hgroup⟩,
    fun hgroup => ⟨hgroup, admits_of_group_eq_none hgroup⟩⟩
  by_cases hother : other = place
  · rw [hother, hfile, hholds.file]
  · exact hsame other hother

namespace CoreGroup

/-- The core group in a context with a quotation mark, a control character and an umlaut. -/
def config : Config where
  context := some "\"prod\" \x01 ü"
  group := some ""
  cacheSeconds := 18446744073709551615

/-- A route to a directory that is not there. -/
def deep : Route := .ofText "./nested/../nested/deep/config.json"

/-- The core group is still chosen after it was saved below a new directory. -/
theorem saved_below_new_directory :
    (config.cacheSeconds < NumberLiteral.wordLimit ∧ deep.IsWritable (.directory [])) ∧
    ∃ saved, config.save {} deep = (.ok (), saved) ∧ load saved deep = .ok config ∧
      ∃ loaded, load saved deep = .ok loaded ∧ loaded.group = some "" := by
  have hseconds : config.cacheSeconds < NumberLiteral.wordLimit := by decide
  have hwritable : deep.IsWritable (.directory []) := by
    have hwritten : (deep.writeBelow? .empty (.directory [])).isSome = true := by decide +kernel
    exact ⟨.empty, Option.isSome_iff_exists.1 hwritten⟩
  obtain ⟨saved, place, hsaved, -, -, loaded, hloaded, rfl, -, -, hcore, -⟩ :=
    save_load_save (s := {}) hseconds hwritable
  exact ⟨⟨hseconds, hwritable⟩, saved, hsaved, hloaded, _, hloaded, (hcore rfl).1⟩

end CoreGroup

end ApiCatalog.Config
