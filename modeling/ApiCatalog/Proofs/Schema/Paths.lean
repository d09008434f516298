import ApiCatalog.Proofs.Schema.Walk

/-!
# Which paths a schema has

The lookup of a path finds the end of the walk from the definition (`Schema.lookup_eq_some_iff`),
as far as the limits allow. References that get lost, because they come to a name without a
definition or run in a circle, and lists that never end are not got over, however far it is to
where they do so (`Step.chased_of_meets`, `Step.not_circular`).
-/

namespace ApiCatalog

namespace Definitions

/-- The references from a shape come to a name without a definition, or they run in a circle. -/
def Lost (d : Definitions) (shape : Shape) : Prop :=
  (∃ count name, Crosses d.Refers count shape (.reference name) ∧ d.shape? name = none) ∨
    Circular d.Refers shape

/-- The shapes from which a step crosses references: the items of the lists around a shape, and what
stands in the field. -/
inductive Meets (d : Definitions) (segment : String) (start : Shape) : Shape → Prop where
  | items (count items) :
      Crosses d.Holds count start (.list items) → Meets d segment start items
  | child (opened below) :
      d.Opened start opened → Child segment opened below → Meets d segment start below

variable {d : Definitions} {segment : String} {start finish : Shape}

/-- References that get lost are not chased to an end. -/
theorem not_chased_of_lost (hlost : d.Lost start) : ¬ d.Chased start finish := by
  rintro ⟨count, -, hcross, hfinish⟩
  have hfinal : ∀ target, ¬ d.Refers finish target := not_refers_of_settled hfinish
  rcases hlost with ⟨other, name, hother, hmissing⟩ | hcircular
  · have hstuck : ∀ target, ¬ d.Refers (.reference name) target := by
      rintro target ⟨_, _, htarget⟩
      rw [hmissing] at htarget
      cases htarget
    exact hfinish name (hcross.eq_of_final refers_unique hfinal hother hstuck)
  · exact hcross.not_circular refers_unique hfinal hcircular

/-- The lists around a shape end at one shape only. -/
theorem Opened.unique {opened other : Shape} (hopened : d.Opened start opened)
    (hother : d.Opened start other) : opened = other := by
  obtain ⟨_, -, hcross, hsingle⟩ := hopened
  obtain ⟨_, -, hotherCross, hotherSingle⟩ := hother
  exact hcross.eq_of_final holds_unique (not_holds_of_single hsingle) hotherCross
    (not_holds_of_single hotherSingle)

/-- One shape only stands in a field. -/
theorem Child.unique {below other : Shape} (hbelow : Child segment start below)
    (hother : Child segment start other) : below = other := by
  cases hbelow with
  | field _ _ hfield =>
      cases hother with
      | field _ _ hotherField => exact Option.some.inj (hfield.symm.trans hotherField)
  | value => cases hother; rfl
  | anything => cases hother; rfl

/-- The references to the items of the lists around a shape are chased to an end. -/
theorem Opened.chased_items {opened items : Shape} {count : Nat} (hopened : d.Opened start opened)
    (hitems : Crosses d.Holds count start (.list items)) : ∃ inner, d.Chased items inner := by
  obtain ⟨long, -, hcross, hsingle⟩ := hopened
  rcases Nat.le_total count long with hle | hle
  · have hrest := hitems.rest holds_unique hcross hle
    generalize long - count = left at hrest
    cases hrest with
    | here => exact absurd rfl (hsingle items)
    | step _ _ inner _ hholds _ =>
        cases hholds with
        | items _ _ hinner => exact ⟨inner, hinner⟩
  · have hrest := hcross.rest holds_unique hitems hle
    have hsame := (hrest.eq_of_stuck (not_holds_of_single hsingle)).2
    exact absurd hsame.symm (hsingle items)

/-- A step gets over all references that it meets. -/
theorem Step.chased_of_meets {shape : Shape} (hstep : d.Step segment start finish)
    (hmeets : d.Meets segment start shape) : ∃ inner, d.Chased shape inner := by
  obtain ⟨opened, below, hopened, hbelow, hchased⟩ := hstep
  cases hmeets with
  | items count _ hitems => exact hopened.chased_items hitems
  | child other _ hother hshape =>
      obtain rfl := hopened.unique hother
      obtain rfl := hbelow.unique hshape
      exact ⟨finish, hchased⟩

/-- A step gets through the lists around a shape only if they end. -/
theorem Step.not_circular (hstep : d.Step segment start finish) :
    ¬ Circular d.Holds start := by
  obtain ⟨opened, below, ⟨count, -, hcross, hsingle⟩, -, -⟩ := hstep
  exact hcross.not_circular holds_unique (not_holds_of_single hsingle)

/-- From a value of any kind every path leads to a value of any kind. -/
theorem follow_anything (path : List String) : d.follow .anything path = some .anything := by
  induction path with
  | nil => rfl
  | cons segment path ih =>
      have hopened : d.enter hopLimit .anything = some .anything :=
        enter_of_single (fun _ => Shape.noConfusion) hopLimit
      rw [follow_cons, descend, hopened, Option.bind_some, child, Option.bind_some, ih]

end Definitions

namespace Schema

open Definitions

variable (s : Schema)

/-- A longer path goes on where a shorter one ends. -/
theorem lookup_append (path rest : List String) :
    s.lookup (path ++ rest) =
      (s.lookup path).bind fun shape => s.definitions.follow shape rest := by
  simp only [lookup, follow_append, Option.bind_eq_bind, Option.bind_assoc]

/-- A path leads to a shape from where the references at the root end. -/
theorem lookup_eq_some_iff {path : List String} {found : Shape} :
    s.lookup path = some found ↔
      ∃ root start, s.root? = some root ∧ s.definitions.Chased root start ∧
        s.definitions.Walk start path found := by
  simp only [lookup, Option.bind_eq_bind, Option.bind_eq_some_iff, resolve_hopLimit_eq_some_iff,
    follow_eq_some_iff]
  constructor
  · rintro ⟨root, hroot, start, hstart, hwalk⟩
    exact ⟨root, start, hroot, hstart, hwalk⟩
  · rintro ⟨root, start, hroot, hstart, hwalk⟩
    exact ⟨root, hroot, start, hstart, hwalk⟩

/-- A path leads nowhere if there is no step along one of its segments. -/
theorem lookup_append_cons_eq_none {path rest : List String} {segment : String} {shape : Shape}
    (hfound : s.lookup path = some shape)
    (hnone : ∀ next, ¬ s.definitions.Step segment shape next) :
    s.lookup (path ++ segment :: rest) = none := by
  rw [lookup_append, hfound, Option.bind_some, follow_cons, Option.bind_eq_none_iff]
  intro next hnext
  exact absurd (descend_eq_some_iff.1 hnext) (hnone next)

/-- The lookup of a path finds a shape exactly when the shape is the end of a walk along the path.
The walk starts at the definition of the schema, behind the references that stand there. What is
found is no reference. Nothing is found behind references that come to a missing definition or run
in a circle, at the start or on the way, nor in lists that run in a circle. A value of any kind has
all paths. -/
theorem lookup_spec :
    (∀ path found, s.lookup path = some found ↔
      ∃ root start, s.root? = some root ∧ s.definitions.Chased root start ∧
        s.definitions.Walk start path found) ∧
    (∀ path found, s.lookup path = some found → found.Settled) ∧
    (∀ root path, s.root? = some root → s.definitions.Lost root → s.lookup path = none) ∧
    (∀ path shape segment below rest, s.lookup path = some shape →
      s.definitions.Meets segment shape below → s.definitions.Lost below →
      s.lookup (path ++ segment :: rest) = none) ∧
    (∀ path shape segment rest, s.lookup path = some shape →
      Circular s.definitions.Holds shape → s.lookup (path ++ segment :: rest) = none) ∧
    (∀ path rest, s.lookup path = some .anything → s.lookup (path ++ rest) = some .anything) := by
  refine ⟨fun path found => s.lookup_eq_some_iff, fun path found hfound => ?_,
    fun root path hroot hlost => ?_, fun path shape segment below rest hfound hmeets hlost => ?_,
    fun path shape segment rest hfound hcircular => ?_, fun path rest hfound => ?_⟩
  · obtain ⟨root, start, -, hstart, hwalk⟩ := s.lookup_eq_some_iff.1 hfound
    exact hwalk.settled hstart.settled
  · rw [Option.eq_none_iff_forall_ne_some]
    intro found hfound
    obtain ⟨other, start, hother, hstart, -⟩ := s.lookup_eq_some_iff.1 hfound
    obtain rfl : root = other := Option.some.inj (hroot.symm.trans hother)
    exact not_chased_of_lost hlost hstart
  · refine s.lookup_append_cons_eq_none hfound fun next hstep => ?_
    obtain ⟨inner, hinner⟩ := hstep.chased_of_meets hmeets
    exact not_chased_of_lost hlost hinner
  · exact s.lookup_append_cons_eq_none hfound fun next hstep => hstep.not_circular hcircular
  · rw [lookup_append, hfound, Option.bind_some, follow_anything]

end Schema

/-! ## A definition that refers to itself -/

namespace Looping

/-- A definition with a field that holds anything, and another one with a loop in it. -/
def schema : Schema where
  definitions :=
    ⟨[⟨"Loop", .reference "Loop", []⟩,
      ⟨"Note", .record [("data", .anything), ("loop", .list (.reference "Loop"))], []⟩]⟩
  name := "Note"

/-- The data has all paths, and there is nothing behind the loop. -/
theorem lookup_data_and_loop :
    schema.lookup (["data"] ++ ["labels", "app"]) = some .anything ∧
      schema.lookup (["loop"] ++ "name" :: []) = none := by
  have hlist : schema.lookup ["loop"] = some (.list (.reference "Loop")) := by rfl
  have hloop : Crosses schema.definitions.Refers (0 + 1) (.reference "Loop") (.reference "Loop") :=
    .step _ _ _ _ (.definition "Loop" _ (by rfl)) (.here _)
  have hlost : schema.definitions.Lost (.reference "Loop") :=
    .inr ⟨0, 0, _, .here _, hloop⟩
  exact ⟨schema.lookup_spec.2.2.2.2.2 ["data"] ["labels", "app"] (by rfl),
    schema.lookup_spec.2.2.2.1 ["loop"] _ "name" _ [] hlist (.items 0 _ (.here _)) hlost⟩

end Looping

end ApiCatalog
