import ApiCatalog.Schema.Lookup
import Mathlib.Logic.Relator

/-!
# The walk along a field path

The lookup of a field in a schema as a relation. References are crossed (`Refers`, `Chased`), lists
are crossed (`Holds`, `Opened`), and a walk takes one step for each segment of a path (`Child`,
`Step`, `Walk`). Read `resolve_eq_some_iff` first: it says what a search with a limited number of
hops finds. `enter_eq_some_iff`, `descend_eq_some_iff` and `follow_eq_some_iff` build on it.

A reference leads to one shape at most, and so does a list. `Crosses.eq_of_final` and
`Crosses.not_circular` say what follows: all crossings that come to an end come to the same one,
and none of them runs in a circle.
-/

namespace ApiCatalog

/-- `Crosses next n a b` says that `n` steps of `next` lead from `a` to `b`. -/
inductive Crosses (next : Shape → Shape → Prop) : Nat → Shape → Shape → Prop where
  | here (shape) : Crosses next 0 shape shape
  | step (count start middle finish) :
      next start middle → Crosses next count middle finish → Crosses next (count + 1) start finish

/-- A crossing from the shape comes back to where it was. -/
def Circular (next : Shape → Shape → Prop) (shape : Shape) : Prop :=
  ∃ count period again, Crosses next count shape again ∧ Crosses next (period + 1) again again

/-- The shape is no reference. -/
def Shape.Settled (shape : Shape) : Prop := ∀ name, shape ≠ .reference name

/-- The shape is no list. -/
def Shape.Single (shape : Shape) : Prop := ∀ items, shape ≠ .list items

namespace Definitions

/-- A reference leads to the definition of its name. -/
inductive Refers (d : Definitions) : Shape → Shape → Prop where
  | definition (name target) : d.shape? name = some target → Refers d (.reference name) target

/-- The references from a shape end at a shape that is none, and they are fewer than `hopLimit`. -/
def Chased (d : Definitions) (start finish : Shape) : Prop :=
  ∃ count < hopLimit, Crosses d.Refers count start finish ∧ finish.Settled

/-- A list leads to the shape of its items, which is none of the references to it. -/
inductive Holds (d : Definitions) : Shape → Shape → Prop where
  | items (items inner) : d.Chased items inner → Holds d (.list items) inner

/-- The lists around a shape end at a shape that is none, and they are no more than `hopLimit`. -/
def Opened (d : Definitions) (start finish : Shape) : Prop :=
  ∃ count ≤ hopLimit, Crosses d.Holds count start finish ∧ finish.Single

/-- What stands in a field of a shape, as it is written there. -/
inductive Child (segment : String) : Shape → Shape → Prop where
  | field (fields shape) :
      Keyed.get? segment fields = some shape → Child segment (.record fields) shape
  | value (values) : Child segment (.map values) values
  | anything : Child segment .anything .anything

/-- One segment leads from a shape to the next: through the lists into the field, and across the
references that stand in it. -/
def Step (d : Definitions) (segment : String) (start finish : Shape) : Prop :=
  ∃ opened below, d.Opened start opened ∧ Child segment opened below ∧ d.Chased below finish

/-- The segments of a path lead from a shape to another. -/
inductive Walk (d : Definitions) : Shape → List String → Shape → Prop where
  | here (shape) : Walk d shape [] shape
  | step (start segment next path finish) :
      d.Step segment start next → Walk d next path finish → Walk d start (segment :: path) finish

end Definitions

/-! ## Crossings -/

namespace Crosses

variable {next : Shape → Shape → Prop} {start middle finish other : Shape} {count long : Nat}

/-- One crossing after another is a crossing of all their steps. -/
theorem trans (hfirst : Crosses next count start middle)
    (hsecond : Crosses next long middle finish) : Crosses next (count + long) start finish := by
  induction hfirst with
  | here => simpa using hsecond
  | step count start _ _ hstep _ ih =>
      rw [Nat.add_right_comm]
      exact .step _ _ _ _ hstep (ih hsecond)

/-- A circle can be run through any number of times. -/
theorem rounds {period : Nat} (hcircle : Crosses next period start start) (times : Nat) :
    Crosses next (times * period) start start := by
  induction times with
  | zero => simpa using here start
  | succ times ih =>
      rw [Nat.succ_mul]
      exact ih.trans hcircle

/-- Where nothing leads any further, a crossing stays. -/
theorem eq_of_stuck (hcross : Crosses next count start finish)
    (hstuck : ∀ shape, ¬ next start shape) : count = 0 ∧ finish = start := by
  cases hcross with
  | here => exact ⟨rfl, rfl⟩
  | step _ _ middle _ hstep => exact absurd hstep (hstuck middle)

/-- If every shape leads to one other at most, the first part of a crossing leads to the rest. -/
theorem rest (hunique : Relator.RightUnique next) (hcross : Crosses next count start middle)
    (hlong : Crosses next long start finish) (hle : count ≤ long) :
    Crosses next (long - count) middle finish := by
  induction hcross generalizing long with
  | here => exact hlong
  | step count start _ _ hstep _ ih =>
      cases hlong with
      | here => omega
      | step long _ _ _ hother hlong =>
          obtain rfl := hunique hstep hother
          rw [Nat.add_sub_add_right]
          exact ih hlong (by omega)

/-- All crossings that come to an end come to the same one. -/
theorem eq_of_final (hunique : Relator.RightUnique next)
    (hcross : Crosses next count start finish) (hfinal : ∀ shape, ¬ next finish shape)
    (hother : Crosses next long start other) (hotherFinal : ∀ shape, ¬ next other shape) :
    finish = other := by
  rcases Nat.le_total count long with hle | hle
  · exact ((hcross.rest hunique hother hle).eq_of_stuck hfinal).2.symm
  · exact ((hother.rest hunique hcross hle).eq_of_stuck hotherFinal).2

/-- A crossing that comes to an end does not run in a circle. -/
theorem not_circular (hunique : Relator.RightUnique next)
    (hcross : Crosses next count start finish) (hfinal : ∀ shape, ¬ next finish shape) :
    ¬ Circular next start := by
  rintro ⟨before, period, again, hbefore, hcircle⟩
  -- After `count` rounds the circle has taken more steps than there are to the end.
  have hlong := hbefore.trans (hcircle.rounds count)
  have hle : count ≤ before + count * (period + 1) := by
    rw [Nat.mul_succ]
    omega
  obtain ⟨-, rfl⟩ := (hcross.rest hunique hlong hle).eq_of_stuck hfinal
  have hzero := (hcircle.eq_of_stuck hfinal).1
  omega

end Crosses

namespace Definitions

variable {d : Definitions}

/-! ## References -/

/-- A settled shape leads nowhere. -/
theorem not_refers_of_settled {shape : Shape} (hsettled : shape.Settled) (target : Shape) :
    ¬ d.Refers shape target := by
  rintro ⟨name, _, _⟩
  exact hsettled name rfl

/-- A reference leads to one shape only. -/
theorem refers_unique : Relator.RightUnique d.Refers := by
  rintro start target other ⟨name, _, htarget⟩ ⟨_, _, hother⟩
  exact Option.some.inj (htarget.symm.trans hother)

/-- A settled shape is resolved as it is. -/
theorem resolve_of_settled {shape : Shape} (hsettled : shape.Settled) (hops : Nat) :
    d.resolve (hops + 1) shape = some shape := by
  cases shape with
  | reference name => exact absurd rfl (hsettled name)
  | record | map | list | scalar | anything => rfl

/-- With `hops` looks at a shape, fewer than `hops` references are crossed. -/
theorem resolve_eq_some_iff {hops : Nat} {start finish : Shape} :
    d.resolve hops start = some finish ↔
      ∃ count < hops, Crosses d.Refers count start finish ∧ finish.Settled := by
  induction hops generalizing start with
  | zero => simp [resolve]
  | succ hops ih =>
      -- A look at a shape ends the search, or it costs the hop that crosses the reference.
      by_cases hsettled : start.Settled
      · rw [resolve_of_settled hsettled, Option.some.injEq]
        constructor
        · rintro rfl
          exact ⟨0, Nat.succ_pos hops, .here start, hsettled⟩
        · rintro ⟨count, -, hcross, -⟩
          exact (hcross.eq_of_stuck (not_refers_of_settled hsettled)).2.symm
      · obtain ⟨name, rfl⟩ : ∃ name, start = .reference name := by
          simpa [Shape.Settled] using hsettled
        rw [resolve, Option.bind_eq_some_iff]
        constructor
        · rintro ⟨target, htarget, hfound⟩
          obtain ⟨count, hcount, hcross, hfinish⟩ := ih.1 hfound
          exact ⟨count + 1, Nat.succ_lt_succ hcount,
            .step _ _ _ _ (.definition _ _ htarget) hcross, hfinish⟩
        · rintro ⟨count, hcount, hcross, hfinish⟩
          cases hcross with
          | here => exact absurd hfinish hsettled
          | step count _ target _ hrefers hcross =>
              cases hrefers with
              | definition _ _ htarget =>
                  exact ⟨target, htarget,
                    ih.2 ⟨count, Nat.lt_of_succ_lt_succ hcount, hcross, hfinish⟩⟩

/-- The search with the limit of the library is a chase. -/
theorem resolve_hopLimit_eq_some_iff {start finish : Shape} :
    d.resolve hopLimit start = some finish ↔ d.Chased start finish :=
  resolve_eq_some_iff

/-- The references from a shape end at one shape only. -/
theorem Chased.unique {start finish other : Shape} (hfinish : d.Chased start finish)
    (hother : d.Chased start other) : finish = other := by
  rw [← resolve_hopLimit_eq_some_iff] at hfinish hother
  exact Option.some.inj (hfinish.symm.trans hother)

/-- References end at a settled shape. -/
theorem Chased.settled {start finish : Shape} (hchased : d.Chased start finish) :
    finish.Settled := by
  obtain ⟨count, -, -, hsettled⟩ := hchased
  exact hsettled

/-! ## Lists -/

/-- What is no list holds nothing. -/
theorem not_holds_of_single {shape : Shape} (hsingle : shape.Single) (inner : Shape) :
    ¬ d.Holds shape inner := by
  rintro ⟨items, _, _⟩
  exact hsingle items rfl

/-- A list holds one shape only. -/
theorem holds_unique : Relator.RightUnique d.Holds := by
  rintro start inner other ⟨items, _, hinner⟩ ⟨_, _, hother⟩
  exact hinner.unique hother

/-- What is no list is entered as it is. -/
theorem enter_of_single {shape : Shape} (hsingle : shape.Single) (lists : Nat) :
    d.enter lists shape = some shape := by
  cases lists with
  | zero => rfl
  | succ lists =>
      cases shape with
      | list items => exact absurd rfl (hsingle items)
      | record | map | scalar | reference | anything => rfl

/-- Lists are entered until a shape is none or the limit is reached. -/
theorem enter_eq_some_iff {lists : Nat} {start finish : Shape} :
    d.enter lists start = some finish ↔
      ∃ count ≤ lists, Crosses d.Holds count start finish ∧ (count = lists ∨ finish.Single) := by
  induction lists generalizing start with
  | zero =>
      rw [enter, Option.some.injEq]
      constructor
      · rintro rfl
        exact ⟨0, Nat.le_refl 0, .here start, .inl rfl⟩
      · rintro ⟨count, hcount, hcross, -⟩
        obtain rfl := Nat.le_zero.1 hcount
        cases hcross
        rfl
  | succ lists ih =>
      by_cases hsingle : start.Single
      · rw [enter_of_single hsingle, Option.some.injEq]
        constructor
        · rintro rfl
          exact ⟨0, Nat.zero_le _, .here start, .inr hsingle⟩
        · rintro ⟨count, -, hcross, -⟩
          exact (hcross.eq_of_stuck (not_holds_of_single hsingle)).2.symm
      · obtain ⟨items, rfl⟩ : ∃ items, start = .list items := by
          simpa [Shape.Single] using hsingle
        rw [enter, Option.bind_eq_some_iff]
        constructor
        · rintro ⟨inner, hinner, hfound⟩
          obtain ⟨count, hcount, hcross, hend⟩ := ih.1 hfound
          exact ⟨count + 1, Nat.succ_le_succ hcount,
            .step _ _ _ _ (.items _ _ (resolve_hopLimit_eq_some_iff.1 hinner)) hcross,
            hend.imp_left (congrArg (· + 1))⟩
        · rintro ⟨count, hcount, hcross, hend⟩
          cases hcross with
          | here =>
              -- A list where nothing was entered is no end: the limit is not reached yet.
              exact absurd (hend.resolve_left (by omega)) hsingle
          | step count _ inner _ hholds hcross =>
              cases hholds with
              | items _ _ hinner =>
                  exact ⟨inner, resolve_hopLimit_eq_some_iff.2 hinner, ih.2 ⟨count,
                    Nat.le_of_succ_le_succ hcount, hcross, hend.imp_left Nat.succ.inj⟩⟩

/-! ## Paths -/

/-- A shape stands in a field if no more references stand there before it than the limit allows. -/
theorem child_eq_some_iff {segment : String} {shape finish : Shape} :
    d.child segment shape = some finish ↔
      ∃ below, Child segment shape below ∧ d.Chased below finish := by
  cases shape with
  | record fields =>
      rw [child, Option.bind_eq_some_iff]
      constructor
      · rintro ⟨below, hfield, hfound⟩
        exact ⟨below, .field _ _ hfield, resolve_hopLimit_eq_some_iff.1 hfound⟩
      · rintro ⟨below, hchild, hchased⟩
        cases hchild with
        | field _ _ hfield => exact ⟨below, hfield, resolve_hopLimit_eq_some_iff.2 hchased⟩
  | map values =>
      rw [child, resolve_hopLimit_eq_some_iff]
      constructor
      · exact fun hchased => ⟨values, .value values, hchased⟩
      · rintro ⟨below, hchild, hchased⟩
        cases hchild
        exact hchased
  | anything =>
      have hchased : d.Chased .anything .anything :=
        ⟨0, by decide, .here _, fun name => Shape.noConfusion⟩
      rw [child, Option.some.injEq]
      constructor
      · rintro rfl
        exact ⟨.anything, .anything, hchased⟩
      · rintro ⟨below, hchild, hother⟩
        cases hchild
        exact hchased.unique hother
  | scalar | list | reference =>
      simp only [child, reduceCtorEq, false_iff]
      rintro ⟨below, hchild, -⟩
      cases hchild

/-- The next shape on a path is found by a step of the walk. -/
theorem descend_eq_some_iff {segment : String} {start finish : Shape} :
    d.descend start segment = some finish ↔ d.Step segment start finish := by
  rw [descend, Option.bind_eq_some_iff]
  constructor
  · rintro ⟨opened, henter, hfound⟩
    obtain ⟨below, hchild, hchased⟩ := child_eq_some_iff.1 hfound
    obtain ⟨count, hcount, hcross, -⟩ := enter_eq_some_iff.1 henter
    -- A list at which the limit stopped has no fields.
    have hopened : opened.Single := by
      rintro items rfl
      cases hchild
    exact ⟨opened, below, ⟨count, hcount, hcross, hopened⟩, hchild, hchased⟩
  · rintro ⟨opened, below, ⟨count, hcount, hcross, hopened⟩, hchild, hchased⟩
    exact ⟨opened, enter_eq_some_iff.2 ⟨count, hcount, hcross, .inr hopened⟩,
      child_eq_some_iff.2 ⟨below, hchild, hchased⟩⟩

/-- A path is followed by its first segment and then by the rest. -/
theorem follow_cons (shape : Shape) (segment : String) (path : List String) :
    d.follow shape (segment :: path) =
      (d.descend shape segment).bind fun next => d.follow next path :=
  rfl

/-- One path after another is followed by the first one and then by the other. -/
theorem follow_append (shape : Shape) (path rest : List String) :
    d.follow shape (path ++ rest) = (d.follow shape path).bind fun next => d.follow next rest :=
  List.foldlM_append

/-- The shape at the end of a path is found by a walk. -/
theorem follow_eq_some_iff {path : List String} {start finish : Shape} :
    d.follow start path = some finish ↔ d.Walk start path finish := by
  induction path generalizing start with
  | nil =>
      constructor
      · intro hfound
        obtain rfl : start = finish := Option.some.inj hfound
        exact .here start
      · intro hwalk
        cases hwalk
        rfl
  | cons segment path ih =>
      rw [follow_cons, Option.bind_eq_some_iff]
      constructor
      · rintro ⟨next, hstep, hrest⟩
        exact .step _ _ _ _ _ (descend_eq_some_iff.1 hstep) (ih.1 hrest)
      · intro hwalk
        cases hwalk with
        | step _ _ next _ _ hstep hrest =>
            exact ⟨next, descend_eq_some_iff.2 hstep, ih.2 hrest⟩

/-- A walk that starts at a shape that is no reference ends at one. -/
theorem Walk.settled {path : List String} {start finish : Shape}
    (hwalk : d.Walk start path finish) (hstart : start.Settled) : finish.Settled := by
  induction hwalk with
  | here => exact hstart
  | step _ _ _ _ _ hstep _ ih =>
      obtain ⟨opened, below, -, -, hchased⟩ := hstep
      exact ih hchased.settled

end Definitions

end ApiCatalog
