import ApiCatalog.Proofs.Schema.Paths
import Mathlib.Data.List.Perm.Subperm

/-!
# Definitions that are aliases

An alias is a definition that is nothing but a reference. References that do not run in a circle
pass every alias once at most (`exists_passed`), so where a document has few of them the limit on
hops is never what ends a chase: `resolve_of_few_aliases` says that what is not resolved is lost for
good, at a name without a definition or in a circle.
-/

namespace ApiCatalog

/-- A definition that is nothing but a reference to another one. -/
def Definition.isAlias (definition : Definition) : Bool :=
  match definition.shape with
  | .reference _ => true
  | _ => false

namespace Crosses

variable {next : Shape → Shape → Prop} {start middle finish : Shape} {count long : Nat}

/-- A crossing passes a shape after each number of steps. -/
theorem exists_of_le (hcross : Crosses next long start finish) (hle : count ≤ long) :
    ∃ middle, Crosses next count start middle := by
  induction hcross generalizing count with
  | here =>
      obtain rfl := Nat.le_zero.1 hle
      exact ⟨_, .here _⟩
  | step long start middle _ hstep _ ih =>
      cases count with
      | zero => exact ⟨start, .here start⟩
      | succ count =>
          obtain ⟨reached, hreached⟩ := ih (Nat.le_of_succ_le_succ hle)
          exact ⟨reached, .step _ _ _ _ hstep hreached⟩

/-- A crossing that cannot be made as long as one likes comes to a shape that leads nowhere. -/
theorem exists_final (hends : ∃ count, ∀ finish, ¬ Crosses next count start finish) :
    ∃ count finish, Crosses next count start finish ∧ ∀ shape, ¬ next finish shape := by
  obtain ⟨count, hends⟩ := hends
  induction count generalizing start with
  | zero => exact absurd (.here start) (hends start)
  | succ count ih =>
      by_cases hstuck : ∀ shape, ¬ next start shape
      · exact ⟨0, start, .here start, hstuck⟩
      · obtain ⟨middle, hstep⟩ : ∃ shape, next start shape := by simpa using hstuck
        obtain ⟨long, finish, hcross, hfinal⟩ :=
          ih fun finish hcross => hends finish (.step _ _ _ _ hstep hcross)
        exact ⟨long + 1, finish, .step _ _ _ _ hstep hcross, hfinal⟩

end Crosses

/-- What lies ahead of a circle leads into it. -/
theorem Circular.of_step {next : Shape → Shape → Prop} {start middle : Shape}
    (hstep : next start middle) (hcircular : Circular next middle) : Circular next start := by
  obtain ⟨count, period, again, hbefore, hcircle⟩ := hcircular
  exact ⟨count + 1, period, again, .step _ _ _ _ hstep hbefore, hcircle⟩

/-- A circle can be followed for as long as one likes. -/
theorem Circular.exists_crosses {next : Shape → Shape → Prop} {start : Shape}
    (hcircular : Circular next start) (count : Nat) :
    ∃ finish, Crosses next count start finish := by
  obtain ⟨before, period, again, hbefore, hcircle⟩ := hcircular
  have hlong := hbefore.trans (hcircle.rounds count)
  refine hlong.exists_of_le ?_
  rw [Nat.mul_succ]
  omega

namespace Definitions

/-- The definitions that are aliases. -/
def aliases (d : Definitions) : List Definition := d.entries.filter Definition.isAlias

/-- The references from a shape go on without end. -/
def Endless (d : Definitions) (start : Shape) : Prop :=
  ∀ count, ∃ finish, Crosses d.Refers count start finish

variable {d : Definitions} {start finish : Shape} {count : Nat} {name : String}

/-- A name that leads to a reference is one of an alias. -/
theorem mem_names_aliases {target : String} (h : d.shape? name = some (.reference target)) :
    name ∈ d.aliases.map (·.name) := by
  obtain ⟨definition, hfound, hshape⟩ := Option.map_eq_some_iff.1 h
  have hname : definition.name = name := by simpa using List.find?_some hfound
  have halias : definition.isAlias = true := by rw [Definition.isAlias, hshape]
  exact List.mem_map.2
    ⟨definition, List.mem_filter.2 ⟨List.mem_of_find?_eq_some hfound, halias⟩, hname⟩

/-- References that do not run in a circle pass an alias with every step but the last one, and a new
one each time. -/
theorem exists_passed (hcross : Crosses d.Refers (count + 1) start finish)
    (hfree : ¬ Circular d.Refers start) :
    ∃ passed : List String, passed.length = count ∧ passed.Nodup ∧
      passed ⊆ d.aliases.map (·.name) ∧
      ∀ name ∈ passed, ∃ steps, Crosses d.Refers steps start (.reference name) := by
  induction count generalizing start with
  | zero => exact ⟨[], rfl, .nil, List.nil_subset _, nofun⟩
  | succ count ih =>
      cases hcross with
      | step _ _ middle _ hrefers hcross =>
          obtain ⟨passed, hlength, hnodup, haliases, hreached⟩ :=
            ih hcross fun hcircular => hfree (.of_step hrefers hcircular)
          cases hrefers with
          | definition name _ hshape =>
              have hstep : d.Refers (.reference name) middle := .definition _ _ hshape
              obtain ⟨target, rfl⟩ : ∃ target, middle = .reference target := by
                cases hcross with
                | step _ _ _ _ hnext _ =>
                    cases hnext with
                    | definition target _ _ => exact ⟨target, rfl⟩
              refine ⟨name :: passed, congrArg (· + 1) hlength, List.nodup_cons.2 ⟨?_, hnodup⟩,
                List.cons_subset.2 ⟨mem_names_aliases hshape, haliases⟩, ?_⟩
              · -- An alias that comes again closes a circle.
                intro hagain
                obtain ⟨steps, hback⟩ := hreached name hagain
                exact hfree ⟨0, steps, _, .here _, .step _ _ _ _ hstep hback⟩
              · intro other hother
                rcases List.mem_cons.1 hother with rfl | hother
                · exact ⟨0, .here _⟩
                · obtain ⟨steps, hsteps⟩ := hreached other hother
                  exact ⟨steps + 1, .step _ _ _ _ hstep hsteps⟩

/-- References that do not run in a circle are no more than the aliases and one. -/
theorem count_le_of_not_circular (hcross : Crosses d.Refers count start finish)
    (hfree : ¬ Circular d.Refers start) : count ≤ d.aliases.length + 1 := by
  cases count with
  | zero => exact Nat.zero_le _
  | succ count =>
      obtain ⟨passed, rfl, hnodup, haliases, -⟩ := exists_passed hcross hfree
      have hlength := (hnodup.subperm haliases).length_le
      rw [List.length_map] at hlength
      exact Nat.succ_le_succ hlength

/-- References go on without end just if they run in a circle. -/
theorem endless_iff_circular : d.Endless start ↔ Circular d.Refers start := by
  constructor
  · intro hendless
    by_contra hfree
    obtain ⟨finish, hcross⟩ := hendless (d.aliases.length + 2)
    have hle := count_le_of_not_circular hcross hfree
    omega
  · exact fun hcircular count => hcircular.exists_crosses count

/-- References that come to an end come to a shape that is none or to a name without a
definition. -/
theorem exists_end_of_not_endless (h : ¬ d.Endless start) :
    ∃ count finish, Crosses d.Refers count start finish ∧
      (finish.Settled ∨ ∃ name, finish = .reference name ∧ d.shape? name = none) := by
  obtain ⟨count, finish, hcross, hfinal⟩ :=
    @Crosses.exists_final d.Refers start (by simpa [Endless] using h)
  refine ⟨count, finish, hcross, or_iff_not_imp_left.2 fun hsettled => ?_⟩
  obtain ⟨name, rfl⟩ : ∃ name, finish = .reference name := by
    simpa [Shape.Settled] using hsettled
  refine ⟨name, rfl, Option.eq_none_iff_forall_ne_some.2 fun target htarget => ?_⟩
  exact hfinal target (.definition _ _ htarget)

/-- With a hop for each alias and two more, references are chased to their end. -/
theorem resolve_of_crosses {hops : Nat} (hhops : d.aliases.length + 2 ≤ hops)
    (hcross : Crosses d.Refers count start finish) (hsettled : finish.Settled) :
    d.resolve hops start = some finish := by
  have hfree : ¬ Circular d.Refers start :=
    hcross.not_circular refers_unique (not_refers_of_settled hsettled)
  have hcount := count_le_of_not_circular hcross hfree
  exact resolve_eq_some_iff.2 ⟨count, by omega, hcross, hsettled⟩

/-- Where no more than 62 definitions are aliases, the limit on hops is of no account. A shape is
resolved to the one that is no reference at which the references from it end, however many these
are. It is not resolved just if they come to a name without a definition or go on without end, and
the latter they do in a circle. -/
theorem resolve_of_few_aliases (hfew : d.aliases.length ≤ 62) (start : Shape) :
    (∀ finish, d.resolve hopLimit start = some finish ↔
      ∃ count, Crosses d.Refers count start finish ∧ finish.Settled) ∧
    (d.resolve hopLimit start = none ↔
      (∃ count name, Crosses d.Refers count start (.reference name) ∧ d.shape? name = none) ∨
        d.Endless start) ∧
    (d.Endless start ↔ Circular d.Refers start) := by
  have hhops : d.aliases.length + 2 ≤ hopLimit := Nat.add_le_add_right hfew 2
  have hresolve : ∀ finish, d.resolve hopLimit start = some finish ↔
      ∃ count, Crosses d.Refers count start finish ∧ finish.Settled := by
    intro finish
    constructor
    · intro hfound
      obtain ⟨count, -, hcross, hsettled⟩ := resolve_eq_some_iff.1 hfound
      exact ⟨count, hcross, hsettled⟩
    · rintro ⟨count, hcross, hsettled⟩
      exact resolve_of_crosses hhops hcross hsettled
  refine ⟨hresolve, ?_, endless_iff_circular⟩
  constructor
  · intro hnone
    refine or_iff_not_imp_right.2 fun hends => ?_
    obtain ⟨count, finish, hcross, hsettled | ⟨name, rfl, hmissing⟩⟩ :=
      exists_end_of_not_endless hends
    · have hfound := resolve_of_crosses hhops hcross hsettled
      rw [hnone] at hfound
      cases hfound
    · exact ⟨count, name, hcross, hmissing⟩
  · intro hlost
    rw [endless_iff_circular] at hlost
    refine Option.eq_none_iff_forall_ne_some.2 fun finish hfound => ?_
    exact not_chased_of_lost hlost (resolve_hopLimit_eq_some_iff.1 hfound)

/-! ## A chain of aliases -/

namespace Chain

/-- The name of the definition at a place in the chain. -/
def link (place : Nat) : String := String.ofList (List.replicate place 'a')

/-- Aliases that refer to each other one after the other, with a text at the end. -/
def definitions (length : Nat) : Definitions where
  entries :=
    (List.range length).map (fun place => ⟨link place, .reference (link (place + 1)), []⟩) ++
      [⟨link length, .scalar "string" none, []⟩]

/-- The end of a chain of 62 aliases is found, and a name without a definition is not resolved. With
one alias more the end is not found any longer. -/
theorem end_of_62_aliases :
    (definitions 62).aliases.length ≤ 62 ∧
      (∃ count, Crosses (definitions 62).Refers count (.reference (link 0))
        (.scalar "string" none) ∧ (Shape.scalar "string" none).Settled) ∧
      (definitions 62).resolve hopLimit (.reference "pods") = none ∧
      (definitions 63).resolve hopLimit (.reference (link 0)) = none := by
  have hfew : (definitions 62).aliases.length ≤ 62 := by decide +kernel
  have hfound : (definitions 62).resolve hopLimit (.reference (link 0)) =
      some (.scalar "string" none) := by decide +kernel
  have hmissing : (definitions 62).shape? "pods" = none := by decide +kernel
  refine ⟨hfew, ?_, ?_, by decide +kernel⟩
  · exact ((resolve_of_few_aliases hfew (.reference (link 0))).1 _).1 hfound
  · exact (resolve_of_few_aliases hfew (.reference "pods")).2.1.2
      (.inl ⟨0, "pods", .here _, hmissing⟩)

end Chain

end Definitions

end ApiCatalog
