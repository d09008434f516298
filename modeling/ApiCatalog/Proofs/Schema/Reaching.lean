import ApiCatalog.Proofs.Keyed
import ApiCatalog.Schema.Lookup

/-!
# The definitions on which a schema depends

A definition reaches the names to which references anywhere in its shape point, and all names that
the definitions of these names reach. The lookup of a path looks at no other definitions: two
documents that have the same shapes for all reached names (`SameFrom`) give the same answer for
every path, by `SameFrom.lookup_eq`.

Every part of the search is treated alike. From a shape whose references are all reached, both
documents find the same shape, and the references in it are reached again; `Alike` says this of the
two results, and `Alike.bind` puts parts together.
-/

namespace ApiCatalog

/-- `shape.Mentions name` says that a reference to the name stands somewhere in the shape. -/
inductive Shape.Mentions : Shape → String → Prop where
  | reference (name) : Mentions (.reference name) name
  | field (fields field shape name) :
      (field, shape) ∈ fields → Mentions shape name → Mentions (.record fields) name
  | value (values name) : Mentions values name → Mentions (.map values) name
  | item (items name) : Mentions items name → Mentions (.list items) name

namespace Definitions

/-- The definition of `start` leads to a name through the references that stand in definitions. The
name itself need not have a definition. -/
inductive Reaches (d : Definitions) (start : String) : String → Prop where
  | here : Reaches d start start
  | reference (name shape next) : Reaches d start name → d.shape? name = some shape →
      shape.Mentions next → Reaches d start next

/-- Two documents define all names that are reached from `start` by the same shapes, or not at
all. -/
def SameFrom (d e : Definitions) (start : String) : Prop :=
  ∀ name, d.Reaches start name → d.shape? name = e.shape? name

/-- All references in a shape are to names that are reached from `start`. -/
def Covers (d : Definitions) (start : String) (shape : Shape) : Prop :=
  ∀ name, shape.Mentions name → d.Reaches start name

/-- Two searches find the same shape, and what is found is covered. -/
def Alike (d : Definitions) (start : String) (found other : Option Shape) : Prop :=
  found = other ∧ ∀ shape ∈ found, d.Covers start shape

variable {d e : Definitions} {start : String} {shape : Shape}

/-! ## Both documents reach the same names -/

/-- What one document reaches is reached by every document that has the same shapes for it. -/
theorem Reaches.of_sameFrom {name : String} (hreaches : d.Reaches start name)
    (hsame : d.SameFrom e start) : e.Reaches start name := by
  induction hreaches with
  | here => exact .here
  | reference name shape next hname hshape hmentions ih =>
      exact .reference name shape next ih ((hsame name hname).symm.trans hshape) hmentions

/-- What the other document reaches is reached: it finds the shapes of reached names only. -/
theorem SameFrom.reaches {name : String} (hsame : d.SameFrom e start)
    (hreaches : e.Reaches start name) : d.Reaches start name := by
  induction hreaches with
  | here => exact .here
  | reference name shape next _ hshape hmentions ih =>
      exact .reference name shape next ih ((hsame name ih).trans hshape) hmentions

/-- From a name that two documents define alike, with all below it, the same names are reached. -/
theorem SameFrom.reaches_iff (hsame : d.SameFrom e start) (name : String) :
    d.Reaches start name ↔ e.Reaches start name :=
  ⟨fun hreaches => hreaches.of_sameFrom hsame, hsame.reaches⟩

/-! ## Results that are alike -/

/-- Nothing is found alike in both. -/
theorem alike_none : d.Alike start none none := ⟨rfl, fun _ hfound => nomatch hfound⟩

/-- A shape is like itself if what it mentions is covered. -/
theorem Covers.alike (hcovers : d.Covers start shape) :
    d.Alike start (some shape) (some shape) := by
  refine ⟨rfl, fun found hfound => ?_⟩
  cases hfound
  exact hcovers

/-- Two steps in turn find alike if each of them does. -/
theorem Alike.bind {found other : Option Shape} {f g : Shape → Option Shape}
    (h : d.Alike start found other)
    (hnext : ∀ shape, d.Covers start shape → d.Alike start (f shape) (g shape)) :
    d.Alike start (found.bind f) (other.bind g) := by
  obtain ⟨rfl, hcovers⟩ := h
  cases found with
  | none => exact alike_none
  | some shape => exact hnext shape (hcovers shape rfl)

/-- The definition of a reached name mentions reached names only. -/
theorem SameFrom.alike_shape? {name : String} (hsame : d.SameFrom e start)
    (hreaches : d.Reaches start name) : d.Alike start (d.shape? name) (e.shape? name) :=
  ⟨hsame name hreaches, fun shape hshape _ => .reference name shape _ hreaches hshape⟩

/-! ## The parts of the search -/

/-- References lead to the same shape in both documents. -/
theorem SameFrom.alike_resolve (hsame : d.SameFrom e start) (hops : Nat)
    (hcovers : d.Covers start shape) :
    d.Alike start (d.resolve hops shape) (e.resolve hops shape) := by
  induction hops generalizing shape with
  | zero => exact alike_none
  | succ hops ih =>
      cases shape with
      | reference name =>
          exact (hsame.alike_shape? (hcovers name (.reference name))).bind fun _ => ih
      | record | map | list | scalar | anything => exact hcovers.alike

/-- Lists are entered alike in both documents. -/
theorem SameFrom.alike_enter (hsame : d.SameFrom e start) (lists : Nat)
    (hcovers : d.Covers start shape) :
    d.Alike start (d.enter lists shape) (e.enter lists shape) := by
  induction lists generalizing shape with
  | zero => exact hcovers.alike
  | succ lists ih =>
      cases shape with
      | list items =>
          have hitems : d.Covers start items := fun name hname => hcovers name (.item _ _ hname)
          exact (hsame.alike_resolve hopLimit hitems).bind fun _ => ih
      | record | map | scalar | reference | anything => exact hcovers.alike

/-- The same stands in a field in both documents. -/
theorem SameFrom.alike_child (hsame : d.SameFrom e start) (segment : String)
    (hcovers : d.Covers start shape) :
    d.Alike start (d.child segment shape) (e.child segment shape) := by
  cases shape with
  | record fields =>
      have hfield : d.Alike start (Keyed.get? segment fields) (Keyed.get? segment fields) := by
        refine ⟨rfl, fun below hbelow name hname => hcovers name ?_⟩
        exact .field _ segment below name (Keyed.mem_of_get? hbelow) hname
      exact hfield.bind fun _ => hsame.alike_resolve hopLimit
  | map values =>
      exact hsame.alike_resolve hopLimit fun name hname => hcovers name (.value _ _ hname)
  | anything => exact hcovers.alike
  | scalar | list | reference => exact alike_none

/-- One segment leads to the same shape in both documents. -/
theorem SameFrom.alike_descend (hsame : d.SameFrom e start) (segment : String)
    (hcovers : d.Covers start shape) :
    d.Alike start (d.descend shape segment) (e.descend shape segment) :=
  (hsame.alike_enter hopLimit hcovers).bind fun _ => hsame.alike_child segment

/-- A path leads to the same shape in both documents. -/
theorem SameFrom.alike_follow (hsame : d.SameFrom e start) (path : List String)
    (hcovers : d.Covers start shape) :
    d.Alike start (d.follow shape path) (e.follow shape path) := by
  induction path generalizing shape with
  | nil => exact hcovers.alike
  | cons segment path ih =>
      exact (hsame.alike_descend segment hcovers).bind fun _ => ih

/-- The lookup of a path gives the same answer among definitions that are the same as far as they
are reached. -/
theorem SameFrom.lookup_eq (hsame : d.SameFrom e start) (path : List String) :
    (⟨d, start⟩ : Schema).lookup path = (⟨e, start⟩ : Schema).lookup path := by
  have hroot : d.Alike start (d.shape? start) (e.shape? start) := hsame.alike_shape? .here
  have hsearch := hroot.bind fun _ hcovers =>
    (hsame.alike_resolve hopLimit hcovers).bind fun _ => hsame.alike_follow path
  exact hsearch.1

/-- A schema has the same fields in both documents. -/
theorem SameFrom.hasField_eq (hsame : d.SameFrom e start) (path : List String) :
    (⟨d, start⟩ : Schema).hasField path = (⟨e, start⟩ : Schema).hasField path := by
  rw [Schema.hasField, Schema.hasField, hsame.lookup_eq]

end Definitions

end ApiCatalog
