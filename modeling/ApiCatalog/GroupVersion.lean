import ApiCatalog.Text.Pieces

/-!
# Groups, versions and kinds

An API server announces its resources per API group and version, `apps/v1` for instance. The core
group has no name, so `v1` alone is a version of the core group. `Restriction` selects groups and
versions.
-/

namespace ApiCatalog

/-- A version of an API group. The core group has the empty name. -/
structure GroupVersion where
  group : String
  version : String
deriving DecidableEq, Repr, Inhabited

/-- A kind of object in a version of an API group. -/
structure GroupVersionKind where
  group : String
  version : String
  kind : String
deriving DecidableEq, Repr, Inhabited

namespace GroupVersion

/-- The version that an empty text stands for. -/
def defaultVersion : String := "v1"

/-- The group and version that a text names: the parts before and after the first slash, or the
version of the core group if there is no slash. Anything after a second slash is ignored. -/
def ofText (text : String) : GroupVersion :=
  if text = "" then ⟨"", defaultVersion⟩
  else match Text.split '/' text with
    | group :: version :: _ => ⟨group, version⟩
    | [version] => ⟨"", version⟩
    | [] => ⟨"", defaultVersion⟩

/-- A kind in this version. -/
def withKind (gv : GroupVersion) (kind : String) : GroupVersionKind :=
  ⟨gv.group, gv.version, kind⟩

end GroupVersion

/-- A choice of one group, one version or both. A part that is absent admits anything, and the
empty group admits the core group only. -/
structure Restriction where
  group : Option String := none
  version : Option String := none
deriving DecidableEq, Repr, Inhabited

namespace Restriction

/-- The choice of a group and a version, where an empty text admits anything. -/
def ofTexts (group version : String) : Restriction where
  group := if group = "" then none else some group
  version := if version = "" then none else some version

/-- Admit only a given group. -/
def withGroup (group : String) (r : Restriction) : Restriction := { r with group := some group }

/-- Admit only a given version. -/
def withVersion (version : String) (r : Restriction) : Restriction :=
  { r with version := some version }

/-- The choice admits everything. -/
def isUnrestricted (r : Restriction) : Bool := r.group.isNone && r.version.isNone

/-- The choice admits a group and version. -/
def admits (r : Restriction) (gv : GroupVersion) : Bool :=
  r.group.all (· = gv.group) && r.version.all (· = gv.version)

end Restriction

end ApiCatalog
