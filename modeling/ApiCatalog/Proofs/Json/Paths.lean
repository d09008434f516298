import ApiCatalog.Json.Path
import ApiCatalog.Proofs.Keyed

/-!
# What stands at a path

Laws of reading and storing values along paths. A value that is stored leads its own way:
`Json.fill` stores below what may be missing, an absent value being as good as an empty object, and
`set_eq_fill` says that `Json.set` does the same. The laws are read off `fill`, each by induction on
the path. `fst_fill_eq_none_iff` says when nothing can be stored and `snd_fill_of_blocked` that
nothing has changed then. `at?_fill_append`, `at?_fill_of_apart` and `at?_fill_front` say what
stands at the paths behind, beside and before the one that was filled. `fill_fill` and `fill_comm`
are about storing twice, at one path and at two paths that lie apart.
-/

namespace ApiCatalog.Json

/-- Neither path leads through the other. -/
def Apart (path other : List String) : Prop := ¬ path <+: other ∧ ¬ other <+: path

/-- A value on the way to the end of a path is not an object. -/
def Blocked (found : Option Json) (path : List String) : Prop :=
  ∃ front blocking, front <+: path ∧ front ≠ path ∧ found.bind (at? front) = some blocking ∧
    blocking.members? = none

/-- Store a value at a path below what may be missing. Yields what stood there, unless a value on
the way is not an object, and the tree as it is then. -/
def fill : List String → Option Json → Json → Option (Option Json) × Json
  | [], found, value => (some found, value)
  | key :: path, found, value =>
    match found.getD (.object []) with
    | .object members =>
      let (old, child) := fill path (Keyed.get? key members) value
      (old, .object (Keyed.put key child members))
    | other => (none, other)

variable {path other front rest : List String} {key : String} {tree value another : Json}
  {found : Option Json} {members : List (String × Json)}

/-! ## Paths -/

/-- If one path is apart from another, so is the other from it. -/
theorem Apart.symm (h : Apart path other) : Apart other path := ⟨h.2, h.1⟩

/-- Paths are apart if their first keys differ or what follows is apart. -/
theorem apart_cons_cons_iff {k : String} :
    Apart (key :: path) (k :: other) ↔ key ≠ k ∨ Apart path other := by
  simp only [Apart, List.cons_prefix_cons]
  by_cases hkey : key = k
  · simp [hkey]
  · simp [hkey, Ne.symm hkey]

/-- The first key of a path leads to one of the members. -/
theorem at?_cons (key : String) (path : List String) (members : List (String × Json)) :
    (Json.object members).at? (key :: path) = (Keyed.get? key members).bind (at? path) := rfl

/-- Reading below what may be missing is reading below an object, except at the very place. -/
theorem bind_at?_cons (h : found.getD (.object []) = .object members) (key : String)
    (path : List String) :
    found.bind (at? (key :: path)) = (Keyed.get? key members).bind (at? path) := by
  cases found with
  | none =>
      obtain rfl : [] = members := Json.object.inj h
      rfl
  | some tree =>
      obtain rfl : tree = .object members := h
      rfl

/-- What stands in an object in key order is in key order. -/
theorem ordered_of_get? {child : Json} (hordered : (Json.object members).Ordered)
    (hfound : Keyed.get? key members = some child) : child.Ordered :=
  membersOrdered_iff.1 hordered.2 _ (Keyed.mem_of_get? hfound)

/-- A member of a tree in order is in order. -/
theorem ordered_of_member? {child : Json} (hordered : tree.Ordered)
    (hfound : tree.member? key = some child) : child.Ordered := by
  obtain ⟨members, hmembers, hget⟩ := Option.bind_eq_some_iff.1 hfound
  obtain rfl : tree = .object members := members?_eq_some_iff.1 hmembers
  exact ordered_of_get? hordered hget

/-- An object with a single member in order is in order. -/
theorem ordered_singleton {key : String} {value : Json} (hvalue : value.Ordered) :
    (Json.object [(key, value)]).Ordered :=
  ⟨List.pairwise_singleton _ _, hvalue, trivial⟩

/-- An object with two members in order is in order if their keys are. -/
theorem ordered_pair {key other : String} {value another : Json} (hless : key < other)
    (hvalue : value.Ordered) (hanother : another.Ordered) :
    (Json.object [(key, value), (other, another)]).Ordered :=
  ⟨List.pairwise_pair.2 hless, hvalue, hanother, trivial⟩

/-! ## One step of storing -/

/-- Below a key the member behind it is filled. -/
theorem fill_cons (h : found.getD (.object []) = .object members) (key : String)
    (path : List String) (value : Json) :
    fill (key :: path) found value =
      ((fill path (Keyed.get? key members) value).1,
        .object (Keyed.put key (fill path (Keyed.get? key members) value).2 members)) := by
  rw [fill, h]

/-- What is no object is not filled below a key. -/
theorem fill_cons_of_members? (h : tree.members? = none) (key : String) (path : List String)
    (value : Json) : fill (key :: path) (some tree) value = (none, tree) := by
  cases tree with
  | object => cases h
  | null | bool | number | string | array => rfl

/-- What may be missing is an object or as good as one, or it is a value that is no object. -/
theorem getD_cases (found : Option Json) :
    (∃ members, found.getD (.object []) = .object members) ∨
      ∃ tree, found = some tree ∧ tree.members? = none := by
  cases found with
  | none => exact .inl ⟨[], rfl⟩
  | some tree =>
      cases tree with
      | object members => exact .inl ⟨members, rfl⟩
      | null | bool | number | string | array => exact .inr ⟨_, rfl, rfl⟩

/-- Storing a value at a path of a tree is filling the path. -/
theorem set_eq_fill (hpath : path ≠ []) (tree value : Json) :
    tree.set path value = fill path (some tree) value := by
  induction path generalizing tree with
  | nil => exact absurd rfl hpath
  | cons key path ih =>
      cases tree with
      | object members =>
          cases path with
          | nil => rfl
          | cons next path =>
              have hchild := ih (List.cons_ne_nil next path)
                ((Keyed.get? key members).getD (.object []))
              -- Only the value of `getD` is looked at, so the child may as well be missing.
              rw [set, hchild]
              rfl
      | null | bool | number | string | array => cases path <;> rfl

/-! ## When nothing can be stored -/

/-- Nothing blocks the path without keys. -/
theorem not_blocked_nil (found : Option Json) : ¬ Blocked found [] := by
  rintro ⟨front, _, hfront, hne, -⟩
  exact hne (List.prefix_nil.1 hfront)

/-- Nothing blocks a path below what is missing. -/
theorem not_blocked_none (path : List String) : ¬ Blocked none path := by
  rintro ⟨_, _, -, -, hfound, -⟩
  cases hfound

/-- What is no object blocks all paths below it. -/
theorem blocked_cons_of_members? (h : tree.members? = none) (key : String) (path : List String) :
    Blocked (some tree) (key :: path) :=
  ⟨[], tree, List.nil_prefix, (List.cons_ne_nil key path).symm, rfl, h⟩

/-- A path below an object is blocked behind its first key. -/
theorem blocked_cons_iff (h : found.getD (.object []) = .object members) :
    Blocked found (key :: path) ↔ Blocked (Keyed.get? key members) path := by
  constructor
  · rintro ⟨front, blocking, hfront, hne, hat, hblocking⟩
    cases front with
    | nil =>
        cases found with
        | none => cases hat
        | some tree =>
            obtain rfl : tree = .object members := h
            cases hat
            cases hblocking
    | cons k front =>
        obtain ⟨rfl, hrest⟩ := List.cons_prefix_cons.1 hfront
        rw [bind_at?_cons h] at hat
        exact ⟨front, blocking, hrest, fun hsame => hne (hsame ▸ rfl), hat, hblocking⟩
  · rintro ⟨front, blocking, hfront, hne, hat, hblocking⟩
    refine ⟨key :: front, blocking, List.cons_prefix_cons.2 ⟨rfl, hfront⟩,
      fun hsame => hne (List.cons.inj hsame).2, ?_, hblocking⟩
    rw [bind_at?_cons h]
    exact hat

/-- A value is stored unless the way is blocked. -/
theorem fst_fill_eq_none_iff : (fill path found value).1 = none ↔ Blocked found path := by
  induction path generalizing found with
  | nil => exact iff_of_false nofun (not_blocked_nil found)
  | cons key path ih =>
      obtain ⟨members, h⟩ | ⟨tree, rfl, h⟩ := getD_cases found
      · rw [fill_cons h, blocked_cons_iff h]
        exact ih
      · rw [fill_cons_of_members? h]
        exact iff_of_true rfl (blocked_cons_of_members? h key path)

/-- If the way is blocked, the tree is as it was before: no object was missing in front of what
blocks the way, so none was made. -/
theorem snd_fill_of_blocked (hordered : tree.Ordered) (hblocked : Blocked (some tree) path) :
    (fill path (some tree) value).2 = tree := by
  induction path generalizing tree with
  | nil => exact absurd hblocked (not_blocked_nil _)
  | cons key path ih =>
      obtain ⟨members, h⟩ | ⟨other, hother, h⟩ := getD_cases (some tree)
      · obtain rfl : tree = .object members := h
        obtain ⟨hmembers, hbelow⟩ := hordered
        rw [blocked_cons_iff rfl] at hblocked
        -- What blocks the way is there, and so is everything in front of it.
        cases hchild : Keyed.get? key members with
        | none => exact absurd (hchild ▸ hblocked) (not_blocked_none path)
        | some child =>
            have hsame := ih (membersOrdered_iff.1 hbelow _ (Keyed.mem_of_get? hchild))
              (hchild ▸ hblocked)
            rw [fill_cons rfl, hchild, hsame, Keyed.put_of_get? hmembers hchild]
      · obtain rfl : tree = other := Option.some.inj hother
        rw [fill_cons_of_members? h]

/-! ## What stands where after storing -/

/-- What is yielded is what stood at the path. -/
theorem eq_of_fst_fill {old : Option Json} (h : (fill path found value).1 = some old) :
    old = found.bind (at? path) := by
  induction path generalizing found with
  | nil =>
      obtain rfl : found = old := Option.some.inj h
      cases found <;> rfl
  | cons key path ih =>
      obtain ⟨members, hfound⟩ | ⟨tree, rfl, hfound⟩ := getD_cases found
      · rw [fill_cons hfound] at h
        rw [bind_at?_cons hfound]
        exact ih h
      · rw [fill_cons_of_members? hfound] at h
        cases h

/-- At the path and behind it stands the value. -/
theorem at?_fill_append (h : ¬ Blocked found path) (rest : List String) :
    (fill path found value).2.at? (path ++ rest) = value.at? rest := by
  induction path generalizing found with
  | nil => rfl
  | cons key path ih =>
      obtain ⟨members, hfound⟩ | ⟨tree, rfl, hfound⟩ := getD_cases found
      · rw [blocked_cons_iff hfound] at h
        rw [fill_cons hfound, List.cons_append, at?_cons, Keyed.get?_put, if_pos rfl]
        exact ih h
      · exact absurd (blocked_cons_of_members? hfound key path) h

/-- At a path that lies apart stands what stood there before. -/
theorem at?_fill_of_apart (hapart : Apart path other) :
    (fill path found value).2.at? other = found.bind (at? other) := by
  induction path generalizing found other with
  | nil => exact absurd List.nil_prefix hapart.1
  | cons key path ih =>
      cases other with
      | nil => exact absurd List.nil_prefix hapart.2
      | cons k other =>
          obtain ⟨members, hfound⟩ | ⟨tree, rfl, hfound⟩ := getD_cases found
          · rw [fill_cons hfound, at?_cons, Keyed.get?_put, bind_at?_cons hfound]
            by_cases hkey : key = k
            · subst hkey
              rw [if_pos rfl]
              exact ih ((apart_cons_cons_iff.1 hapart).resolve_left (not_not_intro rfl))
            · rw [if_neg hkey]
          · rw [fill_cons_of_members? hfound]
            rfl

/-- At a path that leads to the one that was filled stands an object. Its members are those from
before, or none if it was missing, and the one that leads on. -/
theorem at?_fill_front (h : ¬ Blocked found (front ++ key :: rest)) :
    ∃ child, (fill (front ++ key :: rest) found value).2.at? front =
      some (.object (Keyed.put key child
        (((found.bind (at? front)).bind Json.members?).getD []))) := by
  induction front generalizing found with
  | nil =>
      obtain ⟨members, hfound⟩ | ⟨tree, rfl, hfound⟩ := getD_cases found
      · refine ⟨(fill rest (Keyed.get? key members) value).2, ?_⟩
        have hmembers : ((found.bind (at? [])).bind Json.members?).getD [] = members := by
          cases found with
          | none => exact Json.object.inj hfound
          | some tree =>
              obtain rfl : tree = .object members := hfound
              rfl
        rw [List.nil_append, fill_cons hfound, hmembers]
        rfl
      · exact absurd (blocked_cons_of_members? hfound key rest) h
  | cons k front ih =>
      obtain ⟨members, hfound⟩ | ⟨tree, rfl, hfound⟩ := getD_cases found
      · rw [List.cons_append, blocked_cons_iff hfound] at h
        obtain ⟨child, hchild⟩ := ih h
        refine ⟨child, ?_⟩
        rw [List.cons_append, fill_cons hfound, at?_cons, Keyed.get?_put, if_pos rfl,
          bind_at?_cons hfound]
        exact hchild
      · exact absurd (blocked_cons_of_members? hfound k _) h

/-- The members stay in order. -/
theorem ordered_fill (hfound : ∀ tree, found = some tree → tree.Ordered)
    (hvalue : value.Ordered) : (fill path found value).2.Ordered := by
  induction path generalizing found with
  | nil => exact hvalue
  | cons key path ih =>
      obtain ⟨members, h⟩ | ⟨tree, rfl, h⟩ := getD_cases found
      · obtain ⟨hmembers, hbelow⟩ : (Json.object members).Ordered := by
          cases found with
          | none =>
              obtain rfl : [] = members := Json.object.inj h
              exact ⟨List.Pairwise.nil, trivial⟩
          | some tree => exact h ▸ hfound tree rfl
        rw [membersOrdered_iff] at hbelow
        have hchild : (fill path (Keyed.get? key members) value).2.Ordered :=
          ih fun child hget => hbelow _ (Keyed.mem_of_get? hget)
        rw [fill_cons h]
        refine ⟨Keyed.ordered_put hmembers key _, membersOrdered_iff.2 fun member hmember => ?_⟩
        rcases Keyed.mem_put hmember with rfl | hmember
        · exact hchild
        · exact hbelow member hmember
      · rw [fill_cons_of_members? h]
        exact hfound tree rfl

/-! ## Storing twice -/

/-- Of two values that are stored at one path the second one stays. -/
theorem fill_fill (h : ¬ Blocked found path) :
    fill path (some (fill path found value).2) another =
      (some (some value), (fill path found another).2) := by
  induction path generalizing found with
  | nil => rfl
  | cons key path ih =>
      obtain ⟨members, hfound⟩ | ⟨tree, rfl, hfound⟩ := getD_cases found
      · rw [blocked_cons_iff hfound] at h
        rw [fill_cons hfound, fill_cons hfound, fill_cons rfl, Keyed.get?_put, if_pos rfl, ih h,
          Keyed.put_put]
      · exact absurd (blocked_cons_of_members? hfound key path) h

/-- Values that are stored at paths apart from each other may be stored in either order, and each of
them in front of the other or behind it yields the same. -/
theorem fill_comm (hapart : Apart path other) (found : Option Json) (value another : Json) :
    (fill other (some (fill path found value).2) another).1 = (fill other found another).1 ∧
      (fill other (some (fill path found value).2) another).2 =
        (fill path (some (fill other found another).2) value).2 := by
  induction path generalizing found other with
  | nil => exact absurd List.nil_prefix hapart.1
  | cons key path ih =>
      cases other with
      | nil => exact absurd List.nil_prefix hapart.2
      | cons k other =>
          obtain ⟨members, hfound⟩ | ⟨tree, rfl, hfound⟩ := getD_cases found
          · rw [fill_cons hfound, fill_cons hfound, fill_cons rfl, fill_cons rfl, Keyed.get?_put,
              Keyed.get?_put]
            by_cases hkey : key = k
            · subst hkey
              obtain ⟨hfirst, hsecond⟩ := ih
                ((apart_cons_cons_iff.1 hapart).resolve_left (not_not_intro rfl))
                (Keyed.get? key members)
              rw [if_pos rfl, if_pos rfl, Keyed.put_put, Keyed.put_put]
              exact ⟨hfirst, congrArg (fun child => object (Keyed.put key child members)) hsecond⟩
            · rw [if_neg hkey, if_neg (Ne.symm hkey)]
              exact ⟨rfl, congrArg object (Keyed.put_comm (Ne.symm hkey) _ _ members)⟩
          · rw [fill_cons_of_members? hfound, fill_cons_of_members? hfound,
              fill_cons_of_members? hfound]
            exact ⟨rfl, rfl⟩

end ApiCatalog.Json
