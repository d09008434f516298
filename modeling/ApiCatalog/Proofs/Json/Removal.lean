import ApiCatalog.Proofs.Json.Paths

/-!
# What is gone from a path

Laws of removing the value at a path. `Taken` says what a tree becomes when the value at a path is
removed from it, and `take_eq_some_iff` that `Json.take` removes in this way. Something is removed
exactly if something stands at the path (`take_eq_none_iff`). The laws go along `Taken`:
`Taken.at?_append`, `Taken.at?_of_apart` and `Taken.at?_front` are about the paths behind, beside
and before the one that was emptied, and `Taken.fill` says that storing the value again undoes all.
-/

namespace ApiCatalog.Json

/-- `Taken path tree old after` says that `old` stands at the path in the tree, and that `after` is
the tree without it. -/
inductive Taken : List String → Json → Json → Json → Prop where
  | last (key members old) :
      Keyed.get? key members = some old →
      Taken [key] (.object members) old (.object (Keyed.erase key members))
  | step (key path members child old rest) :
      Keyed.get? key members = some child → Taken path child old rest →
      Taken (key :: path) (.object members) old (.object (Keyed.put key rest members))

variable {path other front rest : List String} {key : String} {tree old after : Json}

/-! ## When there is something to remove -/

/-- A value is taken from below a key. -/
theorem Taken.path_ne_nil (h : Taken path tree old after) : path ≠ [] := by
  cases h with
  | last | step => exact List.cons_ne_nil _ _

/-- The value at a path is removed in one way. -/
theorem take_eq_some_iff : tree.take path = some (old, after) ↔ Taken path tree old after := by
  induction path generalizing tree old after with
  | nil =>
      constructor
      · intro htake
        cases htake
      · intro htaken
        exact absurd rfl htaken.path_ne_nil
  | cons key path ih =>
      cases tree with
      | object members =>
          -- The end of the path is a case of its own: there the key itself is removed.
          cases path with
          | nil =>
              rw [take, Option.map_eq_some_iff]
              constructor
              · intro htake
                obtain ⟨child, hchild, hsame⟩ := htake
                cases hsame
                exact .last key members old hchild
              · intro htaken
                cases htaken with
                | last _ _ _ hchild => exact ⟨old, hchild, rfl⟩
                | step _ _ _ _ _ _ _ hrest => exact absurd rfl hrest.path_ne_nil
          | cons next path =>
              simp only [take, Option.bind_eq_bind, Option.bind_eq_some_iff, Prod.exists, ih]
              constructor
              · intro htake
                obtain ⟨child, hchild, taken, left, htaken, hsame⟩ := htake
                cases hsame
                exact .step key (next :: path) members child old left hchild htaken
              · intro htaken
                cases htaken with
                | step _ _ _ child _ left hchild hbelow =>
                    exact ⟨child, hchild, old, left, hbelow, rfl⟩
      | null | bool | number | string | array =>
          constructor
          · intro htake
            cases path <;> cases htake
          · intro htaken
            cases htaken

/-- What is removed stood at the path. -/
theorem Taken.at?_eq (h : Taken path tree old after) : tree.at? path = some old := by
  induction h with
  | last key members old hfound => rw [at?_cons, hfound, Option.bind_some, at?]
  | step key path members child old rest hfound _ ih =>
      rw [at?_cons, hfound, Option.bind_some, ih]

/-- What stands at a path can be removed. -/
theorem exists_taken (hpath : path ≠ []) (hfound : tree.at? path = some old) :
    ∃ after, Taken path tree old after := by
  induction path generalizing tree with
  | nil => exact absurd rfl hpath
  | cons key path ih =>
      cases tree with
      | object members =>
          rw [at?_cons, Option.bind_eq_some_iff] at hfound
          obtain ⟨child, hchild, hfound⟩ := hfound
          cases path with
          | nil =>
              obtain rfl : child = old := Option.some.inj hfound
              exact ⟨_, .last key members child hchild⟩
          | cons next path =>
              obtain ⟨left, htaken⟩ := ih (List.cons_ne_nil next path) hfound
              exact ⟨_, .step key _ members child old left hchild htaken⟩
      | null | bool | number | string | array => cases hfound

/-- There is nothing to remove exactly if nothing stands at the path. -/
theorem take_eq_none_iff (hpath : path ≠ []) :
    tree.take path = none ↔ tree.at? path = none := by
  constructor
  · intro htake
    cases hfound : tree.at? path with
    | none => rfl
    | some old =>
        obtain ⟨after, htaken⟩ := exists_taken hpath hfound
        rw [take_eq_some_iff.2 htaken] at htake
        cases htake
  · intro hmissing
    cases htake : tree.take path with
    | none => rfl
    | some taken =>
        have hfound := (take_eq_some_iff.1 htake).at?_eq
        rw [hmissing] at hfound
        cases hfound

/-! ## What stands where afterwards -/

/-- Nothing stands at the path any more, nor behind it. -/
theorem Taken.at?_append (h : Taken path tree old after) (hordered : tree.Ordered)
    (rest : List String) : after.at? (path ++ rest) = none := by
  induction h with
  | last key members old _ =>
      rw [List.cons_append, at?_cons, Keyed.get?_erase_self hordered.1, Option.bind_none]
  | step key path members child old left hfound _ ih =>
      rw [List.cons_append, at?_cons, Keyed.get?_put, if_pos rfl, Option.bind_some]
      exact ih (ordered_of_get? hordered hfound)

/-- At a path that lies apart stands what stood there before. -/
theorem Taken.at?_of_apart (h : Taken path tree old after) (hapart : Apart path other) :
    after.at? other = tree.at? other := by
  induction h generalizing other with
  | last key members old _ =>
      cases other with
      | nil => exact absurd List.nil_prefix hapart.2
      | cons k other =>
          have hkey : k ≠ key := by
            intro hsame
            subst hsame
            exact hapart.1 (List.cons_prefix_cons.2 ⟨rfl, List.nil_prefix⟩)
          rw [at?_cons, at?_cons, Keyed.get?_erase_of_ne hkey]
  | step key path members child old left hfound _ ih =>
      cases other with
      | nil => exact absurd List.nil_prefix hapart.2
      | cons k other =>
          rw [at?_cons, at?_cons, Keyed.get?_put]
          by_cases hkey : key = k
          · subst hkey
            rw [if_pos rfl, hfound, Option.bind_some, Option.bind_some]
            exact ih ((apart_cons_cons_iff.1 hapart).resolve_left (not_not_intro rfl))
          · rw [if_neg hkey]

/-- At a path that leads to the one that was emptied stands an object, as before, and all its
members but the one that leads on are the same. -/
theorem Taken.at?_front (h : Taken (front ++ key :: rest) tree old after) :
    ∃ members left, tree.at? front = some (.object members) ∧
      after.at? front = some (.object left) ∧
      ∀ k ≠ key, Keyed.get? k left = Keyed.get? k members := by
  induction front generalizing tree after with
  | nil =>
      cases h with
      | last _ members _ _ =>
          refine ⟨members, Keyed.erase key members, rfl, rfl, ?_⟩
          intro k hk
          exact Keyed.get?_erase_of_ne hk members
      | step _ _ members _ _ left _ _ =>
          refine ⟨members, Keyed.put key left members, rfl, rfl, ?_⟩
          intro k hk
          rw [Keyed.get?_put, if_neg hk.symm]
  | cons first front ih =>
      -- The rest of the path needs a name before the rules of `Taken` can be told apart on it.
      generalize hpath : front ++ key :: rest = path at h
      rw [List.cons_append, hpath] at h
      cases h with
      | last => exact absurd hpath (by simp)
      | step _ _ members child _ left hfound htaken =>
          obtain ⟨inner, innerLeft, hinner, hleft, hsame⟩ := ih (hpath ▸ htaken)
          refine ⟨inner, innerLeft, ?_, ?_, hsame⟩
          · rw [at?_cons, hfound, Option.bind_some, hinner]
          · rw [at?_cons, Keyed.get?_put, if_pos rfl, Option.bind_some, hleft]

/-- The members stay in order. -/
theorem Taken.ordered (h : Taken path tree old after) (hordered : tree.Ordered) :
    after.Ordered := by
  induction h with
  | last key members old _ =>
      refine ⟨Keyed.ordered_erase hordered.1 key, membersOrdered_iff.2 ?_⟩
      intro member hmember
      exact membersOrdered_iff.1 hordered.2 member (Keyed.mem_of_mem_erase hmember)
  | step key path members child old left hfound _ ih =>
      have hleft : left.Ordered := ih (ordered_of_get? hordered hfound)
      refine ⟨Keyed.ordered_put hordered.1 key left, membersOrdered_iff.2 ?_⟩
      intro member hmember
      rcases Keyed.mem_put hmember with rfl | hmember
      · exact hleft
      · exact membersOrdered_iff.1 hordered.2 member hmember

/-! ## Storing what was removed -/

/-- Storing the removed value at its path restores the tree. -/
theorem Taken.fill (h : Taken path tree old after) (hordered : tree.Ordered) :
    fill path (some after) old = (some none, tree) := by
  induction h with
  | last key members old hfound =>
      rw [fill_cons rfl, Keyed.get?_erase_self hordered.1, Json.fill,
        Keyed.put_erase hordered.1 hfound]
  | step key path members child old left hfound _ ih =>
      rw [fill_cons rfl, Keyed.get?_put, if_pos rfl, ih (ordered_of_get? hordered hfound),
        Keyed.put_put, Keyed.put_of_get? hordered.1 hfound]

end ApiCatalog.Json
