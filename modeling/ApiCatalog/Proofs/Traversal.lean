import Mathlib.Data.List.Forall2

/-!
# Steps along a list that may fail

A list is gone through step by step until the first step that fails. `mapM_eq_ok_iff` says what is
found if none does, and `mapM_eq_error_iff` which failure is reported otherwise.
-/

namespace ApiCatalog.Traversal

variable {α β ε : Type} {f : α → Except ε β} {xs : List α} {ys : List β} {failure : ε}

/-- What is mapped comes to a result if it came to what is mapped to it. -/
theorem map_eq_ok_iff {x : Except ε α} {g : α → β} {b : β} :
    x.map g = .ok b ↔ ∃ a, x = .ok a ∧ g a = b := by
  cases x with
  | error failure => simp [Except.map]
  | ok a => simp [Except.map]

/-- What is mapped fails as it failed before. -/
theorem map_eq_error_iff {x : Except ε α} {g : α → β} :
    x.map g = .error failure ↔ x = .error failure := by
  cases x with
  | error other => simp [Except.map]
  | ok a => simp [Except.map]

/-- Going through a list takes the first step and then goes through the rest. -/
theorem mapM_cons_eq (f : α → Except ε β) (x : α) (xs : List α) :
    (x :: xs).mapM f = (f x).bind fun y => (xs.mapM f).map (y :: ·) := by
  rw [List.mapM_cons]
  cases f x with
  | error failure => rfl
  | ok y => cases xs.mapM f <;> rfl

/-- The whole list is gone through if every step succeeds, and each yields its own. -/
theorem mapM_eq_ok_iff : xs.mapM f = .ok ys ↔ List.Forall₂ (fun x y => f x = .ok y) xs ys := by
  induction xs generalizing ys with
  | nil =>
      rw [List.forall₂_nil_left_iff]
      constructor
      · intro h
        cases h
        rfl
      · rintro rfl
        rfl
  | cons x xs ih =>
      rw [mapM_cons_eq, List.forall₂_cons_left_iff]
      constructor
      · intro h
        cases hx : f x with
        | error failure =>
            rw [hx] at h
            cases h
        | ok y =>
            cases hrest : xs.mapM f with
            | error failure =>
                rw [hx, hrest] at h
                cases h
            | ok zs =>
                rw [hx, hrest] at h
                cases h
                exact ⟨y, zs, rfl, ih.1 hrest, rfl⟩
      · intro h
        obtain ⟨y, zs, hx, hrest, rfl⟩ := h
        rw [hx, ih.2 hrest]
        rfl

/-- The same of steps that do not say why they fail. -/
theorem mapM_eq_some_iff {g : α → Option β} :
    xs.mapM g = some ys ↔ List.Forall₂ (fun x y => g x = some y) xs ys := by
  induction xs generalizing ys with
  | nil => simp [eq_comm]
  | cons x xs ih =>
      simp only [List.mapM_cons, Option.bind_eq_bind, Option.pure_def, Option.bind_eq_some_iff,
        List.forall₂_cons_left_iff, ← ih, Option.some.injEq]
      constructor
      · rintro ⟨y, hx, zs, hrest, rfl⟩
        exact ⟨y, zs, hx, hrest, rfl⟩
      · rintro ⟨y, zs, hx, hrest, rfl⟩
        exact ⟨y, hx, zs, hrest, rfl⟩

/-- The first step that fails decides the failure. -/
theorem mapM_eq_error_iff :
    xs.mapM f = .error failure ↔
      ∃ before x after, xs = before ++ x :: after ∧ (∀ y ∈ before, ∃ z, f y = .ok z) ∧
        f x = .error failure := by
  induction xs with
  | nil =>
      constructor
      · intro h
        cases h
      · intro h
        obtain ⟨before, x, after, hsplit, -⟩ := h
        cases before <;> cases hsplit
  | cons x xs ih =>
      rw [mapM_cons_eq]
      constructor
      · intro h
        cases hx : f x with
        | error first =>
            rw [hx] at h
            cases h
            exact ⟨[], x, xs, rfl, fun y hy => absurd hy List.not_mem_nil, hx⟩
        | ok y =>
            cases hrest : xs.mapM f with
            | error later =>
                rw [hx, hrest] at h
                cases h
                obtain ⟨before, z, after, rfl, hbefore, hz⟩ := ih.1 hrest
                refine ⟨x :: before, z, after, rfl, ?_, hz⟩
                exact List.forall_mem_cons.2 ⟨⟨y, hx⟩, hbefore⟩
            | ok zs =>
                rw [hx, hrest] at h
                cases h
      · intro h
        obtain ⟨before, z, after, hsplit, hbefore, hz⟩ := h
        cases before with
        | nil =>
            cases hsplit
            rw [hz]
            rfl
        | cons first before =>
            cases hsplit
            obtain ⟨⟨y, hx⟩, hbefore⟩ := List.forall_mem_cons.1 hbefore
            rw [hx, ih.2 ⟨before, z, after, rfl, hbefore, hz⟩]
            rfl

/-! ## Lists side by side -/

section Related

variable {γ : Type} {R : α → β → Prop} {x : α} {y : β}

/-- Every entry on the left is related to one on the right. -/
theorem exists_of_mem_left (h : List.Forall₂ R xs ys) (hx : x ∈ xs) : ∃ y ∈ ys, R x y := by
  induction h with
  | nil => exact absurd hx List.not_mem_nil
  | cons hfirst _ ih =>
      rcases List.mem_cons.1 hx with rfl | hx
      · exact ⟨_, List.mem_cons_self, hfirst⟩
      · obtain ⟨y, hy, hrel⟩ := ih hx
        exact ⟨y, List.mem_cons_of_mem _ hy, hrel⟩

/-- Every entry on the right is related to one on the left. -/
theorem exists_of_mem_right (h : List.Forall₂ R xs ys) (hy : y ∈ ys) : ∃ x ∈ xs, R x y :=
  exists_of_mem_left h.flip hy

/-- What the two lists have in common stands in both in the same order. -/
theorem map_eq_map (h : List.Forall₂ R xs ys) {g : α → γ} {k : β → γ}
    (hsame : ∀ x y, R x y → g x = k y) : xs.map g = ys.map k := by
  induction h with
  | nil => rfl
  | cons hfirst _ ih => rw [List.map_cons, List.map_cons, hsame _ _ hfirst, ih]

end Related

/-- Going through a list fails exactly if one of its steps does. -/
theorem exists_mapM_eq_error_iff :
    (∃ failure, xs.mapM f = .error failure) ↔ ∃ x ∈ xs, ∃ failure, f x = .error failure := by
  constructor
  · intro h
    obtain ⟨failure, h⟩ := h
    obtain ⟨before, x, after, rfl, -, hx⟩ := mapM_eq_error_iff.1 h
    exact ⟨x, List.mem_append_right _ List.mem_cons_self, failure, hx⟩
  · intro h
    obtain ⟨x, hmem, failure, hx⟩ := h
    cases hall : xs.mapM f with
    | error first => exact ⟨first, rfl⟩
    | ok ys =>
        obtain ⟨y, -, hy⟩ := exists_of_mem_left (mapM_eq_ok_iff.1 hall) hmem
        rw [hx] at hy
        cases hy

/-- Going through a list succeeds exactly if all of its steps do. -/
theorem exists_mapM_eq_ok_iff : (∃ ys, xs.mapM f = .ok ys) ↔ ∀ x ∈ xs, ∃ y, f x = .ok y := by
  constructor
  · intro h x hmem
    obtain ⟨ys, h⟩ := h
    obtain ⟨y, -, hy⟩ := exists_of_mem_left (mapM_eq_ok_iff.1 h) hmem
    exact ⟨y, hy⟩
  · intro h
    cases hall : xs.mapM f with
    | ok ys => exact ⟨ys, rfl⟩
    | error failure =>
        obtain ⟨x, hmem, first, hx⟩ := exists_mapM_eq_error_iff.1 ⟨failure, hall⟩
        obtain ⟨y, hy⟩ := h x hmem
        rw [hx] at hy
        cases hy

end ApiCatalog.Traversal
