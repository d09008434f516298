/-!
# Entries in key order

The members of a JSON object, the entries of a directory and the names of a catalog are lists of
pairs of a key and a value. They stand in increasing order of the keys, each key once. Strings are
compared character by character, which is the order of their UTF-8 bytes.

`get?` finds a value, `put` stores one in its place, `erase` removes one, and `ofPairs` sorts a
list of pairs, where the last of several pairs with one key counts. `Ordered` is the invariant,
and `ordered_put`, `ordered_erase`, `ordered_ofPairs` and `ordered_filterMap` say that it is kept.
-/

namespace ApiCatalog.Keyed

variable {α β : Type}

/-- The keys increase strictly from each entry to the next. -/
def Ordered (entries : List (String × α)) : Prop :=
  entries.Pairwise fun a b => a.1 < b.1

/-- The order of a given list of entries can be tested. -/
instance (entries : List (String × α)) : Decidable (Ordered entries) :=
  inferInstanceAs (Decidable (List.Pairwise _ _))

/-- The value stored under `key`. -/
def get? (key : String) : List (String × α) → Option α
  | [] => none
  | (k, a) :: rest => if k = key then some a else get? key rest

/-- Store `value` under `key`, in place of the value stored there before. -/
def put (key : String) (value : α) : List (String × α) → List (String × α)
  | [] => [(key, value)]
  | (k, a) :: rest =>
    if key < k then (key, value) :: (k, a) :: rest
    else if k = key then (key, value) :: rest
    else (k, a) :: put key value rest

/-- Remove the value stored under `key`. -/
def erase (key : String) : List (String × α) → List (String × α)
  | [] => []
  | (k, a) :: rest => if k = key then rest else (k, a) :: erase key rest

/-- The entries of a list of pairs in any order; a later pair replaces an earlier one. -/
def ofPairs (pairs : List (String × α)) : List (String × α) :=
  pairs.foldl (fun entries pair => put pair.1 pair.2 entries) []

/-- Map every entry to a value for the same key, or drop it. -/
def filterMap (f : String → α → Option β) (entries : List (String × α)) : List (String × β) :=
  entries.filterMap fun entry => (f entry.1 entry.2).map (entry.1, ·)

/-- Nothing is found among no entries. -/
@[simp] theorem get?_nil (key : String) : get? key ([] : List (String × α)) = none := rfl

/-- A key below all others is not among them. -/
theorem get?_eq_none_of_forall_lt {key : String} {entries : List (String × α)}
    (below : ∀ entry ∈ entries, key < entry.1) : get? key entries = none := by
  induction entries with
  | nil => rfl
  | cons entry rest ih =>
    obtain ⟨k, a⟩ := entry
    have ne : k ≠ key := fun h => String.lt_irrefl key (h ▸ below (k, a) (by simp))
    simp [get?, ne, ih fun entry mem => below entry (by simp [mem])]

/-- A stored value is found again, and no other key is affected. -/
theorem get?_put (key other : String) (value : α) (entries : List (String × α)) :
    get? other (put key value entries) =
      if key = other then some value else get? other entries := by
  induction entries with
  | nil => simp [put, get?]
  | cons entry rest ih =>
    obtain ⟨k, a⟩ := entry
    unfold put
    split
    · simp [get?]
    · split
      next same =>
        subst same
        by_cases h : k = other <;> simp [get?, h]
      next differs =>
        by_cases h : k = other
        · subst h
          simp [get?, Ne.symm differs]
        · simp [get?, h, ih]

/-- The keys of `put` are the key and the keys from before. -/
theorem fst_mem_put {key : String} {value : α} {entries : List (String × α)} {entry : String × α}
    (mem : entry ∈ put key value entries) : entry.1 = key ∨ entry ∈ entries := by
  induction entries with
  | nil => simp_all [put]
  | cons first rest ih =>
    unfold put at mem
    split at mem
    · rcases List.mem_cons.1 mem with rfl | mem
      · exact .inl rfl
      · exact .inr mem
    · split at mem
      · rcases List.mem_cons.1 mem with rfl | mem
        · exact .inl rfl
        · exact .inr (List.mem_cons_of_mem _ mem)
      · rcases List.mem_cons.1 mem with rfl | mem
        · exact .inr (by simp)
        · exact (ih mem).imp id (List.mem_cons_of_mem _)

/-- `put` keeps the order. -/
theorem ordered_put {entries : List (String × α)} (ordered : Ordered entries)
    (key : String) (value : α) : Ordered (put key value entries) := by
  induction entries with
  | nil => simp [put, Ordered]
  | cons first rest ih =>
    obtain ⟨k, a⟩ := first
    obtain ⟨above, ordered⟩ := List.pairwise_cons.1 ordered
    unfold put
    split
    next less =>
      refine List.pairwise_cons.2 ⟨fun entry mem => ?_, List.pairwise_cons.2 ⟨above, ordered⟩⟩
      rcases List.mem_cons.1 mem with rfl | mem
      · exact less
      · exact String.lt_trans less (above entry mem)
    next notLess =>
      split
      next same =>
        subst same
        exact List.pairwise_cons.2 ⟨above, ordered⟩
      next differs =>
        refine List.pairwise_cons.2 ⟨fun entry mem => ?_, ih ordered⟩
        rcases fst_mem_put mem with same | mem
        · have le : k ≤ key := String.not_lt.1 notLess
          exact same ▸ Std.lt_of_le_of_ne le differs
        · exact above entry mem

/-- `erase` keeps the order. -/
theorem ordered_erase {entries : List (String × α)} (ordered : Ordered entries) (key : String) :
    Ordered (erase key entries) := by
  refine List.Pairwise.sublist ?_ ordered
  clear ordered
  induction entries with
  | nil => exact List.Sublist.refl _
  | cons first rest ih =>
    obtain ⟨k, a⟩ := first
    unfold erase
    split
    · exact List.sublist_cons_self _ _
    · exact ih.cons_cons _

/-- Sorting a list of pairs yields ordered entries. -/
theorem ordered_ofPairs (pairs : List (String × α)) : Ordered (ofPairs pairs) := by
  suffices general : ∀ entries, Ordered entries →
      Ordered (pairs.foldl (fun entries pair => put pair.1 pair.2 entries) entries) from
    general [] List.Pairwise.nil
  induction pairs with
  | nil => exact fun _ ordered => ordered
  | cons pair pairs ih => exact fun _ ordered => ih _ (ordered_put ordered _ _)

/-- Mapping and dropping values keeps the order. -/
theorem ordered_filterMap {entries : List (String × α)} (ordered : Ordered entries)
    (f : String → α → Option β) : Ordered (filterMap f entries) := by
  refine List.Pairwise.filterMap _ (fun a b less x hx y hy => ?_) ordered
  obtain ⟨_, _, rfl⟩ := Option.map_eq_some_iff.1 hx
  obtain ⟨_, _, rfl⟩ := Option.map_eq_some_iff.1 hy
  exact less

end ApiCatalog.Keyed
