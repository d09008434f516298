import ApiCatalog.Keyed
import Mathlib.Data.List.Sort

/-!
# What is stored under which key

Laws of entries in key order beyond those that come with the operations. `get?_filterMap` looks up
a key after the entries were mapped and dropped, `get?_of_mem` finds every entry under its key, and
`exists_split_of_get?` shows where in the list a stored value stands and that storing another one
changes nothing but that place. `eq_of_get?_eq` says that entries are known by what is found under
each key, `get?_erase_self` and `get?_erase_of_ne` what is found after a key was removed,
`put_erase`, `put_put` and `put_comm` what it means to store again or twice, and `get?_ofPairs` what
is found after a list of pairs was sorted.
-/

namespace ApiCatalog.Keyed

variable {α β : Type} {key : String} {entries : List (String × α)}

/-- The value of a key after all entries were mapped is the mapped value of that key. -/
theorem get?_filterMap (hordered : Ordered entries) (f : String → α → Option β) (key : String) :
    get? key (filterMap f entries) = (get? key entries).bind (f key) := by
  induction entries with
  | nil => rfl
  | cons entry rest ih =>
      obtain ⟨k, a⟩ := entry
      obtain ⟨habove, hrest⟩ := List.pairwise_cons.1 hordered
      have hrec := ih hrest
      by_cases hkey : k = key
      · subst hkey
        -- The key of a dropped entry is found nowhere else: all others are greater.
        have hnone : get? k (filterMap f rest) = none := by
          rw [hrec, get?_eq_none_of_forall_lt habove, Option.bind_none]
        cases hf : f k a with
        | none => simpa [filterMap, get?, hf] using hnone
        | some b => simp [filterMap, get?, hf]
      · cases hf : f k a with
        | none => simpa [filterMap, get?, hf, hkey] using hrec
        | some b => simpa [filterMap, get?, hf, hkey] using hrec

/-- Keys in order do not repeat. -/
theorem Ordered.nodup_keys (hordered : Ordered entries) : (entries.map (·.1)).Nodup := by
  refine (List.pairwise_map.2 hordered).imp ?_
  rintro a _ hless rfl
  exact String.lt_irrefl a hless

/-- Every entry is found under its key, if keys do not repeat. -/
theorem get?_of_mem_of_nodup (hnodup : (entries.map (·.1)).Nodup) {value : α}
    (hmem : (key, value) ∈ entries) : get? key entries = some value := by
  induction entries with
  | nil => cases hmem
  | cons entry rest ih =>
      obtain ⟨k, a⟩ := entry
      obtain ⟨hnew, hrest⟩ := List.nodup_cons.1 hnodup
      rcases List.mem_cons.1 hmem with heq | hmem
      · cases heq
        simp [get?]
      · have hne : k ≠ key := by
          rintro rfl
          exact hnew (List.mem_map.2 ⟨(k, value), hmem, rfl⟩)
        simpa [get?, hne] using ih hrest hmem

/-- Every entry is found under its key. -/
theorem get?_of_mem (hordered : Ordered entries) {value : α} (hmem : (key, value) ∈ entries) :
    get? key entries = some value :=
  get?_of_mem_of_nodup hordered.nodup_keys hmem

/-- A stored value stands at one place, and another value for its key takes that place. -/
theorem exists_split_of_get? (hordered : Ordered entries) {old : α}
    (hfound : get? key entries = some old) :
    ∃ before after, entries = before ++ (key, old) :: after ∧
      ∀ value, put key value entries = before ++ (key, value) :: after := by
  induction entries with
  | nil => cases hfound
  | cons entry rest ih =>
      obtain ⟨k, a⟩ := entry
      obtain ⟨habove, hrest⟩ := List.pairwise_cons.1 hordered
      by_cases hkey : k = key
      · subst hkey
        obtain rfl : a = old := by simpa [get?] using hfound
        exact ⟨[], rest, rfl, fun value => by simp [put]⟩
      · obtain ⟨before, after, hsplit, hput⟩ := ih hrest (by simpa [get?, hkey] using hfound)
        have hless : k < key := habove (key, old) (by simp [hsplit])
        refine ⟨(k, a) :: before, after, by simp [hsplit], fun value => ?_⟩
        have hnot : ¬ key < k := fun h => String.lt_irrefl k (String.lt_trans hless h)
        simp [put, hkey, hnot, hput value]

/-- An entry with a smaller key stands in front of one with a greater key. -/
theorem mem_front_of_lt {before after : List (String × α)} {entry other : String × α}
    (hordered : Ordered (before ++ entry :: after)) (hmem : other ∈ before ++ entry :: after)
    (hless : other.1 < entry.1) : other ∈ before := by
  obtain ⟨-, htail, -⟩ := List.pairwise_append.1 hordered
  rcases List.mem_append.1 hmem with hfront | hmem
  · exact hfront
  · rcases List.mem_cons.1 hmem with hsame | hafter
    · subst hsame
      exact absurd hless (String.lt_irrefl other.1)
    · have hgreater : entry.1 < other.1 := (List.pairwise_cons.1 htail).1 _ hafter
      exact absurd (String.lt_trans hless hgreater) (String.lt_irrefl other.1)

/-- The entries are the keys with what is found under them. -/
theorem mem_iff_get?_eq_some (hordered : Ordered entries) {value : α} :
    (key, value) ∈ entries ↔ get? key entries = some value := by
  constructor
  · exact get?_of_mem hordered
  · intro hfound
    obtain ⟨before, after, hsplit, -⟩ := exists_split_of_get? hordered hfound
    rw [hsplit]
    exact List.mem_append_right _ List.mem_cons_self

/-- Two lists of entries are equal if the same is found under every key. -/
theorem eq_of_get?_eq {others : List (String × α)} (hordered : Ordered entries)
    (hothers : Ordered others) (hsame : ∀ key, get? key entries = get? key others) :
    entries = others := by
  have hirrefl : Std.Irrefl fun a b : String × α => a.1 < b.1 :=
    ⟨fun a => String.lt_irrefl a.1⟩
  have hantisymm : Std.Antisymm fun a b : String × α => a.1 < b.1 :=
    ⟨fun a b hless hgreater => absurd (String.lt_trans hless hgreater) (String.lt_irrefl a.1)⟩
  refine List.Pairwise.eq_of_mem_iff hordered hothers ?_
  rintro ⟨key, value⟩
  rw [mem_iff_get?_eq_some hordered, mem_iff_get?_eq_some hothers, hsame key]

/-- What was removed is found no more. -/
theorem get?_erase_self (hordered : Ordered entries) (key : String) :
    get? key (erase key entries) = none := by
  induction entries with
  | nil => rfl
  | cons entry rest ih =>
      obtain ⟨k, a⟩ := entry
      obtain ⟨habove, hrest⟩ := List.pairwise_cons.1 hordered
      by_cases hkey : k = key
      · subst hkey
        rw [erase, if_pos rfl]
        exact get?_eq_none_of_forall_lt habove
      · rw [erase, if_neg hkey, get?, if_neg hkey]
        exact ih hrest

/-- Removing a key affects no other key. -/
theorem get?_erase_of_ne {other : String} (hne : other ≠ key) (entries : List (String × α)) :
    get? other (erase key entries) = get? other entries := by
  induction entries with
  | nil => rfl
  | cons entry rest ih =>
      obtain ⟨k, a⟩ := entry
      by_cases hkey : k = key
      · subst hkey
        rw [erase, if_pos rfl, get?, if_neg (Ne.symm hne)]
      · rw [erase, if_neg hkey, get?, get?, ih]

/-- An entry after removing was there before. -/
theorem mem_of_mem_erase {entry : String × α} (hmem : entry ∈ erase key entries) :
    entry ∈ entries := by
  induction entries with
  | nil => exact hmem
  | cons first rest ih =>
      obtain ⟨k, a⟩ := first
      by_cases hkey : k = key
      · rw [erase, if_pos hkey] at hmem
        exact List.mem_cons_of_mem _ hmem
      · rw [erase, if_neg hkey] at hmem
        rcases List.mem_cons.1 hmem with rfl | hmem
        · exact List.mem_cons_self
        · exact List.mem_cons_of_mem _ (ih hmem)

/-! ## Storing again -/

/-- What is stored under a key already changes nothing. -/
theorem put_of_get? (hordered : Ordered entries) {value : α}
    (hfound : get? key entries = some value) : put key value entries = entries := by
  obtain ⟨before, after, hsplit, hput⟩ := exists_split_of_get? hordered hfound
  rw [hput, hsplit]

/-- What was removed may be stored again, and then all is as before. -/
theorem put_erase (hordered : Ordered entries) {value : α}
    (hfound : get? key entries = some value) : put key value (erase key entries) = entries := by
  have hremoved : Ordered (erase key entries) := ordered_erase hordered key
  refine eq_of_get?_eq (ordered_put hremoved key value) hordered fun other => ?_
  rw [get?_put]
  by_cases hkey : key = other
  · subst hkey
    rw [if_pos rfl, hfound]
  · rw [if_neg hkey, get?_erase_of_ne (Ne.symm hkey)]

/-- What was stored under a new key may be removed again, and then all is as before. -/
theorem erase_put (hmissing : get? key entries = none) (value : α) :
    erase key (put key value entries) = entries := by
  induction entries with
  | nil => simp [put, erase]
  | cons entry rest ih =>
      obtain ⟨k, a⟩ := entry
      have hkey : k ≠ key := by
        rintro rfl
        simp [get?] at hmissing
      rw [get?, if_neg hkey] at hmissing
      by_cases hless : key < k
      · simp [put, hless, erase]
      · simp [put, hless, hkey, erase, ih hmissing]

/-- Of two values that are stored under one key the second one stays. -/
theorem put_put (key : String) (value other : α) (entries : List (String × α)) :
    put key other (put key value entries) = put key other entries := by
  induction entries with
  | nil => simp [put]
  | cons entry rest ih =>
      obtain ⟨k, a⟩ := entry
      by_cases hless : key < k
      · simp [put, hless]
      · by_cases hkey : k = key
        · simp [put, hkey]
        · simp [put, hless, hkey, ih]

/-- Entries may be put in any order, if their keys differ. -/
theorem put_comm_of_lt {other : String} (hless : key < other) (value another : α)
    (entries : List (String × α)) :
    put key value (put other another entries) = put other another (put key value entries) := by
  have hnot : ¬ other < key := fun h => String.lt_irrefl key (String.lt_trans hless h)
  have hne : key ≠ other := fun h => String.lt_irrefl other (h ▸ hless)
  induction entries with
  | nil => simp [put, hless, hnot, hne]
  | cons entry rest ih =>
      obtain ⟨k, a⟩ := entry
      by_cases hbefore : key < k
      · -- Both keys are stored in front of `k` or in its place, so the smaller one comes first.
        have hk : k ≠ key := fun h => String.lt_irrefl key (h ▸ hbefore)
        by_cases hother : other < k
        · simp [put, hbefore, hother, hless, hnot, hne]
        · by_cases hsame : k = other
          · simp [put, hsame, hless, hnot, hne]
          · simp [put, hbefore, hother, hsame, hnot, hne]
      · by_cases hk : k = key
        · simp [put, hk, hnot, hne]
        · have hk' : k < key := Std.lt_of_le_of_ne (String.not_lt.1 hbefore) hk
          have hother : ¬ other < k := fun h => hnot (String.lt_trans h hk')
          have hsame : k ≠ other := fun h => hnot (h ▸ hk')
          simp [put, hbefore, hk, hother, hsame, ih]

/-- An entry after storing is the stored one or was there before. -/
theorem mem_put {value : α} {entry : String × α} (hmem : entry ∈ put key value entries) :
    entry = (key, value) ∨ entry ∈ entries := by
  induction entries with
  | nil => exact .inl (List.mem_singleton.1 hmem)
  | cons first rest ih =>
      obtain ⟨k, a⟩ := first
      by_cases hless : key < k
      · rw [put, if_pos hless] at hmem
        exact List.mem_cons.1 hmem
      · by_cases hkey : k = key
        · rw [put, if_neg hless, if_pos hkey] at hmem
          exact (List.mem_cons.1 hmem).imp_right (List.mem_cons_of_mem _)
        · rw [put, if_neg hless, if_neg hkey] at hmem
          rcases List.mem_cons.1 hmem with rfl | hmem
          · exact .inr List.mem_cons_self
          · exact (ih hmem).imp_right (List.mem_cons_of_mem _)

/-- Values that are stored under two keys may be stored in either order. -/
theorem put_comm {other : String} (hne : key ≠ other) (value another : α)
    (entries : List (String × α)) :
    put key value (put other another entries) = put other another (put key value entries) := by
  by_cases hless : key < other
  · exact put_comm_of_lt hless value another entries
  · have hgreater : other < key := Std.lt_of_le_of_ne (String.not_lt.1 hless) hne.symm
    exact (put_comm_of_lt hgreater another value entries).symm

/-! ## Sorted pairs -/

/-- Among entries one after the other, the first ones are searched first. -/
theorem get?_append (before after : List (String × α)) (key : String) :
    get? key (before ++ after) = (get? key before).or (get? key after) := by
  induction before with
  | nil => rfl
  | cons entry before ih =>
      obtain ⟨k, a⟩ := entry
      by_cases hkey : k = key
      · simp [get?, hkey]
      · simp [get?, hkey, ih]

/-- After the values were mapped the mapped value is found. -/
theorem get?_map (f : α → β) (key : String) (entries : List (String × α)) :
    get? key (entries.map fun entry => (entry.1, f entry.2)) = (get? key entries).map f := by
  induction entries with
  | nil => rfl
  | cons entry rest ih =>
      rw [List.map_cons, get?, get?, ih]
      split <;> rfl

/-- What is found under a key stands among the pairs. -/
theorem mem_of_get? {value : α} (hfound : get? key entries = some value) :
    (key, value) ∈ entries := by
  induction entries with
  | nil => cases hfound
  | cons entry rest ih =>
      obtain ⟨k, a⟩ := entry
      by_cases hkey : k = key
      · subst hkey
        obtain rfl : a = value := by simpa [get?] using hfound
        exact List.mem_cons_self
      · exact List.mem_cons_of_mem _ (ih (by simpa [get?, hkey] using hfound))

/-- Nothing is found under a key that no pair has. -/
theorem get?_eq_none_of_not_mem (h : key ∉ entries.map (·.1)) : get? key entries = none := by
  cases hfound : get? key entries with
  | none => rfl
  | some value => exact absurd (List.mem_map.2 ⟨(key, value), mem_of_get? hfound, rfl⟩) h

/-- Of several pairs with one key the last one is found. -/
theorem get?_ofPairs (pairs : List (String × α)) (key : String) :
    get? key (ofPairs pairs) = get? key pairs.reverse := by
  suffices hgeneral : ∀ entries : List (String × α),
      get? key (pairs.foldl (fun entries pair => put pair.1 pair.2 entries) entries) =
        (get? key pairs.reverse).or (get? key entries) by
    rw [ofPairs, hgeneral [], get?_nil, Option.or_none]
  induction pairs with
  | nil => exact fun entries => rfl
  | cons pair pairs ih =>
      intro entries
      rw [List.foldl_cons, ih, get?_put, List.reverse_cons, get?_append]
      by_cases hkey : pair.1 = key
      · simp [get?, hkey]
      · simp [get?, hkey]

/-- A pair of the entries is one of the pairs that were sorted. -/
theorem mem_of_mem_ofPairs {pairs : List (String × α)} {entry : String × α}
    (hmem : entry ∈ ofPairs pairs) : entry ∈ pairs := by
  have hfound : get? entry.1 (ofPairs pairs) = some entry.2 :=
    get?_of_mem (ordered_ofPairs pairs) hmem
  rw [get?_ofPairs] at hfound
  exact List.mem_reverse.1 (mem_of_get? hfound)

/-- A pair whose key no other one has is found after the pairs were sorted. -/
theorem get?_ofPairs_of_mem {pairs : List (String × α)} (hnodup : (pairs.map (·.1)).Nodup)
    {value : α} (hmem : (key, value) ∈ pairs) : get? key (ofPairs pairs) = some value := by
  rw [get?_ofPairs]
  refine get?_of_mem_of_nodup ?_ (List.mem_reverse.2 hmem)
  rw [List.map_reverse]
  exact List.nodup_reverse.2 hnodup

/-- Pairs whose keys do not repeat are all kept when they are sorted. -/
theorem perm_ofPairs {pairs : List (String × α)} (hnodup : (pairs.map (·.1)).Nodup) :
    (ofPairs pairs).Perm pairs := by
  refine (List.perm_ext_iff_of_nodup (ordered_ofPairs pairs).nodup_keys.of_map hnodup.of_map).2 ?_
  exact fun entry => ⟨mem_of_mem_ofPairs, fun hmem => mem_of_get? (get?_ofPairs_of_mem hnodup hmem)⟩

/-- A key above all others is stored behind them. -/
theorem put_eq_append {value : α} (habove : ∀ entry ∈ entries, entry.1 < key) :
    put key value entries = entries ++ [(key, value)] := by
  induction entries with
  | nil => rfl
  | cons entry rest ih =>
      obtain ⟨k, a⟩ := entry
      have hless : k < key := habove (k, a) List.mem_cons_self
      have hnot : ¬ key < k := fun h => String.lt_irrefl k (String.lt_trans hless h)
      have hne : k ≠ key := fun h => String.lt_irrefl key (h ▸ hless)
      rw [put, if_neg hnot, if_neg hne, ih fun entry hmem =>
        habove entry (List.mem_cons_of_mem _ hmem), List.cons_append]

/-- Entries in order are sorted already. -/
theorem ofPairs_eq_self (hordered : Ordered entries) : ofPairs entries = entries := by
  suffices hgeneral : ∀ before : List (String × α), Ordered (before ++ entries) →
      entries.foldl (fun entries pair => put pair.1 pair.2 entries) before = before ++ entries from
    hgeneral [] hordered
  clear hordered
  induction entries with
  | nil => exact fun before _ => (List.append_nil before).symm
  | cons entry rest ih =>
      intro before hordered
      have habove : ∀ other ∈ before, other.1 < entry.1 := fun other hmem =>
        (List.pairwise_append.1 hordered).2.2 other hmem entry List.mem_cons_self
      rw [List.foldl_cons, put_eq_append habove, ih]
      · rw [List.append_assoc, List.singleton_append]
      · rwa [List.append_assoc, List.singleton_append]

/-- Under a key stands at most one entry, if keys do not repeat. -/
theorem filter_eq_toList_get? (hnodup : (entries.map (·.1)).Nodup) (key : String) :
    entries.filter (·.1 = key) = (get? key entries).toList.map (key, ·) := by
  induction entries with
  | nil => rfl
  | cons entry rest ih =>
      obtain ⟨k, a⟩ := entry
      obtain ⟨hnew, hrest⟩ := List.nodup_cons.1 hnodup
      by_cases hkey : k = key
      · subst hkey
        have hnone : rest.filter (·.1 = k) = [] := by
          rw [ih hrest, get?_eq_none_of_not_mem hnew]
          rfl
        simp [get?, hnone]
      · simp [get?, hkey, ih hrest]

end ApiCatalog.Keyed
