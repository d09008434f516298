import ApiCatalog.Proofs.Catalog.Entries
import ApiCatalog.Proofs.Text.Bytes

/-!
# The order of the resources in a catalog

A catalog of resources lists them by their names, and those of one name in the order in which they
were added. This is a stable sort (`toList_ofList`), since a list that is sorted by keys is known by
what it has under each key (`eq_of_filter_eq`).
-/

namespace ApiCatalog

section Keys

variable {α : Type} (key : α → String)

/-- Two lists that are sorted by a key and agree under every key are equal. -/
theorem eq_of_filter_eq {entries others : List α}
    (hentries : entries.Pairwise (key · ≤ key ·)) (hothers : others.Pairwise (key · ≤ key ·))
    (hsame : ∀ k, entries.filter (key · = k) = others.filter (key · = k)) : entries = others := by
  induction entries generalizing others with
  | nil =>
      cases others with
      | nil => rfl
      | cons b others => simpa using hsame (key b)
  | cons a entries ih =>
      cases others with
      | nil => simpa using hsame (key a)
      | cons b others =>
          -- Each first element stands somewhere in the other list, behind the other first one.
          have hfirst : key a = key b := by
            have ha : a ∈ (b :: others).filter (key · = key a) := by
              rw [← hsame]
              simp
            have hb : b ∈ (a :: entries).filter (key · = key b) := by
              rw [hsame]
              simp
            have hle : key a ≤ key b := by
              rcases List.mem_cons.1 (List.mem_of_mem_filter hb) with rfl | hb
              · exact String.le_refl _
              · exact (List.pairwise_cons.1 hentries).1 b hb
            have hge : key b ≤ key a := by
              rcases List.mem_cons.1 (List.mem_of_mem_filter ha) with rfl | ha
              · exact String.le_refl _
              · exact (List.pairwise_cons.1 hothers).1 a ha
            exact String.le_antisymm hle hge
          have hcons :
              a :: entries.filter (key · = key a) = b :: others.filter (key · = key a) := by
            simpa [hfirst] using hsame (key a)
          obtain ⟨rfl, -⟩ := List.cons.inj hcons
          have hrest : ∀ k, entries.filter (key · = k) = others.filter (key · = k) := by
            intro k
            have h := hsame k
            by_cases hk : key a = k
            · simpa [hk] using h
            · simpa [hk] using h
          rw [ih (List.pairwise_cons.1 hentries).2 (List.pairwise_cons.1 hothers).2 hrest]

/-- The elements compare by the bytes of their keys. -/
def bytesLe (a b : α) : Bool := Text.bytes (key a) ≤ Text.bytes (key b)

/-- Entries are compared as their keys are. -/
@[simp] theorem bytesLe_eq_true_iff {a b : α} : bytesLe key a b = true ↔ key a ≤ key b := by
  rw [bytesLe, decide_eq_true_eq, Text.bytes_le_iff]

/-- The order of the entries is transitive. -/
theorem bytesLe_trans (a b c : α) (hab : bytesLe key a b = true) (hbc : bytesLe key b c = true) :
    bytesLe key a c = true := by
  rw [bytesLe_eq_true_iff] at *
  exact String.le_trans hab hbc

/-- Any two entries can be compared. -/
theorem bytesLe_total (a b : α) : (bytesLe key a b || bytesLe key b a) = true := by
  rw [Bool.or_eq_true, bytesLe_eq_true_iff, bytesLe_eq_true_iff]
  exact String.le_total _ _

/-- The keys of sorted entries ascend. -/
theorem pairwise_mergeSort_bytesLe (entries : List α) :
    (entries.mergeSort (bytesLe key)).Pairwise (key · ≤ key ·) := by
  refine (List.pairwise_mergeSort (bytesLe_trans key) (bytesLe_total key) entries).imp ?_
  exact (bytesLe_eq_true_iff key).1

/-- Sorting leaves the elements of one key in their order. -/
theorem filter_mergeSort_bytesLe (entries : List α) (k : String) :
    (entries.mergeSort (bytesLe key)).filter (key · = k) = entries.filter (key · = k) := by
  have hperm := List.mergeSort_perm entries (bytesLe key)
  have hequal : (entries.filter (key · = k)).Pairwise fun a b => bytesLe key a b = true := by
    refine List.pairwise_of_forall_mem_list fun a ha b hb => ?_
    have ha := of_decide_eq_true (List.mem_filter.1 ha).2
    have hb := of_decide_eq_true (List.mem_filter.1 hb).2
    have heq : key a = key b := ha.trans hb.symm
    exact (bytesLe_eq_true_iff key).2 (heq ▸ String.le_refl (key a))
  have hsub := (List.sublist_mergeSort (bytesLe_trans key) (bytesLe_total key) hequal
    List.filter_sublist).filter (key · = k)
  simp only [List.filter_filter, Bool.and_self] at hsub
  exact (hsub.eq_of_length (hperm.filter _).length_eq.symm).symm

/-- A list that is sorted by keys is the stable sort of every list that agrees with it under each
key. -/
theorem eq_mergeSort_of_filter_eq {entries others : List α}
    (hsorted : entries.Pairwise (key · ≤ key ·))
    (hsame : ∀ k, entries.filter (key · = k) = others.filter (key · = k)) :
    entries = others.mergeSort (bytesLe key) := by
  refine eq_of_filter_eq key hsorted (pairwise_mergeSort_bytesLe key others) fun k => ?_
  rw [hsame, filter_mergeSort_bytesLe]

end Keys

namespace Catalog

variable (c : Catalog)

/-- The names of a catalog, in whatever order they are met, are in order when they are sorted. -/
theorem mergeSort_names {order : List String} (horder : order.Perm c.names) :
    order.mergeSort (bytesLe id) = c.names := by
  have hnames : c.names.Pairwise (· ≤ ·) :=
    (List.pairwise_map.2 c.ordered : c.names.Pairwise (· < ·)).imp fun h =>
      String.not_lt.1 fun hgreater => String.lt_irrefl _ (String.lt_trans h hgreater)
  refine List.Perm.eq_of_pairwise (fun a b _ _ => String.le_antisymm)
    (pairwise_mergeSort_bytesLe id order) hnames ?_
  exact (List.mergeSort_perm order _).trans horder

/-- The resources stand by their names, if they bear the names under which they stand. -/
theorem pairwise_toList (hnamed : ∀ name, ∀ r ∈ (c.get? name).getD [], r.name = name) :
    c.toList.Pairwise (·.name ≤ ·.name) := by
  rw [toList_eq_flatMap_get?]
  have hnames : c.names.Pairwise (· < ·) := List.pairwise_map.2 c.ordered
  refine List.pairwise_flatMap.2 ⟨fun name _ => ?_, hnames.imp fun hless r hr q hq => ?_⟩
  · refine List.pairwise_of_forall_mem_list fun r hr q hq => ?_
    have heq : r.name = q.name := (hnamed name r hr).trans (hnamed name q hq).symm
    exact heq ▸ String.le_refl r.name
  · rw [hnamed _ r hr, hnamed _ q hq]
    exact String.not_lt.1 fun hgreater => String.lt_irrefl _ (String.lt_trans hless hgreater)

/-- The resources of a name are those of all that bear it. -/
theorem filter_toList (hnamed : ∀ name, ∀ r ∈ (c.get? name).getD [], r.name = name)
    (name : String) : c.toList.filter (·.name = name) = (c.get? name).getD [] := by
  rw [toList_eq_flatMap_get?, filter_flatMap_get? c hnamed (nodup_names c)]
  split
  next => rfl
  next hname =>
    rw [mem_names_iff, not_not] at hname
    rw [hname, Option.getD_none]

/-- The resources of a list stand in its catalog. -/
theorem name_of_mem_get?_ofList (resources : List Resource) (name : String) :
    ∀ r ∈ ((ofList resources).get? name).getD [], r.name = name := by
  intro r hr
  rw [get?_ofList, getD_entryOf] at hr
  exact of_decide_eq_true (List.mem_filter.1 hr).2

/-- The catalog of a list of resources has them sorted by their names, and those of one name in
their order. -/
theorem toList_ofList (resources : List Resource) :
    (ofList resources).toList = resources.mergeSort (bytesLe Resource.name) := by
  have hnamed := name_of_mem_get?_ofList resources
  refine eq_mergeSort_of_filter_eq Resource.name (pairwise_toList _ hnamed) fun name => ?_
  rw [filter_toList _ hnamed, get?_ofList, getD_entryOf]

end Catalog

end ApiCatalog
