import ApiCatalog.Announcement
import ApiCatalog.Proofs.Text.Pieces
import Mathlib.Data.List.TakeWhile

/-!
# The parts of a name

A name is cut at its slashes, and only the first two pieces count. `Descriptor.isSub_iff` says that
a descriptor is that of a subresource exactly when its name has a slash, and
`Descriptor.resourceName_eq` that the resource is named by what stands before the first one.
`Text.before_append_afterFirst` puts a name together again from what stands before and after it. The
text for a group and a version is cut in the same way, and `GroupVersion.ofText_spec` says what it
stands for.
-/

namespace ApiCatalog

namespace Text

/-- The first piece reaches up to the first separator. -/
theorem head?_pieces (separator : Char) (text : List Char) :
    (pieces separator text).head? = some (text.takeWhile (· ≠ separator)) := by
  induction text with
  | nil => rfl
  | cons c rest ih =>
      by_cases h : c = separator
      · simp [h, pieces_cons_self]
      · simp [pieces_cons_of_ne h, ih, h]

/-- There is a second piece exactly when there is a separator. -/
theorem tail_pieces_ne_nil_iff {separator : Char} {text : List Char} :
    (pieces separator text).tail ≠ [] ↔ separator ∈ text := by
  induction text with
  | nil => simp [pieces]
  | cons c rest ih =>
      by_cases h : c = separator
      · simp [h, pieces_cons_self, pieces_ne_nil]
      · rw [pieces_cons_of_ne h, List.tail_modifyHead, ih, List.mem_cons, or_iff_right (Ne.symm h)]

/-- What stands before the first separator, the separator and what follows it are the text. -/
theorem before_append_afterFirst {separator : Char} {text : String}
    (hmem : separator ∈ text.toList) :
    String.ofList (text.toList.takeWhile (· ≠ separator)) ++ String.singleton separator ++
      (afterFirst separator text).getD text = text := by
  have hparts := List.takeWhile_append_dropWhile (p := (· ≠ separator)) (l := text.toList)
  unfold afterFirst
  cases hdrop : text.toList.dropWhile (· ≠ separator) with
  | nil =>
      rw [List.dropWhile_eq_nil_iff] at hdrop
      simpa using hdrop separator hmem
  | cons c rest =>
      have hc := List.head?_dropWhile_not (· ≠ separator) text.toList
      rw [hdrop] at hc hparts
      obtain rfl : c = separator := by simpa using hc
      rw [← String.toList_inj]
      simpa using hparts

end Text

/-- A name is split into the first piece and the second, if there is one. -/
theorem nameParts_eq (name : String) :
    nameParts name =
      (String.ofList (name.toList.takeWhile (· ≠ '/')),
        ((Text.pieces '/' name.toList).tail.map String.ofList).head?) := by
  have hhead := Text.head?_pieces '/' name.toList
  cases hpieces : Text.pieces '/' name.toList with
  | nil => exact absurd hpieces (Text.pieces_ne_nil _ _)
  | cons piece others =>
      rw [hpieces, List.head?_cons, Option.some.injEq] at hhead
      simp [nameParts, Text.split, hpieces, hhead]

namespace GroupVersion

/-- Without a slash a text is a version of the core group. -/
theorem ofText_of_not_mem {text : String} (htext : text ≠ "") (hslash : '/' ∉ text.toList) :
    ofText text = ⟨"", text⟩ := by
  rw [ofText, if_neg htext, Text.split, Text.pieces_of_not_mem hslash, List.map_singleton,
    String.ofList_toList]

/-- Around the first slash stand the group and the version, and the version ends at the next
slash. -/
theorem ofText_append {group version : String} (hgroup : '/' ∉ group.toList)
    (hversion : '/' ∉ version.toList) (rest : List Char)
    (hrest : rest = [] ∨ rest.head? = some '/') :
    ofText (group ++ "/" ++ version ++ String.ofList rest) = ⟨group, version⟩ := by
  have hlist : (group ++ "/" ++ version ++ String.ofList rest).toList =
      group.toList ++ '/' :: (version.toList ++ rest) := by simp
  have hne : group ++ "/" ++ version ++ String.ofList rest ≠ "" := fun h => by
    rw [h] at hlist
    simp at hlist
  rw [ofText, if_neg hne, Text.split, hlist, Text.pieces_append, Text.pieces_of_not_mem hgroup]
  have htail : ∃ others, Text.pieces '/' (version.toList ++ rest) = version.toList :: others := by
    rcases hrest with rfl | hrest
    · exact ⟨[], by rw [List.append_nil, Text.pieces_of_not_mem hversion]⟩
    · obtain ⟨others, rfl⟩ := List.head?_eq_some_iff.1 hrest
      exact ⟨_, by rw [Text.pieces_append, Text.pieces_of_not_mem hversion]; rfl⟩
  obtain ⟨others, hothers⟩ := htail
  rw [hothers]
  simp

/-- The group and the version that a text stands for. The empty text stands for the first version of
the core group. Any other text stands for a version of the core group if it has no slash. If it has
one, the group stands before the first slash, and the version after it, up to the next slash or to
the end. -/
theorem ofText_spec :
    ofText "" = ⟨"", "v1"⟩ ∧
    (∀ version : String, version ≠ "" → '/' ∉ version.toList → ofText version = ⟨"", version⟩) ∧
    ∀ group version : String, '/' ∉ group.toList → '/' ∉ version.toList →
      ofText (group ++ "/" ++ version) = ⟨group, version⟩ ∧
      ∀ rest : String, ofText (group ++ "/" ++ version ++ "/" ++ rest) = ⟨group, version⟩ := by
  refine ⟨rfl, fun version => ofText_of_not_mem, fun group version hgroup hversion => ⟨?_, ?_⟩⟩
  · have h := ofText_append hgroup hversion [] (.inl rfl)
    rwa [String.ofList_nil, String.append_empty] at h
  · intro rest
    have h := ofText_append hgroup hversion ('/' :: rest.toList) (.inr rfl)
    rwa [String.ofList_cons, String.ofList_toList, ← String.append_assoc] at h

end GroupVersion

namespace Descriptor

/-- The name of the resource is what stands before the first slash. -/
theorem resourceName_eq (d : Descriptor) :
    d.resourceName = String.ofList (d.name.toList.takeWhile (· ≠ '/')) := by
  rw [resourceName, nameParts_eq]

/-- A descriptor is that of a subresource exactly when its name has a slash. -/
theorem isSub_iff {d : Descriptor} : d.isSub = true ↔ '/' ∈ d.name.toList := by
  rw [isSub, nameParts_eq, ← Text.tail_pieces_ne_nil_iff]
  cases (Text.pieces '/' d.name.toList).tail <;> simp

end Descriptor

end ApiCatalog
