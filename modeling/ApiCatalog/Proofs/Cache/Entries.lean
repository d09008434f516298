import ApiCatalog.Cache
import ApiCatalog.Proofs.Announcement
import ApiCatalog.Proofs.Text.Bytes

/-!
# Stored entries

What is read from the file of an entry is the entry, unless its document is too deep for the reader
(`Entry.ofContent?_text`). Whatever document it has, nothing but binary64 numbers of it can be read
differently (`Entry.coarse_of_ofContent?_text`). The file of a context is a plain name, which leads
to a direct child of the directory of the cache (`slash_not_mem_fileName`, `fileName_ne_dots`), and
it is never that of a temporary file (`not_isTemporary_fileName`).
-/

namespace ApiCatalog.Cache

open Json (spelledFields)

/-- Arrays and objects of a document may stand this deep, so that an entry can be read with the
snapshot and the document in it. -/
def documentDepth : Nat := Written.depthLimit - 2

namespace Entry

/-- The members of the JSON form. -/
def members (e : Entry) : List (String × Json) :=
  [("snapshot", e.snapshot.toJson), ("created_at", .ofNat e.createdAt)]

/-- An entry is decoded from the text that spells it, with what its snapshot and its time are read
back as. -/
theorem decode_spelled (e : Entry) :
    decode e.toJson.spelled =
      (Snapshot.decode (Written.depthLimit - 1) e.snapshot.toJson.spelled).bind fun snapshot =>
        (Json.ofNat e.createdAt).spelled.natural?.bind fun createdAt =>
          some ⟨snapshot, createdAt⟩ := by
  have hfields : e.toJson.spelled.fields? = some (spelledFields e.members) :=
    Written.fields?_object e.members
  have hnodup : (e.members.map (·.1)).Nodup := by simp [members]
  have hhas := Written.has_spelledFields hnodup
  have hsnapshot : Written.Has (spelledFields e.members) "snapshot" (some e.snapshot.toJson) :=
    hhas "snapshot"
  have htime : Written.Has (spelledFields e.members) "created_at" (some (.ofNat e.createdAt)) :=
    hhas "created_at"
  rw [decode]
  · simp only [hfields, Option.bind_eq_bind, Option.bind_some, hsnapshot.required, htime.required]
  · intro first second h
    cases h

/-- The file of an entry holds what the text of the entry spells. -/
theorem ofContent?_toUTF8 (e : Entry) : ofContent? e.text.toUTF8 = decode e.toJson.spelled := by
  have hread : Written.read e.text = some e.toJson.spelled := Json.read_compact e.toJson
  rw [ofContent?, Written.readBytes, Text.fromUTF8?_toUTF8]
  show (Written.read e.text).bind decode = _
  rw [hread, Option.bind_some]

/-- The file of an entry holds the entry, if its document stands low enough. -/
theorem ofContent?_text {e : Entry} (hsnapshot : e.snapshot.Storable)
    (htime : e.createdAt < NumberLiteral.wordLimit) :
    ofContent? e.text.toUTF8 =
      if e.snapshot.openapi.depth ≤ documentDepth then some e else none := by
  have hdecode : Snapshot.decode (Written.depthLimit - 1) e.snapshot.toJson.spelled =
      if e.snapshot.openapi.depth ≤ documentDepth then some e.snapshot else none :=
    Snapshot.decode_toJson hsnapshot (Written.depthLimit - 1)
  rw [ofContent?_toUTF8, decode_spelled, hdecode, Written.natural?_ofNat htime]
  by_cases hdepth : e.snapshot.openapi.depth ≤ documentDepth <;> simp [hdepth]

/-- If anything, the file of an entry holds its snapshot, if the numbers of its document are read
back. -/
theorem snapshot_of_ofContent?_text {e read : Entry} (hsnapshot : e.snapshot.Storable)
    (h : ofContent? e.text.toUTF8 = some read) : read.snapshot = e.snapshot := by
  rw [ofContent?_toUTF8, decode_spelled, Snapshot.decode_toJson hsnapshot] at h
  simp only [Option.bind_eq_some_iff, Option.ite_none_right_eq_some] at h
  obtain ⟨snapshot, ⟨-, hsnapshot⟩, createdAt, -, hread⟩ := h
  rw [← Option.some.inj hread]
  exact (Option.some.inj hsnapshot).symm

/-- The file of an entry holds the entry up to the binary64 numbers of its document, if anything. -/
theorem coarse_of_ofContent?_text {e read : Entry} (hlegible : e.snapshot.openapi.Legible)
    (h : ofContent? e.text.toUTF8 = some read) : read.snapshot.coarse = e.snapshot.coarse := by
  rw [ofContent?_toUTF8, decode_spelled] at h
  simp only [Option.bind_eq_some_iff] at h
  obtain ⟨snapshot, hsnapshot, createdAt, -, hread⟩ := h
  rw [← Option.some.inj hread]
  exact Snapshot.coarse_of_decode_spelled hlegible hsnapshot

end Entry

/-! ## The names of files -/

/-- No character becomes one that is not kept. -/
theorem fileChar_ne {c d : Char} (hd : Text.isAlphanumeric d = false ∧ d ≠ '-' ∧ d ≠ '_') :
    fileChar c ≠ d := by
  unfold fileChar
  split
  next hkept =>
    rintro rfl
    simp [hd] at hkept
  next => exact fun h => hd.2.2 h.symm

/-- The name of a file is made of the kept characters of the context and of the ending. -/
theorem toList_fileName (context : String) :
    (fileName context).toList = context.toList.map fileChar ++ ['.', 'j', 's', 'o', 'n'] := by
  rw [fileName, String.toList_append, String.toList_ofList]
  rfl

/-- The name of a file is one segment of a path. -/
theorem slash_not_mem_fileName (context : String) : '/' ∉ (fileName context).toList := by
  rw [toList_fileName, List.mem_append, List.mem_map]
  rintro (⟨c, -, hc⟩ | hsuffix)
  · exact fileChar_ne (by decide) hc
  · revert hsuffix
    decide

/-- The name of a file has a letter, so it is not empty and not made of dots. -/
theorem mem_fileName (context : String) : 'j' ∈ (fileName context).toList := by
  rw [toList_fileName]
  exact List.mem_append_right _ (by decide)

/-- The name of a file leads to a place below its directory. -/
theorem fileName_ne_dots (context : String) :
    fileName context ≠ "" ∧ fileName context ≠ "." ∧ fileName context ≠ ".." := by
  have hmem := mem_fileName context
  refine ⟨?_, ?_, ?_⟩ <;>
    · intro h
      rw [h] at hmem
      revert hmem
      decide

/-- The name is one that temporary files have. -/
def IsTemporary (name : String) : Prop := ['.', 't', 'm', 'p'] <+: name.toList

/-- Temporary files have names of their own. -/
theorem isTemporary_temporaryName (number : Nat) : IsTemporary (temporaryName number) := by
  rw [IsTemporary, temporaryName, String.toList_append]
  exact List.prefix_append _ _

/-- A temporary file is not the file of a context. -/
theorem not_isTemporary_fileName (context : String) : ¬ IsTemporary (fileName context) := by
  rw [IsTemporary, toList_fileName]
  cases context.toList with
  | nil => decide
  | cons c rest =>
      rw [List.map_cons, List.cons_append, List.cons_prefix_cons]
      exact fun h => fileChar_ne (by decide) h.1.symm

/-- Two contexts have one path exactly if they have one file name. -/
theorem path_eq_path_iff {base : List String} {first second : String} :
    path base first = path base second ↔ fileName first = fileName second := by
  rw [path, path, List.append_cancel_left_eq, List.cons.injEq, and_iff_left rfl]

end ApiCatalog.Cache
