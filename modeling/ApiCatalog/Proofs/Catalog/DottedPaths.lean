import ApiCatalog.Catalog.Selection
import ApiCatalog.Proofs.Text.Pieces
import Mathlib.Data.List.Basic

/-!
# Dotted paths

A field path is given as a text with dots, and shown that way in messages. `Dotted` says, without
cutting anything, which segments such a text has, and `Selection.segments` finds exactly these
(`dotted_iff`). The parts of a joined path are read one by one (`segments_join`). So a path is read
back if all its parts are segments, and what was read from a text is read again from its joined form
(`dotted_path_read_back`).
-/

namespace ApiCatalog

namespace Selection

/-- A text that can be a segment of a dotted path: it is not empty and has no dot. -/
def IsSegment (text : String) : Prop := text ≠ "" ∧ '.' ∉ text.toList

instance (text : String) : Decidable (IsSegment text) := inferInstanceAs (Decidable (_ ∧ _))

/-- A text has the segments of a path, in this order: it is empty and has none, it is a segment, or
it consists of two such texts with a dot between them. -/
inductive Dotted : String → List String → Prop where
  | empty : Dotted "" []
  | segment {text : String} : IsSegment text → Dotted text [text]
  | dot {text other : String} {path following : List String} :
      Dotted text path → Dotted other following → Dotted (text ++ "." ++ other) (path ++ following)

/-- The text without characters has no segments. -/
theorem segments_empty : segments "" = [] := rfl

/-- A segment is read as itself. -/
theorem segments_of_isSegment {text : String} (h : IsSegment text) : segments text = [text] := by
  rw [segments, Text.split, Text.pieces_of_not_mem h.2]
  simpa using h.1

/-- The segments on both sides of a dot are read one after the other. -/
theorem segments_append (text other : String) :
    segments (text ++ "." ++ other) = segments text ++ segments other := by
  have hchars : (text ++ "." ++ other).toList = text.toList ++ '.' :: other.toList := by simp
  rw [segments, Text.split, hchars, Text.pieces_append, List.map_append, List.filter_append]
  rfl

/-- What is read from a text are segments. -/
theorem isSegment_of_mem_segments {text segment : String} (h : segment ∈ segments text) :
    IsSegment segment := by
  obtain ⟨hmem, hnonempty⟩ := List.mem_filter.1 h
  obtain ⟨piece, hpiece, rfl⟩ := List.mem_map.1 hmem
  refine ⟨by simpa using hnonempty, ?_⟩
  rw [String.toList_ofList]
  exact Text.not_mem_of_mem_pieces hpiece

/-- The segments have all characters but the dots, in their order. -/
theorem flatMap_toList_segments (text : String) :
    (segments text).flatMap String.toList = text.toList.filter (· ≠ '.') := by
  have hkept : segments text =
      ((Text.pieces '.' text.toList).filter (· ≠ [])).map String.ofList := by
    rw [segments, Text.split, List.filter_map]
    congr 2
    funext piece
    simp
  rw [hkept, List.flatMap_map, ← Text.flatten_pieces, ← List.flatten_filter_ne_nil]
  simp [List.flatMap]

/-- The segments of a joined path are those of its parts. -/
theorem segments_join (path : List String) :
    segments (Text.join "." path) = path.flatMap segments := by
  induction path with
  | nil => exact segments_empty
  | cons part rest ih =>
      cases rest with
      | nil => simp [Text.join]
      | cons next rest =>
          rw [Text.join_cons_cons, segments_append, ih]
          rfl

/-- Segments are read back from what is joined of them. -/
theorem segments_join_of_isSegment {path : List String} (h : ∀ part ∈ path, IsSegment part) :
    segments (Text.join "." path) = path := by
  rw [segments_join, List.flatMap_congr fun part hmem => segments_of_isSegment (h part hmem)]
  exact List.flatMap_singleton' path

/-- Every text has the segments that are read from it. -/
theorem dotted_segments (text : String) : Dotted text (segments text) := by
  -- Wherever there is a dot, both sides of it are shorter than the text.
  by_cases hdot : '.' ∈ text.toList
  · obtain ⟨front, back, hchars⟩ := List.append_of_mem hdot
    have htext : text = String.ofList front ++ "." ++ String.ofList back := by
      rw [← String.toList_inj, hchars]
      simp
    rw [htext, segments_append]
    exact .dot (dotted_segments _) (dotted_segments _)
  · by_cases hempty : text = ""
    · rw [hempty]
      exact .empty
    · have hsegment : IsSegment text := ⟨hempty, hdot⟩
      rw [segments_of_isSegment hsegment]
      exact .segment hsegment
termination_by text.toList.length
decreasing_by all_goals simp [hchars]; try omega

/-- The segments of a text are those that are read from it, and no others. -/
theorem dotted_iff {text : String} {path : List String} :
    Dotted text path ↔ path = segments text := by
  constructor
  · intro h
    induction h with
    | empty => exact segments_empty.symm
    | segment hsegment => exact (segments_of_isSegment hsegment).symm
    | dot _ _ hfront hback => rw [segments_append, ← hfront, ← hback]
  · rintro rfl
    exact dotted_segments text

/-- A path is read back from its joined form exactly when all its parts are segments. What is read
from any text is read again from its joined form. It is the only path whose segments the text has,
in their order, and the characters of its segments are those of the text but for the dots. -/
theorem dotted_path_read_back :
    (∀ path : List String, withDottedField (Text.join "." path) = .withField path ↔
      ∀ part ∈ path, IsSegment part) ∧
    ∀ text : String, ∃ path, withDottedField text = .withField path ∧
      withDottedField (Text.join "." path) = withDottedField text ∧
      (∀ part ∈ path, IsSegment part) ∧
      (∀ other, Dotted text other ↔ other = path) ∧
      path.flatMap String.toList = text.toList.filter (· ≠ '.') := by
  have hback : ∀ path : List String, (∀ part ∈ path, IsSegment part) →
      withDottedField (Text.join "." path) = .withField path := fun path h =>
    congrArg Selection.withField (segments_join_of_isSegment h)
  have hsegment : ∀ text : String, ∀ part ∈ segments text, IsSegment part := fun _ _ hmem =>
    isSegment_of_mem_segments hmem
  constructor
  · intro path
    refine ⟨fun h => ?_, hback path⟩
    rw [← withField.inj h]
    exact hsegment _
  · intro text
    exact ⟨segments text, rfl, hback _ (hsegment text), hsegment text, fun _ => dotted_iff,
      flatMap_toList_segments text⟩

/-- A text with dots at both ends and two of them in a row is read as its joined form is, and a part
with a dot is not read back. -/
theorem replicas_read_back :
    withDottedField ".spec..replicas." = .withField ["spec", "replicas"] ∧
      withDottedField "spec.replicas" = withDottedField ".spec..replicas." ∧
      withDottedField (Text.join "." ["spec.replicas"]) ≠ .withField ["spec.replicas"] := by
  obtain ⟨hparts, htexts⟩ := dotted_path_read_back
  obtain ⟨path, hpath, hagain, -, -, -⟩ := htexts ".spec..replicas."
  obtain rfl : path = ["spec", "replicas"] := (withField.inj hpath).symm.trans (by decide)
  refine ⟨hpath, hagain, ?_⟩
  rw [Ne, hparts]
  decide

end Selection

end ApiCatalog
