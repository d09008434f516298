import ApiCatalog.Text.Pieces

/-!
# Pieces put together again

`Text.pieces` cuts a text as the library's `List.splitOn` does (`pieces_eq_splitOn`), and
`Text.join` puts parts together as its intercalation does (`join_eq_intercalate`). So texts without
separators are found again in what is joined of them (`pieces_intercalate`), a separator between two
texts keeps their pieces apart (`pieces_append`), and all that is lost by cutting are the separators
(`flatten_pieces`).
-/

namespace ApiCatalog.Text

variable (separator : Char)

/-- A separator in front leaves an empty piece there. -/
theorem pieces_cons_self (rest : List Char) :
    pieces separator (separator :: rest) = [] :: pieces separator rest := by
  rw [pieces, if_pos rfl]

variable {separator}

/-- Any other character in front belongs to the first piece. -/
theorem pieces_cons_of_ne {c : Char} (h : c ≠ separator) (rest : List Char) :
    pieces separator (c :: rest) = (pieces separator rest).modifyHead (c :: ·) := by
  rw [pieces, if_neg h]
  cases hpieces : pieces separator rest with
  | nil => exact absurd hpieces (pieces_ne_nil separator rest)
  | cons piece others => rfl

variable (separator)

/-- Texts are cut as the library cuts lists. -/
theorem pieces_eq_splitOn (text : List Char) : pieces separator text = text.splitOn separator := by
  induction text with
  | nil => rfl
  | cons c rest ih =>
      rw [List.splitOn_eq_splitOnP] at ih ⊢
      rw [List.splitOnP_cons_eq_if_modifyHead, ← ih]
      by_cases h : c = separator
      · rw [h, pieces_cons_self, if_pos BEq.rfl]
      · rw [pieces_cons_of_ne h, if_neg (by simpa using h)]

/-- Around a separator the pieces are those of both sides. -/
theorem pieces_append (text other : List Char) :
    pieces separator (text ++ separator :: other) =
      pieces separator text ++ pieces separator other := by
  simp only [pieces_eq_splitOn, List.splitOn_eq_splitOnP]
  exact List.splitOnP_append_cons text other BEq.rfl

/-- The pieces have all characters but the separators, in their order. -/
theorem flatten_pieces (text : List Char) :
    (pieces separator text).flatten = text.filter (· ≠ separator) := by
  induction text with
  | nil => rfl
  | cons c rest ih =>
      by_cases h : c = separator
      · rw [h, pieces_cons_self, List.flatten_cons, List.nil_append, ih]
        simp
      · obtain ⟨piece, others, hpieces⟩ :=
          List.exists_cons_of_ne_nil (pieces_ne_nil separator rest)
        rw [pieces_cons_of_ne h, hpieces, List.modifyHead_cons, List.flatten_cons,
          List.cons_append, ← List.flatten_cons, ← hpieces, ih]
        simp [h]

variable {separator}

/-- No piece has a separator. -/
theorem not_mem_of_mem_pieces {text piece : List Char} (h : piece ∈ pieces separator text) :
    separator ∉ piece := by
  intro hmem
  have hfilter : separator ∈ text.filter (· ≠ separator) :=
    flatten_pieces separator text ▸ List.mem_flatten_of_mem h hmem
  simp at hfilter

/-- A text without separators is one piece. -/
theorem pieces_of_not_mem {text : List Char} (h : separator ∉ text) :
    pieces separator text = [text] := by
  rw [pieces_eq_splitOn, List.splitOn_eq_singleton h]

/-- Texts without separators are the pieces of what is joined of them. -/
theorem pieces_intercalate {parts : List (List Char)} (hparts : parts ≠ [])
    (hfree : ∀ part ∈ parts, separator ∉ part) :
    pieces separator (List.intercalate [separator] parts) = parts := by
  rw [pieces_eq_splitOn, List.splitOn_intercalate separator hfree hparts]

/-- A joined text is made of the separator and of what is joined. -/
theorem mem_intercalate {α : Type} {x : α} {separator : List α} {parts : List (List α)}
    (h : x ∈ List.intercalate separator parts) : x ∈ separator ∨ ∃ part ∈ parts, x ∈ part := by
  induction parts with
  | nil => simp at h
  | cons part parts ih =>
      cases parts with
      | nil => exact .inr ⟨part, List.mem_cons_self, by simpa using h⟩
      | cons next parts =>
          rw [List.intercalate_cons_cons, List.mem_append, List.mem_append] at h
          rcases h with (h | h) | h
          · exact .inr ⟨part, List.mem_cons_self, h⟩
          · exact .inl h
          · refine (ih h).imp_right ?_
            rintro ⟨other, hmem, hx⟩
            exact ⟨other, List.mem_cons_of_mem part hmem, hx⟩

/-- What is joined stands in the joined text. -/
theorem infix_intercalate {α : Type} (separator : List α) {part : List α} {parts : List (List α)}
    (h : part ∈ parts) : part <:+: List.intercalate separator parts := by
  induction parts with
  | nil => exact absurd h List.not_mem_nil
  | cons first parts ih =>
      cases parts with
      | nil => simp [List.mem_singleton.1 h, List.infix_rfl]
      | cons next parts =>
          rw [List.intercalate_cons_cons]
          rcases List.mem_cons.1 h with rfl | h
          · exact ⟨[], separator ++ List.intercalate separator (next :: parts), by simp⟩
          · exact (ih h).trans (List.suffix_append _ _).isInfix

/-- Between the first part and the others stands the separator. -/
theorem join_cons_cons (separator part next : String) (rest : List String) :
    join separator (part :: next :: rest) = part ++ separator ++ join separator (next :: rest) :=
  rfl

/-- Parts with a separator between neighbours are the library's intercalation. -/
theorem join_eq_intercalate (separator : String) (parts : List String) :
    join separator parts = separator.intercalate parts := by
  induction parts with
  | nil => rfl
  | cons part rest ih =>
      cases rest with
      | nil => rw [join, String.intercalate_singleton]
      | cons next rest =>
          rw [join_cons_cons, ih, String.intercalate_cons_cons]

end ApiCatalog.Text
