import ApiCatalog.Proofs.Text.Digits
import ApiCatalog.Proofs.Text.Pieces
import ApiCatalog.Report.Grid
import Mathlib.Data.List.Forall2

/-!
# What a framed table shows

`ShownAs` says which cells are shown for a row: long lists are cut, by the position of their column,
and everything else is as it was (`shownAs_shownCells`). `DrawnAs` says where these cells stand in
the text, and `layout_draws_rows` that the rows are drawn in turn. Since no line breaks within
itself, the text falls into the lines of the layout and the number of rows below them, so nothing of
a report is lost when it is drawn (`toGrid_shows_rows`).
-/

namespace ApiCatalog

namespace Table

/-! ## The cells that are shown -/

/-- The column at a position is one of those that hold lists. -/
def HoldsLists (columns : List String) (j : Nat) : Prop :=
  ∃ column ∈ columns[j]?, column ∈ ["verbs", "categories", "subresources", "short_names"]

instance (columns : List String) (j : Nat) : Decidable (HoldsLists columns j) :=
  inferInstanceAs (Decidable (∃ column ∈ columns[j]?, _))

/-- The cells that are shown for a row. There is one for each cell of the row. In a column of lists,
a cell of more than 60 characters is cut: its first 57 characters and three dots are shown. Every
other cell is shown as it is. -/
structure ShownAs (columns row shown : List String) : Prop where
  length : shown.length = row.length
  cut : ∀ j cell, row[j]? = some cell → HoldsLists columns j → 60 < cell.length →
    ∃ text, shown[j]? = some text ∧ text.toList = cell.toList.take 57 ++ ['.', '.', '.']
  kept : ∀ j cell, row[j]? = some cell → ¬ (HoldsLists columns j ∧ 60 < cell.length) →
    shown[j]? = some cell
  bounded : ∀ j text, shown[j]? = some text → HoldsLists columns j → text.length ≤ 60

/-- The first column is judged by its name. -/
theorem holdsLists_zero_iff (column : String) (columns : List String) :
    HoldsLists (column :: columns) 0 ↔ column ∈ listColumns := by
  simp [HoldsLists, listColumns]

/-- Other columns are judged as they are without the first one. -/
theorem holdsLists_succ_iff (column : String) (columns : List String) (j : Nat) :
    HoldsLists (column :: columns) (j + 1) ↔ HoldsLists columns j := by
  simp [HoldsLists]

/-- A cell of up to 60 characters is not cut. -/
theorem shorten_of_le {cell : String} (h : cell.length ≤ 60) : shorten cell = cell := if_pos h

/-- A text that is too long is cut, where characters are counted and not bytes. -/
theorem toList_shorten_of_lt {cell : String} (h : 60 < cell.length) :
    (shorten cell).toList = cell.toList.take 57 ++ ['.', '.', '.'] := by
  have hlong : ¬ cell.toList.length ≤ listLimit := Nat.not_le.2 h
  rw [shorten, if_neg hlong, String.toList_ofList]
  rfl

/-- A cell has at most 60 characters when it is cut. -/
theorem length_shorten_le (cell : String) : (shorten cell).length ≤ 60 := by
  rcases Nat.lt_or_ge 60 cell.length with h | h
  · rw [← String.length_toList, toList_shorten_of_lt h, List.length_append, List.length_take]
    exact Nat.add_le_add_right (Nat.min_le_left 57 _) 3
  · rwa [shorten_of_le h]

/-- Whether a cell may be cut depends on the column at its own position, in rows of any length. -/
theorem getElem?_shownCells (columns cells : List String) (j : Nat) :
    (shownCells columns cells)[j]? =
      cells[j]?.map fun cell => if HoldsLists columns j then shorten cell else cell := by
  induction columns generalizing cells j with
  | nil => simp [shownCells, HoldsLists]
  | cons column columns ih =>
      cases cells with
      | nil => rfl
      | cons cell cells =>
          cases j with
          | zero => simp [shownCells, holdsLists_zero_iff]
          | succ j => simp [shownCells, holdsLists_succ_iff, ih]

/-- As many cells are shown as there are in the row. -/
theorem length_shownCells (columns cells : List String) :
    (shownCells columns cells).length = cells.length := by
  induction columns generalizing cells with
  | nil => simp [shownCells]
  | cons column columns ih =>
      cases cells with
      | nil => rfl
      | cons cell cells => rw [shownCells, List.length_cons, ih, List.length_cons]

/-- What is shown for a row are its cells, where those that are too long for a list are cut. -/
theorem shownAs_shownCells (columns row : List String) :
    ShownAs columns row (shownCells columns row) := by
  have hcell := getElem?_shownCells columns row
  refine ⟨length_shownCells columns row, ?_, ?_, ?_⟩
  · intro j cell h hlists hlong
    refine ⟨shorten cell, ?_, toList_shorten_of_lt hlong⟩
    rw [hcell, h, Option.map_some, if_pos hlists]
  · intro j cell h hfits
    rw [hcell, h, Option.map_some, Option.some.injEq, ite_eq_right_iff]
    intro hlists
    exact shorten_of_le (Nat.not_lt.1 fun hlong => hfits ⟨hlists, hlong⟩)
  · intro j text h hlists
    obtain ⟨cell, -, rfl⟩ := Option.map_eq_some_iff.1 (hcell j ▸ h)
    rw [if_pos hlists]
    exact length_shorten_le cell

/-! ## The lines that are drawn -/

/-- A row is drawn in lines: every line of a cell is part of the line that has its number. -/
def DrawnAs (row : List String) (lines : List (List Char)) : Prop :=
  ∀ cell ∈ row, ∀ (number : Nat) (line : List Char), (block cell)[number]? = some line →
    ∃ drawn, lines[number]? = some drawn ∧ line <:+: drawn

/-- None of the numbers is above the greatest. -/
theorem le_foldl_max {n : Nat} {ns : List Nat} (h : n ∈ ns) : n ≤ ns.foldl max 0 := by
  rw [List.foldl_max]
  exact Nat.le_trans (List.le_max?_getD_of_mem h) (Nat.le_max_right _ _)

/-- A row that is not too long has a block for each column. -/
theorem length_blocks {count : Nat} {cells : List String} (h : cells.length ≤ count) :
    (blocks count cells).length = count := by
  simp [blocks, h]

/-- There is a width for each cell of rows of one length. -/
theorem length_columnWidths {count : Nat} {rows : List (List Block)}
    (h : ∀ row ∈ rows, row.length = count) : (columnWidths count rows).length = count := by
  -- Whatever widths the fold starts with, it keeps their number.
  rw [columnWidths]
  generalize hstart : List.replicate count 1 = widths
  have hwidths : widths.length = count := by rw [← hstart, List.length_replicate]
  clear hstart
  induction rows generalizing widths with
  | nil => exact hwidths
  | cons row rows ih =>
      refine ih (fun other hmem => h other (List.mem_cons_of_mem row hmem)) _ ?_
      rw [List.length_zipWith, List.length_map, hwidths, h row List.mem_cons_self, Nat.min_self]

/-- A line of a block is part of the line of the row that has its number. -/
theorem infix_drawLine {widths : List Nat} {row : List Block} (hwidths : row.length ≤ widths.length)
    {lines : Block} (hmem : lines ∈ row) {number : Nat} {line : List Char}
    (hline : lines[number]? = some line) : line <:+: drawLine widths row number := by
  obtain ⟨j, hj, rfl⟩ := List.getElem_of_mem hmem
  have hwidth : j < widths.length := Nat.lt_of_lt_of_le hj hwidths
  have hcell : padTo widths[j] line ∈
      List.zipWith (fun width lines => padTo width (lines[number]?.getD [])) widths row := by
    refine List.mem_of_getElem? (i := j) ?_
    rw [List.getElem?_zipWith, List.getElem?_eq_getElem hwidth, List.getElem?_eq_getElem hj]
    simp [hline]
  have hpad : line <:+: padTo widths[j] line := (List.prefix_append _ _).isInfix
  have hrow := Text.infix_intercalate [' ', ' ', ' '] hcell
  exact hpad.trans (hrow.trans ⟨['|', ' '], [' ', '|'], rfl⟩)

/-- A row is drawn in as many lines as its tallest cell has. -/
theorem drawnAs_drawRow {widths : List Nat} {count : Nat} (hwidths : widths.length = count)
    {row : List String} (hrow : row.length ≤ count) :
    DrawnAs row (drawRow widths (blocks count row)) := by
  intro cell hcell number line hline
  have hmem : block cell ∈ blocks count row :=
    List.mem_map_of_mem (List.mem_append_left _ hcell)
  have hnumber : number < ((blocks count row).map List.length).foldl max 0 :=
    Nat.lt_of_lt_of_le (List.getElem?_eq_some_iff.1 hline).1
      (le_foldl_max (List.mem_map_of_mem hmem))
  refine ⟨drawLine widths (blocks count row) number, ?_, ?_⟩
  · rw [drawRow, List.getElem?_map, List.getElem?_range hnumber]
    rfl
  · exact infix_drawLine (Nat.le_of_eq ((length_blocks hrow).trans hwidths.symm)) hmem hline

/-- The rows are drawn one after the other between the lines of the frame. -/
theorem layout_draws_rows (header rows : List (List String)) :
    ∃ front drawn last, layout header rows = front ++ drawn.flatten ++ [last] ∧
      List.Forall₂ DrawnAs rows drawn := by
  let count := ((header ++ rows).map List.length).foldl max 0
  let widths := columnWidths count ((header ++ rows).map (blocks count))
  have hcount : ∀ row ∈ header ++ rows, row.length ≤ count := fun row hmem =>
    le_foldl_max (List.mem_map_of_mem hmem)
  have hwidths : widths.length = count := by
    refine length_columnWidths fun row hmem => ?_
    obtain ⟨cells, hcells, rfl⟩ := List.mem_map.1 hmem
    exact length_blocks (hcount cells hcells)
  refine ⟨[frameLine '-' widths] ++
    header.flatMap fun row => drawRow widths (blocks count row) ++ [frameLine '=' widths],
    rows.map fun row => drawRow widths (blocks count row), frameLine '-' widths, ?_, ?_⟩
  · rw [← List.flatMap_def]
    rfl
  · rw [List.forall₂_map_right_iff, List.forall₂_same]
    exact fun row hmem => drawnAs_drawRow hwidths (hcount row (List.mem_append_right header hmem))

/-- A line is drawn with the sides of the frame, blanks and the lines of the cells. -/
theorem mem_drawLine {widths : List Nat} {row : List Block} {number : Nat} {c : Char}
    (h : c ∈ drawLine widths row number) :
    c = '|' ∨ c = ' ' ∨ ∃ lines ∈ row, ∃ line ∈ lines, c ∈ line := by
  simp only [drawLine, List.mem_append] at h
  rcases h with (h | h) | h
  · exact (List.mem_pair.1 h).imp_right .inl
  · rcases Text.mem_intercalate h with h | ⟨cell, hcell, h⟩
    · exact .inr (.inl (by simpa using h))
    · rw [← List.map_uncurry_zip_eq_zipWith] at hcell
      obtain ⟨⟨width, lines⟩, hzip, rfl⟩ := List.mem_map.1 hcell
      rcases List.mem_append.1 h with h | h
      · -- A cell that has no line of this number leaves its place blank.
        cases hline : lines[number]? with
        | none => simp [hline] at h
        | some line =>
            rw [hline] at h
            have hmem : lines ∈ row := (List.of_mem_zip hzip).2
            exact .inr (.inr ⟨lines, hmem, line, List.mem_of_getElem? hline, h⟩)
      · exact .inr (.inl (List.eq_of_mem_replicate h))
  · exact (List.mem_pair.1 h).symm.imp_right .inl

/-- There are no line breaks within the lines of a layout. -/
theorem newline_not_mem_layout {header rows : List (List String)} {line : List Char}
    (h : line ∈ layout header rows) : '\n' ∉ line := by
  have hrow : ∀ widths count row, line ∈ drawRow widths (blocks count row) → '\n' ∉ line := by
    intro widths count row hmem
    obtain ⟨number, -, rfl⟩ := List.mem_map.1 hmem
    intro hbreak
    rcases mem_drawLine hbreak with hside | hblank | ⟨lines, hlines, line, hline, hbreak⟩
    · exact absurd hside (by decide)
    · exact absurd hblank (by decide)
    · obtain ⟨cell, -, rfl⟩ := List.mem_map.1 hlines
      exact Text.not_mem_of_mem_pieces hline hbreak
  have hframe : ∀ c widths, c ≠ '\n' → line = frameLine c widths → '\n' ∉ line := by
    rintro c widths hc rfl
    simp [frameLine, hc.symm]
  simp only [layout, List.mem_append, List.mem_flatMap, List.mem_singleton] at h
  rcases h with ((h | ⟨row, -, h | h⟩) | ⟨row, -, h⟩) | h
  · exact hframe '-' _ (by decide) h
  · exact hrow _ _ row h
  · exact hframe '=' _ (by decide) h
  · exact hrow _ _ row h
  · exact hframe '-' _ (by decide) h

/-- The line below the frame tells the number of rows. -/
theorem footer_eq (t : Table) :
    t.footer = ("(" ++ toString t.rows.length ++ " rows)").toList := by
  rw [footer, Text.digits_eq_toDigits]
  simp [← Nat.toList_repr]

/-- The footer is one line. -/
theorem newline_not_mem_footer (t : Table) : '\n' ∉ t.footer := by
  rw [footer, Text.digits_eq_toDigits]
  intro hmem
  simp only [List.mem_append, List.mem_cons] at hmem
  rcases hmem with (hmem | hmem) | hmem
  · simp at hmem
  · have hdigit := Nat.isDigit_of_mem_toDigits (by decide) (by decide) hmem
    exact absurd hdigit (by decide)
  · simp at hmem

/-- The lines of the text are those of the layout and the one below it. -/
theorem pieces_toGrid {t : Table} (hrows : t.rows ≠ []) (withHeader : Bool) :
    Text.pieces '\n' (t.toGrid withHeader).toList = t.drawLines withHeader ++ [t.footer] := by
  rw [toGrid, if_neg hrows, String.toList_ofList]
  refine Text.pieces_intercalate (by simp) fun line hmem => ?_
  rcases List.mem_append.1 hmem with hmem | hmem
  · exact newline_not_mem_layout hmem
  · rw [List.mem_singleton.1 hmem]
    exact newline_not_mem_footer t

/-- The framed table of a report with rows. Row by row, the cells that the layout is given are those
of the report, where only too long lists are cut. The rows are drawn one after the other, and the
line below the frame tells how many there are. -/
theorem toGrid_shows_rows {t : Table} (hrows : t.rows ≠ []) (withHeader : Bool) :
    let lines := layout (if withHeader then [t.columns] else []) t.shownRows
    Text.pieces '\n' (t.toGrid withHeader).toList =
        lines ++ [("(" ++ toString t.rows.length ++ " rows)").toList] ∧
      List.Forall₂ (ShownAs t.columns) t.rows t.shownRows ∧
      ∃ front drawn last, lines = front ++ drawn.flatten ++ [last] ∧
        List.Forall₂ DrawnAs t.shownRows drawn := by
  refine ⟨?_, ?_, layout_draws_rows _ _⟩
  · rw [pieces_toGrid hrows, footer_eq]
    rfl
  · rw [shownRows, List.forall₂_map_right_iff, List.forall₂_same]
    exact fun row _ => shownAs_shownCells t.columns row

namespace Wide

/-- A text of wide characters, each of several bytes. -/
def cell (length : Nat) : String := String.ofList (List.replicate length '日')

/-- The cell has as many characters as it is to have. -/
theorem length_cell (length : Nat) : (cell length).length = length := by simp [cell]

/-- A column of lists behind one that holds none, and a row with a cell more than there are
columns. -/
def table : Table where
  columns := ["name", "verbs"]
  rows := [[cell 61, cell 61, cell 61], ["", cell 60]]

/-- One character too many is too long for a list, and only there. -/
theorem table_shown :
    table.rows ≠ [] ∧
      (Text.pieces '\n' (table.toGrid true).toList).getLast? = some "(2 rows)".toList ∧
      ∃ long short cut, table.shownRows = [long, short] ∧
        long[0]? = some (cell 61) ∧ long[1]? = some cut ∧ long[2]? = some (cell 61) ∧
        cut.toList = List.replicate 57 '日' ++ ['.', '.', '.'] ∧ short[1]? = some (cell 60) := by
  have hrows : table.rows ≠ [] := List.cons_ne_nil _ _
  obtain ⟨hlines, hshown, -⟩ := toGrid_shows_rows hrows true
  refine ⟨hrows, ?_, ?_⟩
  · rw [hlines, List.getLast?_concat]
    rfl
  · obtain ⟨long, rest, hlong, hrest, hlist⟩ := List.forall₂_cons_left_iff.1 hshown
    obtain ⟨short, rest, hshort, hnil, rfl⟩ := List.forall₂_cons_left_iff.1 hrest
    obtain rfl := List.forall₂_nil_left_iff.1 hnil
    have hlength := length_cell 61
    obtain ⟨cut, hcut, hchars⟩ := hlong.cut 1 (cell 61) rfl (by decide) (by omega)
    have hfirst := hlong.kept 0 (cell 61) rfl fun h => absurd h.1 (by decide)
    have hbeyond := hlong.kept 2 (cell 61) rfl fun h => absurd h.1 (by decide)
    have hfits := hshort.kept 1 (cell 60) rfl fun h => absurd h.2 (by simp [length_cell])
    refine ⟨long, short, cut, hlist, hfirst, hcut, hbeyond, ?_, hfits⟩
    rw [hchars, cell, String.toList_ofList, List.take_replicate]
    rfl

end Wide

end Table

end ApiCatalog
