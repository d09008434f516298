import ApiCatalog.Report.Table
import ApiCatalog.Text.Digits
import ApiCatalog.Text.Width

/-!
# Reports as framed tables

`Table.toGrid` draws a report with characters: a frame, the columns next to each other, each as
wide as its widest cell, and below the frame the number of rows. What is drawn are the `shownRows`,
in which long lists are cut by `shorten`, so that they do not push the frame apart. Where everything
stands is decided by `layout`. A cell takes as many lines as its text has.
-/

namespace ApiCatalog.Table

/-- The columns that hold lists. -/
def listColumns : List String := ["verbs", "categories", "subresources", "short_names"]

/-- The greatest number of characters of a list. -/
def listLimit : Nat := 60

/-- What stands at the end of a list that is cut. -/
def ellipsis : String := "..."

/-- Cut a list that is too long, so that it has the greatest length together with the mark at its
end. -/
def shorten (cell : String) : String :=
  if cell.toList.length ≤ listLimit then cell
  else String.ofList (cell.toList.take (listLimit - ellipsis.toList.length) ++ ellipsis.toList)

/-- The cells of a row as they are shown, where the lists among them are cut. -/
def shownCells : (columns cells : List String) → List String
  | column :: columns, cell :: cells =>
    (if column ∈ listColumns then shorten cell else cell) :: shownCells columns cells
  | _, cells => cells

/-- A cell as it is drawn: its lines, at least one. -/
abbrev Block := List (List Char)

/-- The block of a text. -/
def block (cell : String) : Block := Text.pieces '\n' cell.toList

/-- The number of columns on the display that a block takes up. -/
def blockWidth (lines : Block) : Nat := (lines.map Text.width).foldl max 0

/-- The blocks of a row, filled up with blank ones to a number of cells. -/
def blocks (count : Nat) (cells : List String) : List Block :=
  (cells ++ List.replicate (count - cells.length) "").map block

/-- The widths of the columns, at least one each, so that every block has room. -/
def columnWidths (count : Nat) (rows : List (List Block)) : List Nat :=
  rows.foldl (fun widths row => List.zipWith max widths (row.map blockWidth))
    (List.replicate count 1)

/-- A line filled up with blanks to a width. -/
def padTo (width : Nat) (line : List Char) : List Char :=
  line ++ List.replicate (width - Text.width line) ' '

/-- A line of a row: the lines of its cells that have this number, between the sides of the
frame. -/
def drawLine (widths : List Nat) (row : List Block) (number : Nat) : List Char :=
  let cells := List.zipWith (fun width lines => padTo width (lines[number]?.getD [])) widths row
  ['|', ' '] ++ List.intercalate [' ', ' ', ' '] cells ++ [' ', '|']

/-- The lines of a row, as many as its tallest cell has. -/
def drawRow (widths : List Nat) (row : List Block) : List (List Char) :=
  (List.range ((row.map List.length).foldl max 0)).map (drawLine widths row)

/-- A line of the frame, with a margin on both sides of every column and one more column between
two of them. -/
def frameLine (c : Char) (widths : List Nat) : List Char :=
  '+' :: List.replicate ((widths.map (· + 2)).foldl (· + ·) 0 + (widths.length - 1)) c ++ ['+']

/-- The lines of a frame around rows, below the rows of headers if there are any. Every row is
filled up to the number of cells of the longest. -/
def layout (header rows : List (List String)) : List (List Char) :=
  let count := ((header ++ rows).map List.length).foldl max 0
  let widths := columnWidths count ((header ++ rows).map (blocks count))
  let draw (row : List String) : List (List Char) := drawRow widths (blocks count row)
  [frameLine '-' widths] ++ header.flatMap (fun row => draw row ++ [frameLine '=' widths]) ++
    rows.flatMap draw ++ [frameLine '-' widths]

/-- The rows as they are shown. -/
def shownRows (t : Table) : List (List String) := t.rows.map (shownCells t.columns)

/-- The lines of a report with at least one row. -/
def drawLines (t : Table) (withHeader : Bool) : List (List Char) :=
  layout (if withHeader then [t.columns] else []) t.shownRows

/-- The line below the frame. -/
def footer (t : Table) : List Char :=
  '(' :: Text.digits t.rows.length ++ " rows)".toList

/-- The report as a framed table. Without rows there is no frame. -/
def toGrid (t : Table) (withHeader : Bool) : String :=
  let frame := if t.rows = [] then [] else t.drawLines withHeader
  String.ofList (List.intercalate ['\n'] (frame ++ [t.footer]))

end ApiCatalog.Table
