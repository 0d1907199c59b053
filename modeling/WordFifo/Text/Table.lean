/-!
# Tables

Cells between borders.  A column is as wide as the longest line of its cells,
with a blank on either side.  A newline in a cell starts another line of its
row.  A double line closes the header and a dashed line parts two rows.

Every character is one column wide.
-/

namespace WordFifo.Table

/-- The lines of a cell.  There is at least one. -/
def cellLines (cell : String) : List String := cell.splitOn "\n"

/-- `s` with blanks up to `width`. -/
def padRight (width : Nat) (s : String) : String :=
  s ++ String.ofList (List.replicate (width - s.length) ' ')

/-- The greatest of a list of numbers, zero for the empty list. -/
def greatest (ns : List Nat) : Nat := ns.foldl max 0

/-- The width of the longest line of a cell. -/
def cellWidth (cell : String) : Nat := greatest ((cellLines cell).map String.length)

/-- The widths of the columns. -/
def columnWidths (header : List String) (rows : List (List String)) : List Nat :=
  (List.range header.length).map fun i =>
    greatest ((header :: rows).map fun row => cellWidth (row.getD i ""))

/-- A border: `fill` under every column, between the ends. -/
def border (left fill cross right : String) (widths : List Nat) : String :=
  left ++ cross.intercalate (widths.map fun w => String.join (List.replicate (w + 2) fill)) ++ right

/-- The lines of one row. -/
def rowLines (widths : List Nat) (row : List String) : List String :=
  let cells := row.map cellLines
  let height := greatest (cells.map List.length)
  (List.range height).map fun i =>
    "│" ++ "┆".intercalate ((cells.zip widths).map fun cell =>
      " " ++ padRight cell.2 (cell.1.getD i "") ++ " ") ++ "│"

/-- The lines of a table. -/
def lines (header : List String) (rows : List (List String)) : List String :=
  let widths := columnWidths header rows
  let parted := (rows.map (rowLines widths)).intersperse [border "├" "╌" "┼" "┤" widths]
  border "┌" "─" "┬" "┐" widths :: rowLines widths header ++
    border "╞" "═" "╪" "╡" widths :: parted.flatten ++ [border "└" "─" "┴" "┘" widths]

end WordFifo.Table
