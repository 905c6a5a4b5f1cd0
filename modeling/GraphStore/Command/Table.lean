import GraphStore.Text.Search
import GraphStore.Text.Width

/-!
# Tables

A table is drawn with a border around every cell.  A cell may have several lines; each column is as
wide as its widest line.
-/

namespace GraphStore

/-- A header and rows of cells, all with the same number of columns. -/
structure Table where
  /-- The names of the columns. -/
  header : List String
  /-- The rows. -/
  rows : List (List String)

namespace Table

/-- The lines of a cell. -/
def cellLines (cell : String) : List (List Char) :=
  Text.splitAt '\n' cell.toList

/-- The width of a cell. -/
def cellWidth (cell : String) : Nat :=
  ((cellLines cell).map Text.width).foldl max 0

/-- The widths of the columns. -/
def widths (table : Table) : List Nat :=
  table.rows.foldl (fun widths row => List.zipWith max widths (row.map cellWidth))
    (table.header.map cellWidth)

/-- A horizontal line between two ends, with a mark where columns meet. -/
def rule (widths : List Nat) (left fill crossing right : Char) : List Char :=
  let segments := widths.map fun width => List.replicate (width + 2) fill
  left :: [crossing].intercalate segments ++ [right]

/-- One line of a row of cells. -/
def rowLine (widths : List Nat) (cells : List (List (List Char))) (index : Nat) : List Char :=
  (widths.zip cells).flatMap (fun (width, lines) =>
    ['|', ' '] ++ Text.padTo width (lines[index]?.getD []) ++ [' ']) ++ ['|']

/-- The lines of a row of cells. -/
def rowLines (widths : List Nat) (row : List String) : List (List Char) :=
  let cells := row.map cellLines
  let height := (cells.map List.length).foldl max 0
  (List.range height).map (rowLine widths cells)

/-- The lines of a table. -/
def lines (table : Table) : List String :=
  let widths := table.widths
  let border := rule widths '+' '-' '+' '+'
  let separator := rule widths '|' '-' '+' '|'
  let body := ((table.rows.map (rowLines widths)).intersperse [separator]).flatten
  ([border] ++ rowLines widths table.header ++ [rule widths '+' '=' '=' '+'] ++ body ++
    [border]).map String.ofList

end Table
end GraphStore
