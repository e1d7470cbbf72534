/-
Tables drawn with box characters.

Each column is as wide as its widest line, and one column of blank space stands on
both sides of every cell.
-/
import PlanHistory.Text.Width

namespace PlanHistory

/-- A table: the names of its columns and its rows, a text for each column. -/
structure TextTable where
  header : List String
  rows : List (List String)

namespace TextTable

/-- A horizontal line: its left end, its stroke, its crossings and its right end. -/
structure Rule where
  left : Char
  stroke : Char
  crossing : Char
  right : Char

/-- The line above the table. -/
def topRule : Rule := ⟨'┌', '─', '┬', '┐'⟩

/-- The line under the header. -/
def headerRule : Rule := ⟨'╞', '═', '╪', '╡'⟩

/-- The line between two rows. -/
def rowRule : Rule := ⟨'├', '╌', '┼', '┤'⟩

/-- The line under the table. -/
def bottomRule : Rule := ⟨'└', '─', '┴', '┘'⟩

/-- The lines of a cell. -/
def cellLines (cell : String) : List String :=
  split cell.toList [] |>.map String.ofList
where
  /-- What line feeds separate, behind the start of the first line, last character
  first. -/
  split : List Char → List Char → List (List Char)
    | [], read => [read.reverse]
    | c :: rest, read => if c == '\n' then read.reverse :: split rest [] else split rest (c :: read)

/-- How wide a cell is. -/
def cellWidth (cell : String) : Nat :=
  (cellLines cell).foldl (fun widest line => max widest (Text.width line)) 0

/-- How wide the columns are; a column is never without width. -/
def widths (table : TextTable) : List Nat :=
  let step (widths : List Nat) (row : List String) : List Nat :=
    List.zipWith (fun width cell => max width (cellWidth cell)) widths row
  (table.header :: table.rows).foldl step (table.header.map fun _ => 1)

/-- A horizontal line over columns. -/
def ruleText (rule : Rule) (widths : List Nat) : String :=
  let strokes := widths.map fun width => String.ofList (List.replicate (width + 2) rule.stroke)
  rule.left.toString ++ rule.crossing.toString.intercalate strokes ++ rule.right.toString

/-- A line of a cell, filled up to the width of its column. -/
def fill (width : Nat) (line : String) : String :=
  " " ++ line ++ String.ofList (List.replicate (width - Text.width line + 1) ' ')

/-- The lines of a row; a cell with fewer lines than others is blank below. -/
def rowLines (widths : List Nat) (row : List String) : List String :=
  let cells := row.map cellLines
  let height := cells.foldl (fun highest lines => max highest lines.length) 0
  (List.range height).map fun i =>
    let texts := List.zipWith (fun width lines => fill width ((lines[i]?).getD "")) widths cells
    "│" ++ "┆".intercalate texts ++ "│"

/-- The lines of rows, with a line between each two. -/
def bodyLines (widths : List Nat) : List (List String) → List String
  | [] => []
  | [row] => rowLines widths row
  | row :: rows => rowLines widths row ++ ruleText rowRule widths :: bodyLines widths rows

/-- The table as lines. -/
def lines (table : TextTable) : List String :=
  let widths := table.widths
  ruleText topRule widths :: rowLines widths table.header
    ++ ruleText headerRule widths :: bodyLines widths table.rows
    ++ [ruleText bottomRule widths]

end TextTable

end PlanHistory
