import FormFlow.Text.Columns
/-!
# Tables

A table in a frame of lines. Every column is as wide as its widest line, cells
begin on the left with a blank on either side, and a row is as high as its
highest cell. Only the header is set off by a line of its own.
-/
namespace FormFlow

structure Table where
  header : List String
  rows : List (List String)
  deriving DecidableEq, Repr, Inhabited

namespace Table

def cellLines (cell : String) : List String :=
  (cell.toList.splitOn '\n').map String.ofList

def cellWidth (cell : String) : Nat := ((cellLines cell).map Text.columns).foldl max 0

def widen : List Nat → List Nat → List Nat
  | [], widths => widths
  | widths, [] => widths
  | a :: as, b :: bs => max a b :: widen as bs

def widths (t : Table) : List Nat :=
  (t.header :: t.rows).foldl (fun widths row => widen widths (row.map cellWidth)) []

def blanks (n : Nat) : String := String.ofList (List.replicate n ' ')

def padded (width : Nat) (line : String) : String :=
  " " ++ line ++ blanks (width - Text.columns line) ++ " "

def rowLines (widths : List Nat) (row : List String) : List String :=
  let cells := row.map cellLines
  let height := (cells.map List.length).foldl max 0
  (List.range height).map fun i =>
    "│" ++ "┆".intercalate
      ((cells.zip widths).map fun (lines, width) => padded width ((lines[i]?).getD "")) ++ "│"

def rule (widths : List Nat) (left line joint right : String) : String :=
  left ++ joint.intercalate (widths.map fun w => String.join (List.replicate (w + 2) line)) ++ right

def lines (t : Table) : List String :=
  let widths := t.widths
  [rule widths "┌" "─" "┬" "┐"] ++ rowLines widths t.header
    ++ [rule widths "╞" "═" "╪" "╡"] ++ t.rows.flatMap (rowLines widths)
    ++ [rule widths "└" "─" "┴" "┘"]

end Table
end FormFlow
