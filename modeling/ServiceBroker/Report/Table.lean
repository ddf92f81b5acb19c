import ServiceBroker.Text.Lines
import ServiceBroker.Text.Width

/-!
Tables with a frame around every cell. A column is as wide as its widest line. A cell takes as many
lines as its text has, and a row as many as its tallest cell.
-/

namespace ServiceBroker.Table

/-- The lines of a cell. -/
abbrev Cell := List (List Char)

def cell (text : String) : Cell :=
  Text.splitAt '\n' text.toList

/-- The widest line of a cell. -/
def cellWidth (cell : Cell) : Nat :=
  (cell.map Text.width).foldl max 0

/-- The width of each column. -/
def widths (rows : List (List Cell)) : List Nat :=
  rows.foldl (fun found row =>
    let here := row.map cellWidth
    List.zipWith max (found ++ List.replicate (here.length - found.length) 0) here) []

def fill (width : Nat) (line : List Char) : List Char :=
  line ++ List.replicate (width - Text.width line) ' '

/-- The rule between rows. -/
def rule (widths : List Nat) : List Char :=
  '+' :: widths.flatMap fun width => List.replicate (width + 2) '-' ++ ['+']

def rowLine (widths : List Nat) (row : List Cell) (index : Nat) : List Char :=
  '|' :: (List.zip widths row).flatMap fun (width, cell) =>
    ' ' :: fill width (cell.getD index []) ++ [' ', '|']

def rowLines (widths : List Nat) (row : List Cell) : List (List Char) :=
  (List.range ((row.map List.length).foldl max 1)).map (rowLine widths row)

def render (rows : List (List String)) : String :=
  let rows := rows.map (·.map cell)
  let widths := widths rows
  let body := rows.flatMap fun row => rowLines widths row ++ [rule widths]
  String.ofList (Text.joinLines (rule widths :: body))

end ServiceBroker.Table
