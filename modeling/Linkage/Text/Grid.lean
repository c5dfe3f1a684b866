import Linkage.Text.Columns
import Linkage.Text.Cut

/-!
# Grids

A grid is drawn with lines around its cells: a double line below the header and a dashed one between
rows.  A cell may have several lines of text; every column is as wide as its widest line.

* `Grid.widths`    the columns that each column of cells takes;
* `Grid.lines`     the drawing, line by line.
-/

namespace Linkage.Text

/-- A header and rows of cells below it. -/
structure Grid where
  header : List (List Char)
  rows : List (List (List Char))

namespace Grid

/-- The lines of text of a cell. -/
def cellLines (c : List Char) : List (List Char) := splitAt '\n' c

/-- The columns that a cell takes. -/
def cellWidth (c : List Char) : Nat := (cellLines c).foldl (fun w l => max w (columns l)) 0

/-- The wider of two columns at each place; the longer list decides how many there are. -/
def widest : List Nat → List Nat → List Nat
  | [], ws => ws
  | vs, [] => vs
  | v :: vs, w :: ws => max v w :: widest vs ws

/-- The columns that each column of cells takes. -/
def widths (g : Grid) : List Nat :=
  (g.header :: g.rows).foldl (fun ws r => widest ws (r.map cellWidth)) []

/-- A line of text with blanks up to a width. -/
def padded (w : Nat) (l : List Char) : List Char := l ++ List.replicate (w - columns l) ' '

/-- A drawn line: its ends, its crossings and what lies between them. -/
def rule (left fill cross right : Char) (ws : List Nat) : List Char :=
  left :: joinWith [cross] (ws.map fun w => List.replicate (w + 2) fill) ++ [right]

/-- The `i`th line of a row. -/
def rowLine (ws : List Nat) (cells : List (List (List Char))) (i : Nat) : List Char :=
  '│' :: joinWith ['┆'] (ws.zipWith
    (fun w c => ' ' :: padded w (c.getD i []) ++ [' ']) cells) ++ ['│']

def rowLines (ws : List Nat) (r : List (List Char)) : List (List Char) :=
  let cells := r.map cellLines
  (List.range (cells.foldl (fun n c => max n c.length) 0)).map (rowLine ws cells)

/-- The lines of all rows with a dashed line between them. -/
def bodyLines (ws : List Nat) : List (List (List Char)) → List (List Char)
  | [] => []
  | [r] => rowLines ws r
  | r :: rs => rowLines ws r ++ rule '├' '╌' '┼' '┤' ws :: bodyLines ws rs

def lines (g : Grid) : List (List Char) :=
  let ws := g.widths
  rule '┌' '─' '┬' '┐' ws :: rowLines ws g.header ++ rule '╞' '═' '╪' '╡' ws ::
    bodyLines ws g.rows ++ [rule '└' '─' '┴' '┘' ws]

end Grid
end Linkage.Text
