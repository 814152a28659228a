/-
Rows printed as a table: every column as wide as its longest cell and two, cells one space from the left border.

Lengths are those of the cells in UTF-8, so cells outside ASCII take fewer places than their column has bytes.
-/
namespace TableStore.Grid

/-- the width that a cell asks for -/
def cellWidth (cell : String) : Nat := cell.utf8ByteSize + 2

/-- the widths after one more row; cells beyond the last column make new ones -/
def widen : List Nat → List String → List Nat
  | widths, [] => widths
  | [], cell :: cells => cellWidth cell :: widen [] cells
  | width :: widths, cell :: cells => max width (cellWidth cell) :: widen widths cells

def widths (header : List String) (rows : List (List String)) : List Nat :=
  rows.foldl widen (header.map cellWidth)

/-- `n` times a character -/
def times (n : Nat) (c : Char) : String := String.ofList (List.replicate n c)

def border (widths : List Nat) : String :=
  "+" ++ String.join (widths.map fun width => times width '-' ++ "+") ++ "\n"

/-- a cell after its left border, with the spaces up to the right one -/
def padded (width : Nat) (cell : String) : String :=
  " " ++ cell ++ times (width - cell.utf8ByteSize - 1) ' '

def line (widths : List Nat) (cells : List String) : String :=
  "|" ++ String.join (List.zipWith (fun width cell => padded width cell ++ "|") widths cells) ++ "\n"

/-- the whole table: header and rows between borders -/
def print (header : List String) (rows : List (List String)) : String :=
  let widths := widths header rows
  border widths ++ line widths header ++ border widths ++ String.join (rows.map (line widths)) ++ border widths

end TableStore.Grid
