/-
The widths of a printed table.

Rows may be of any lengths: the rows of a response are what its bytes say. The widths of the columns grow while rows are
added, by places, and cells are padded up to them by differences of lengths. Written out with a stop for every place
outside the widths and every difference below zero (`checkedWiden`, `checkedLine`, `checkedPrint`), printing is what it is
without them.

Results:
  getElem?_widths           a column is as wide as its largest cell in bytes and two, header and rows alike, and there is
                            a width for each column that has a cell;
  printed_within_widths     printing a table is never stopped, after however many rows the widths are these, every cell
                            with its spaces takes the bytes of its column's width, and the whole table is written.
-/
import Mathlib.Tactic
import TableStore.Client.Print
import TableStore.Proofs.Text.Sizes
import TableStore.Proofs.Traps
import TableStore.Proofs.Wire.Responses

namespace TableStore.Grid

/-! ## Widths -/

/-- the cells at a place of some lines; a line that ends before it has none -/
def cellsAt (i : Nat) (lines : List (List String)) : List String := lines.filterMap (·[i]?)

theorem max?_append_toList (sizes : List Nat) (size : Option Nat) :
    (sizes ++ size.toList).max? = Option.merge max sizes.max? size := by
  cases size with
  | none => simp
  | some size =>
    cases sizes with
    | nil => rfl
    | cons first rest =>
      rw [List.cons_append, List.max?_cons', List.max?_cons', Option.toList_some, List.foldl_concat]
      rfl

theorem max?_map_add (k : Nat) (sizes : List Nat) : (sizes.map (· + k)).max? = sizes.max?.map (· + k) := by
  induction sizes with
  | nil => rfl
  | cons size rest ih =>
    rw [List.map_cons, List.max?_cons, ih, List.max?_cons]
    cases rest.max? with
    | none => rfl
    | some largest => exact congrArg some (Nat.add_max_add_right size largest k)

theorem getElem?_widen (widths : List Nat) (cells : List String) (i : Nat) :
    (widen widths cells)[i]? = Option.merge max widths[i]? (cells[i]?.map cellWidth) := by
  induction cells generalizing widths i with
  | nil =>
    cases widths <;> simp [widen]
  | cons cell cells ih =>
    cases widths with
    | nil =>
      cases i with
      | zero => rfl
      | succ i => simpa [widen] using ih [] i
    | cons width widths =>
      cases i with
      | zero => rfl
      | succ i => simpa [widen] using ih widths i

theorem cellsAt_singleton (i : Nat) (cells : List String) : cellsAt i [cells] = cells[i]?.toList := by
  rw [cellsAt, List.filterMap_cons]
  cases cells[i]? with
  | none => rfl
  | some cell => rfl

theorem cellsAt_append (i : Nat) (lines lines' : List (List String)) :
    cellsAt i (lines ++ lines') = cellsAt i lines ++ cellsAt i lines' :=
  List.filterMap_append

theorem widths_snoc (header : List String) (rows : List (List String)) (row : List String) :
    widths header (rows ++ [row]) = widen (widths header rows) row := by
  simp [widths, List.foldl_append]

/-- a column is as wide as the largest of its cells and two; a place without a cell has no width -/
theorem getElem?_widths (header : List String) (rows : List (List String)) (i : Nat) :
    (widths header rows)[i]? = ((cellsAt i (header :: rows)).map (·.utf8ByteSize)).max?.map (· + 2) := by
  rw [← max?_map_add, List.map_map]
  induction rows using List.reverseRecOn with
  | nil =>
    rw [widths, List.foldl_nil, List.getElem?_map, cellsAt_singleton]
    cases header[i]? with
    | none => rfl
    | some cell => rfl
  | append_singleton rows row ih =>
    rw [widths_snoc, getElem?_widen, ih, ← List.cons_append, cellsAt_append, cellsAt_singleton, List.map_append,
      ← Option.toList_map, max?_append_toList]
    rfl

/-- the widths of a line's cells are there and large enough -/
def Covers (widths : List Nat) (cells : List String) : Prop :=
  ∀ (i : Nat) (cell : String), cells[i]? = some cell → ∃ width, widths[i]? = some width ∧ cellWidth cell ≤ width

theorem covers_widths {header : List String} {rows : List (List String)} {cells : List String}
    (mem : cells ∈ header :: rows) : Covers (widths header rows) cells := by
  intro i cell there
  have memSizes : cell.utf8ByteSize ∈ (cellsAt i (header :: rows)).map (·.utf8ByteSize) :=
    List.mem_map_of_mem (List.mem_filterMap.2 ⟨cells, mem, there⟩)
  cases largest : ((cellsAt i (header :: rows)).map (·.utf8ByteSize)).max? with
  | none =>
    rw [List.max?_eq_none_iff.1 largest] at memSizes
    cases memSizes
  | some size =>
    refine ⟨size + 2, by rw [getElem?_widths, largest]; rfl, ?_⟩
    exact Nat.add_le_add_right ((List.max?_eq_some_iff.1 largest).2 _ memSizes) 2

/-! ## Adding rows by places -/

/-- the widths after one more cell: a new one is pushed if they end at its place, and then the one there is raised -/
def checkedPut (widths : List Nat) (cell : String) (i : Nat) : Checked (List Nat) := do
  let widths := if i = widths.length then widths ++ [0] else widths
  let width ← Checked.get widths i
  return widths.set i (max width (cellWidth cell))

/-- the widths after one more row, cell by cell -/
def checkedWiden (widths : List Nat) (row : List String) : Checked (List Nat) :=
  row.zipIdx.foldlM (fun widths (cell, i) => checkedPut widths cell i) widths

theorem checkedPut_new (front : List Nat) (cell : String) :
    checkedPut front cell front.length = .ok (front ++ [cellWidth cell]) := by
  have there : (front ++ [0])[front.length]? = some 0 := List.getElem?_concat_length
  simp only [checkedPut, if_true, Checked.get_eq_ok there]
  exact congrArg Except.ok (by simp)

theorem checkedPut_old (front : List Nat) (width : Nat) (widths : List Nat) (cell : String) :
    checkedPut (front ++ width :: widths) cell front.length
      = .ok (front ++ max width (cellWidth cell) :: widths) := by
  have inside : front.length ≠ (front ++ width :: widths).length := by simp
  have there : (front ++ width :: widths)[front.length]? = some width := by simp
  simp only [checkedPut, if_neg inside, Checked.get_eq_ok there]
  exact congrArg Except.ok (by simp)

/-- the cells that are left of a row, when the widths in front of their places are done -/
theorem foldlM_checkedPut (front widths : List Nat) (cells : List String) :
    (cells.zipIdx front.length).foldlM (fun widths (cell, i) => checkedPut widths cell i) (front ++ widths)
      = .ok (front ++ widen widths cells) := by
  induction cells generalizing front widths with
  | nil => cases widths <;> rfl
  | cons cell cells ih =>
    rw [List.zipIdx_cons, List.foldlM_cons]
    cases widths with
    | nil =>
      simp only [List.append_nil, checkedPut_new]
      have rest := ih (front ++ [cellWidth cell]) []
      rw [List.length_append, List.append_nil] at rest
      exact rest.trans (by rw [widen, List.append_assoc]; rfl)
    | cons width widths =>
      simp only [checkedPut_old]
      have rest := ih (front ++ [max width (cellWidth cell)]) widths
      rw [List.length_append, List.append_assoc, List.append_assoc] at rest
      exact rest

theorem checkedWiden_eq_ok (widths : List Nat) (row : List String) : checkedWiden widths row = .ok (widen widths row) :=
  foldlM_checkedPut [] widths row

theorem foldlM_checkedWiden (header : List String) (rows : List (List String)) :
    rows.foldlM checkedWiden (header.map cellWidth) = .ok (widths header rows) :=
  (Checked.foldlM_eq_ok (fun _ => True) (fun _ _ _ => ⟨checkedWiden_eq_ok _ _, trivial⟩) trivial rows).1

/-! ## Printing by places -/

/-- a cell with the spaces up to the width at its place, and the separator behind it -/
def checkedCell (widths : List Nat) (cell : String) (i : Nat) : Checked String := do
  let width ← Checked.get widths i
  let behind ← Checked.sub width cell.utf8ByteSize
  let spaces ← Checked.sub behind 1
  return " " ++ cell ++ times spaces ' ' ++ "|"

def checkedLine (widths : List Nat) (cells : List String) : Checked String := do
  let pieces ← cells.zipIdx.mapM fun (cell, i) => checkedCell widths cell i
  return "|" ++ String.join pieces ++ "\n"

/-- the whole table, its rows added one by one and then printed -/
def checkedPrint (header : List String) (rows : List (List String)) : Checked String := do
  let widths ← rows.foldlM checkedWiden (header.map cellWidth)
  let head ← checkedLine widths header
  let lines ← rows.mapM (checkedLine widths)
  return border widths ++ head ++ border widths ++ String.join lines ++ border widths

theorem checkedCell_eq_ok {widths : List Nat} {cell : String} {i width : Nat} (there : widths[i]? = some width)
    (enough : cellWidth cell ≤ width) : checkedCell widths cell i = .ok (padded width cell ++ "|") := by
  rw [cellWidth] at enough
  rw [checkedCell, Checked.get_eq_ok there]
  have first : Checked.sub width cell.utf8ByteSize = .ok (width - cell.utf8ByteSize) := Checked.sub_eq_ok (by omega)
  have second : Checked.sub (width - cell.utf8ByteSize) 1 = .ok (width - cell.utf8ByteSize - 1) :=
    Checked.sub_eq_ok (by omega)
  simp only [bind, Except.bind, first, second]
  rfl

theorem Covers.checkedLine {widths : List Nat} {cells : List String} (h : Covers widths cells) :
    checkedLine widths cells = .ok (line widths cells) := by
  have printed : cells.zipIdx.mapM (fun (cell, i) => checkedCell widths cell i)
      = .ok (cells.zipIdx.map fun (cell, i) => padded (widths[i]?.getD 0) cell ++ "|") := by
    refine Checked.mapM_eq_ok ?_
    rintro ⟨cell, i⟩ mem
    obtain ⟨width, there, enough⟩ := h i cell (List.mem_zipIdx_iff_getElem?.1 mem)
    simp only [there, Option.getD_some, checkedCell_eq_ok there enough]
  have pieces : cells.zipIdx.map (fun (cell, i) => padded (widths[i]?.getD 0) cell ++ "|")
      = List.zipWith (fun width cell => padded width cell ++ "|") widths cells := by
    refine List.ext_getElem? fun i => ?_
    rw [List.getElem?_map, List.getElem?_zipIdx, List.getElem?_zipWith]
    cases there : cells[i]? with
    | none => cases widths[i]? <;> rfl
    | some cell =>
      obtain ⟨width, widthThere, -⟩ := h i cell there
      simp [widthThere]
  rw [Grid.checkedLine, printed, pieces]
  rfl

theorem checkedPrint_eq_ok (header : List String) (rows : List (List String)) :
    checkedPrint header rows = .ok (print header rows) := by
  have head : checkedLine (widths header rows) header = .ok (line (widths header rows) header) :=
    (covers_widths List.mem_cons_self).checkedLine
  have lines : rows.mapM (checkedLine (widths header rows)) = .ok (rows.map (line (widths header rows))) :=
    Checked.mapM_eq_ok fun row mem => (covers_widths (List.mem_cons_of_mem header mem)).checkedLine
  rw [checkedPrint, foldlM_checkedWiden]
  simp only [bind, Except.bind, head, lines]
  rfl

/-! ## Sizes -/

theorem utf8ByteSize_times (n : Nat) (c : Char) : (times n c).utf8ByteSize = n * c.utf8Size :=
  Text.utf8ByteSize_ofList_replicate n c

/-- a cell with its spaces has as many bytes as its column is wide -/
theorem utf8ByteSize_padded {width : Nat} {cell : String} (enough : cellWidth cell ≤ width) :
    (padded width cell).utf8ByteSize = width := by
  have space : (" " : String).utf8ByteSize = 1 := rfl
  have blank : ' '.utf8Size = 1 := rfl
  rw [cellWidth] at enough
  rw [padded, String.utf8ByteSize_append, String.utf8ByteSize_append, utf8ByteSize_times, space, blank]
  omega

theorem le_of_mem_widths {header : List String} {rows : List (List String)} {bound : Nat}
    (small : ∀ cells ∈ header :: rows, ∀ cell ∈ cells, cell.utf8ByteSize ≤ bound) :
    ∀ width ∈ widths header rows, width ≤ bound + 2 := by
  intro width mem
  obtain ⟨i, there⟩ := List.mem_iff_getElem?.1 mem
  rw [getElem?_widths, Option.map_eq_some_iff] at there
  obtain ⟨size, largest, rfl⟩ := there
  obtain ⟨cell, memCell, rfl⟩ := List.mem_map.1 (List.max?_mem largest)
  obtain ⟨cells, memCells, at_i⟩ := List.mem_filterMap.1 memCell
  exact Nat.add_le_add_right (small cells memCells cell (List.mem_of_getElem? at_i)) 2

/-! ## Main result -/

/-- **A table of any rows is printed.** For every header and all rows, however long each of them is: printing never goes
outside the widths and never below zero, and writes the whole table to an output that takes it. After however many rows
the width at each place is two more than the size of the largest cell there, of the header and of these rows, and there
is none where no line has a cell. Every cell with its spaces has exactly the bytes of its column's width. The widths of
rows that were read from a connection are bounded, so that computing them does not overflow. -/
theorem printed_within_widths (header : List String) (rows : List (List String)) :
    checkedPrint header rows = .ok (print header rows) ∧
    (∀ n, ∃ widths, (rows.take n).foldlM checkedWiden (header.map cellWidth) = .ok widths ∧
      ∀ i : Nat, widths[i]? = ((cellsAt i (header :: rows.take n)).map (·.utf8ByteSize)).max?.map (· + 2)) ∧
    (∀ cells ∈ header :: rows, ∀ (i : Nat) (cell : String), cells[i]? = some cell →
      ∃ width, (widths header rows)[i]? = some width ∧ (padded width cell).utf8ByteSize = width) ∧
    (∀ o : Output, o.room = none →
      (Response.rows header rows).printOn o .table = (Text.utf8 (print header rows), .ok ())) ∧
    ∀ s s', Response.read s = (.ok (.rows header rows), s') →
      ∀ width ∈ widths header rows, width ≤ Wire.maxTextBytes + 2 := by
  refine ⟨checkedPrint_eq_ok header rows, fun n => ?_, ?_, ?_, ?_⟩
  · exact ⟨widths header (rows.take n), foldlM_checkedWiden header _, getElem?_widths header _⟩
  · intro cells mem i cell there
    obtain ⟨width, widthThere, enough⟩ := covers_widths mem i cell there
    exact ⟨width, widthThere, utf8ByteSize_padded enough⟩
  · intro o unlimited
    simp only [Response.printOn, Response.printed, Output.deliver, unlimited]
  · intro s s' read
    obtain ⟨fits, -⟩ := Response.codec.canonical s _ s' read
    obtain ⟨first, -, rest⟩ := Response.within_rows.1 fits
    refine le_of_mem_widths fun cells mem => ?_
    rcases List.mem_cons.1 mem with rfl | memRows
    · exact first.2
    · exact (rest cells memRows).2

/-- a row longer than the header makes a new column, and one shorter leaves its last ones out -/
example : print ["id", "é"] [["1"], ["22", "x", "more"], []]
    = "+----+----+------+\n| id | é |\n+----+----+------+\n| 1  |\n| 22 | x  | more |\n|\n+----+----+------+\n" := by
  decide +kernel

end TableStore.Grid
