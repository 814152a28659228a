/-
How the lines of a printed table stand to each other.

A border is dashes between `+`, and a line of cells is cells with their spaces between `|` (`ruled`). Columns are as wide
as their cells have bytes, and spaces are counted in bytes, but what is seen are characters: each cell moves all that is
behind it to the left by as many places as it has more bytes than characters (`excess`).

Results:
  aligned_iff_ascii     the printed text has these lines; a separator stands as much in front of the mark of the border as
                        the cells before it have bytes in excess; so lines and separators are aligned exactly if all
                        cells are ASCII;
  not_always_aligned    lines of one table may have different lengths, with as many cells in each line and no line break.
-/
import Mathlib.Tactic
import TableStore.Proofs.Client.Widths
import TableStore.Proofs.Text.Sizes

namespace TableStore

/-! ## Texts -/

namespace Text

/-- the lines of a text, each ended by a line feed -/
def lines (text : String) : List (List Char) := (text.toList.splitOn '\n').dropLast

/-- lines that are each ended are lines between their ends, with nothing behind the last one -/
theorem flatMap_ended (ending : Char) (lines : List (List Char)) :
    lines.flatMap (· ++ [ending]) = [ending].intercalate (lines ++ [[]]) := by
  induction lines with
  | nil => rfl
  | cons line rest ih =>
    obtain ⟨next, behind, eq⟩ : ∃ next behind, rest ++ [[]] = next :: behind :=
      List.exists_cons_of_ne_nil (by simp)
    rw [List.flatMap_cons, ih, List.cons_append, eq, List.intercalate_cons_cons]

theorem lines_of_toList {text : String} {written : List (List Char)}
    (eq : text.toList = written.flatMap (· ++ ['\n'])) (unbroken : ∀ line ∈ written, '\n' ∉ line) :
    lines text = written := by
  have pieces : ∀ line ∈ written ++ [[]], '\n' ∉ line := by
    intro line mem
    rcases List.mem_append.1 mem with mem | mem
    · exact unbroken line mem
    · rw [List.mem_singleton.1 mem]
      exact List.not_mem_nil
  rw [lines, eq, flatMap_ended, List.splitOn_intercalate _ pieces (by simp), List.dropLast_concat]

end Text

namespace Grid

/-! ## Ruled lines -/

/-- a line of pieces between marks -/
def ruled (mark : Char) (pieces : List (List Char)) : List Char := mark :: pieces.flatMap (· ++ [mark])

/-- how many characters stand in front of a mark, the first one being at the left end -/
def markAt (pieces : List (List Char)) (i : Nat) : Nat := ((pieces.take i).map fun piece => piece.length + 1).sum

theorem ruled_cons (mark : Char) (piece : List Char) (pieces : List (List Char)) :
    ruled mark (piece :: pieces) = mark :: (piece ++ ruled mark pieces) := by
  simp [ruled]

theorem markAt_succ (piece : List Char) (pieces : List (List Char)) (i : Nat) :
    markAt (piece :: pieces) (i + 1) = piece.length + 1 + markAt pieces i := by
  simp [markAt]

theorem getElem?_ruled (mark : Char) {pieces : List (List Char)} {i : Nat} (le : i ≤ pieces.length) :
    (ruled mark pieces)[markAt pieces i]? = some mark := by
  induction pieces generalizing i with
  | nil =>
    obtain rfl : i = 0 := Nat.le_zero.1 le
    rfl
  | cons piece pieces ih =>
    cases i with
    | zero => rfl
    | succ i =>
      have place : markAt (piece :: pieces) (i + 1) = piece.length + markAt pieces i + 1 := by
        rw [markAt_succ]
        omega
      rw [place, ruled_cons, List.getElem?_cons_succ, List.getElem?_append_right (by omega), Nat.add_sub_cancel_left]
      exact ih (Nat.le_of_succ_le_succ le)

theorem length_ruled (mark : Char) (pieces : List (List Char)) :
    (ruled mark pieces).length = markAt pieces pieces.length + 1 := by
  induction pieces with
  | nil => rfl
  | cons piece pieces ih =>
    rw [ruled_cons, List.length_cons, List.length_append, ih, List.length_cons, markAt_succ]
    omega

theorem notMem_ruled {mark c : Char} {pieces : List (List Char)} (ne : c ≠ mark) (inside : ∀ piece ∈ pieces, c ∉ piece) :
    c ∉ ruled mark pieces := by
  intro mem
  rcases List.mem_cons.1 mem with eq | mem
  · exact ne eq
  · obtain ⟨piece, memPiece, mem⟩ := List.mem_flatMap.1 mem
    rcases List.mem_append.1 mem with mem | mem
    · exact inside piece memPiece mem
    · exact ne (List.mem_singleton.1 mem)

/-! ## The lines of a table -/

/-- what a border has between its marks -/
def rule (widths : List Nat) : List (List Char) := widths.map fun width => List.replicate width '-'

/-- what a line has between its separators: each cell behind a space and followed by the spaces up to its width -/
def pieces (widths : List Nat) (cells : List String) : List (List Char) :=
  List.zipWith (fun width cell => ' ' :: (cell.toList ++ List.replicate (width - cell.utf8ByteSize - 1) ' '))
    widths cells

/-- the lines of a table -/
def drawn (header : List String) (rows : List (List String)) : List (List Char) :=
  let widths := widths header rows
  let edge := ruled '+' (rule widths)
  [edge, ruled '|' (pieces widths header), edge] ++ rows.map (fun row => ruled '|' (pieces widths row)) ++ [edge]

/-- a line of a table is a border, or that of the header or a row -/
theorem mem_drawn {header : List String} {rows : List (List String)} {line : List Char} :
    line ∈ drawn header rows ↔ line = ruled '+' (rule (widths header rows)) ∨
      ∃ cells ∈ header :: rows, line = ruled '|' (pieces (widths header rows) cells) := by
  simp only [drawn, List.mem_append, List.mem_cons, List.mem_map, List.not_mem_nil, or_false, exists_eq_or_imp,
    eq_comm (b := line)]
  grind

theorem toList_times (n : Nat) (c : Char) : (times n c).toList = List.replicate n c := String.toList_ofList

theorem toList_border (widths : List Nat) : (border widths).toList = ruled '+' (rule widths) ++ ['\n'] := by
  simp [border, ruled, rule, toList_times, List.flatMap_map, String.toList_append, String.toList_join]

theorem toList_line (widths : List Nat) (cells : List String) :
    (line widths cells).toList = ruled '|' (pieces widths cells) ++ ['\n'] := by
  simp [line, ruled, pieces, padded, toList_times, List.flatMap_def, List.map_zipWith, String.toList_append,
    String.toList_join]

theorem toList_print (header : List String) (rows : List (List String)) :
    (print header rows).toList = (drawn header rows).flatMap (· ++ ['\n']) := by
  simp [print, drawn, toList_border, toList_line, List.flatMap_map, String.toList_append, String.toList_join]

theorem notMem_pieces {widths : List Nat} {cells : List String} (unbroken : ∀ cell ∈ cells, '\n' ∉ cell.toList) :
    ∀ piece ∈ pieces widths cells, '\n' ∉ piece := by
  induction cells generalizing widths with
  | nil => simp [pieces]
  | cons cell cells ih =>
    cases widths with
    | nil => simp [pieces]
    | cons width widths =>
      obtain ⟨first, rest⟩ := List.forall_mem_cons.1 unbroken
      exact List.forall_mem_cons.2 ⟨by simp [first], ih rest⟩

theorem lines_print {header : List String} {rows : List (List String)}
    (unbroken : ∀ cells ∈ header :: rows, ∀ cell ∈ cells, '\n' ∉ cell.toList) :
    Text.lines (print header rows) = drawn header rows := by
  refine Text.lines_of_toList (toList_print header rows) fun line mem => ?_
  rcases mem_drawn.1 mem with rfl | ⟨cells, memCells, rfl⟩
  · refine notMem_ruled (by decide) fun piece memPiece => ?_
    obtain ⟨width, -, rfl⟩ := List.mem_map.1 memPiece
    simp
  · exact notMem_ruled (by decide) (notMem_pieces (unbroken cells memCells))

/-! ## Separators and marks -/

/-- how many more bytes than characters some cells have -/
def excess (cells : List String) : Nat := (cells.map fun cell => cell.utf8ByteSize - cell.length).sum

theorem excess_eq_zero_iff (cells : List String) : excess cells = 0 ↔ ∀ cell ∈ cells, Text.IsAscii cell := by
  rw [excess, List.sum_eq_zero_iff, List.forall_mem_map]
  refine forall₂_congr fun cell _ => ?_
  rw [← Text.utf8ByteSize_eq_length_iff, Nat.sub_eq_zero_iff_le]
  exact ⟨fun le => Nat.le_antisymm le (Text.length_le_utf8ByteSize cell), Nat.le_of_eq⟩

theorem covers_cons {width : Nat} {widths : List Nat} {cell : String} {cells : List String} :
    Covers (width :: widths) (cell :: cells) ↔ cellWidth cell ≤ width ∧ Covers widths cells := by
  refine ⟨fun h => ⟨?_, fun i next there => h (i + 1) next there⟩, fun ⟨first, rest⟩ i next there => ?_⟩
  · obtain ⟨_, there, enough⟩ := h 0 cell rfl
    cases there
    exact enough
  · cases i with
    | zero =>
      cases there
      exact ⟨width, rfl, first⟩
    | succ i => exact rest i next there

/-- a separator stands as far in front of the mark above it as the cells before it have bytes in excess -/
theorem markAt_pieces {widths : List Nat} {cells : List String} (h : Covers widths cells) {i : Nat}
    (le : i ≤ cells.length) : markAt (pieces widths cells) i + excess (cells.take i) = markAt (rule widths) i := by
  induction cells generalizing widths i with
  | nil =>
    obtain rfl : i = 0 := Nat.le_zero.1 le
    rfl
  | cons cell cells ih =>
    cases i with
    | zero => rfl
    | succ i =>
      cases widths with
      | nil =>
        obtain ⟨_, none, -⟩ := h 0 cell rfl
        cases none
      | cons width widths =>
        obtain ⟨enough, rest⟩ := covers_cons.1 h
        have behind := ih rest (Nat.le_of_succ_le_succ le)
        have shorter := Text.length_le_utf8ByteSize cell
        rw [cellWidth] at enough
        simp only [pieces, rule, excess, List.zipWith_cons_cons, List.map_cons, markAt_succ, List.take_succ_cons,
          List.sum_cons, List.length_cons, List.length_append, List.length_replicate, String.length_toList] at behind ⊢
        omega

theorem length_widen (widths : List Nat) (cells : List String) :
    (widen widths cells).length = max widths.length cells.length := by
  induction cells generalizing widths with
  | nil => cases widths <;> simp [widen]
  | cons cell cells ih =>
    cases widths with
    | nil => simp [widen, ih]
    | cons width widths => simp [widen, ih]

section Even

variable {header : List String} {rows : List (List String)} {cells : List String}

theorem length_widths (even : ∀ row ∈ rows, row.length = header.length) :
    (widths header rows).length = header.length := by
  induction rows using List.reverseRecOn with
  | nil => simp [widths]
  | append_singleton rows row ih =>
    rw [widths_snoc, length_widen, ih fun r mem => even r (List.mem_append_left _ mem),
      even row (List.mem_append_right _ List.mem_cons_self), Nat.max_self]

theorem length_cells (even : ∀ row ∈ rows, row.length = header.length) (mem : cells ∈ header :: rows) :
    cells.length = (widths header rows).length := by
  rw [length_widths even]
  rcases List.mem_cons.1 mem with rfl | memRows
  · rfl
  · exact even cells memRows

theorem length_pieces (even : ∀ row ∈ rows, row.length = header.length) (mem : cells ∈ header :: rows) :
    (pieces (widths header rows) cells).length = cells.length := by
  rw [pieces, List.length_zipWith, ← length_cells even mem, Nat.min_self]

theorem length_rule (even : ∀ row ∈ rows, row.length = header.length) (mem : cells ∈ header :: rows) :
    (rule (widths header rows)).length = cells.length := by
  rw [rule, List.length_map, length_cells even mem]

/-- a line of cells whose separators are under the marks is as long as the border -/
theorem length_line (even : ∀ row ∈ rows, row.length = header.length) (mem : cells ∈ header :: rows)
    (straight : markAt (pieces (widths header rows) cells) cells.length
      = markAt (rule (widths header rows)) cells.length) :
    (ruled '|' (pieces (widths header rows) cells)).length = (ruled '+' (rule (widths header rows))).length := by
  rw [length_ruled, length_ruled, length_pieces even mem, length_rule even mem, straight]

end Even

/-! ## Main result -/

/-- all lines of the printed table have as many characters, and each separator stands under a mark of the border -/
structure Aligned (header : List String) (rows : List (List String)) : Prop where
  lengths : ∀ line ∈ Text.lines (print header rows), ∀ line' ∈ Text.lines (print header rows),
    line.length = line'.length
  separators : ∀ cells ∈ header :: rows, ∀ i ≤ cells.length,
    markAt (pieces (widths header rows) cells) i = markAt (rule (widths header rows)) i

/-- **A table is aligned exactly if it is ASCII.** Let each row have as many cells as the header, and no cell a line
break. The lines of the printed text are then the borders and the lines of cells, with a mark and a separator for each
column. A separator stands in front of its mark by as many characters as the cells before it have bytes in excess of
their characters. So the lines have one length and the separators stand under the marks if all cells are ASCII, and not
otherwise. -/
theorem aligned_iff_ascii (header : List String) (rows : List (List String))
    (even : ∀ row ∈ rows, row.length = header.length)
    (unbroken : ∀ cells ∈ header :: rows, ∀ cell ∈ cells, '\n' ∉ cell.toList) :
    Text.lines (print header rows) = drawn header rows ∧
    (∀ cells ∈ header :: rows, ∀ i ≤ cells.length,
      let pieces := pieces (widths header rows) cells
      let rule := rule (widths header rows)
      (ruled '|' pieces)[markAt pieces i]? = some '|' ∧ (ruled '+' rule)[markAt rule i]? = some '+' ∧
        markAt pieces i + excess (cells.take i) = markAt rule i) ∧
    (Aligned header rows ↔ ∀ cells ∈ header :: rows, ∀ cell ∈ cells, Text.IsAscii cell) := by
  have moved {cells : List String} (mem : cells ∈ header :: rows) {i : Nat} (le : i ≤ cells.length) :=
    markAt_pieces (covers_widths mem) le
  have lines := lines_print unbroken
  refine ⟨lines, fun cells mem i le => ⟨?_, ?_, moved mem le⟩, fun aligned cells mem => ?_, fun ascii => ?_⟩
  · exact getElem?_ruled '|' (length_pieces even mem ▸ le)
  · exact getElem?_ruled '+' (length_rule even mem ▸ le)
  · -- the last separator tells: in front of it are all cells of the line
    have last := moved mem le_rfl
    rw [aligned.separators cells mem _ le_rfl, List.take_length] at last
    exact (excess_eq_zero_iff cells).1 (by omega)
  · have straight : ∀ cells ∈ header :: rows, ∀ i ≤ cells.length,
        markAt (pieces (widths header rows) cells) i = markAt (rule (widths header rows)) i := by
      intro cells mem i le
      have none := (excess_eq_zero_iff (cells.take i)).2 fun cell memCell =>
        ascii cells mem cell (List.mem_of_mem_take memCell)
      have displaced := moved mem le
      omega
    have length : ∀ line ∈ drawn header rows, line.length = (ruled '+' (rule (widths header rows))).length := by
      intro line mem
      rcases mem_drawn.1 mem with rfl | ⟨cells, memCells, rfl⟩
      · rfl
      · exact length_line even memCells (straight cells memCells _ le_rfl)
    refine ⟨fun line mem line' mem' => ?_, straight⟩
    rw [lines] at mem mem'
    rw [length line mem, length line' mem']

/-- behind two characters of three bytes each, the last separator of a row stands four places too far to the left -/
theorem aligned_iff_ascii_wide :
    let header := ["id", "name"]
    let rows := [["1", "日本"], ["22", "a|b"]]
    (∀ row ∈ rows, row.length = header.length) ∧ (∀ cells ∈ header :: rows, ∀ cell ∈ cells, '\n' ∉ cell.toList) ∧
      markAt (pieces (widths header rows) ["1", "日本"]) 1 = markAt (rule (widths header rows)) 1 ∧
      markAt (pieces (widths header rows) ["1", "日本"]) 2 + 4 = markAt (rule (widths header rows)) 2 ∧
      ¬ Aligned header rows := by
  intro header rows
  have even : ∀ row ∈ rows, row.length = header.length := by decide
  have unbroken : ∀ cells ∈ header :: rows, ∀ cell ∈ cells, '\n' ∉ cell.toList := by decide +kernel
  obtain ⟨-, moved, iff⟩ := aligned_iff_ascii header rows even unbroken
  have mem : ["1", "日本"] ∈ header :: rows := by decide
  have one : excess (["1", "日本"].take 1) = 0 := by decide +kernel
  have both : excess (["1", "日本"].take 2) = 4 := by decide +kernel
  refine ⟨even, unbroken, ?_, ?_, fun aligned => ?_⟩
  · have first := (moved _ mem 1 (by decide)).2.2
    rwa [one] at first
  · have last := (moved _ mem 2 (by decide)).2.2
    rwa [both] at last
  · have ascii := iff.1 aligned _ mem "日本" (by decide) '日' (by decide +kernel)
    exact absurd ascii (by decide)

/-- the header of one column is a letter of two bytes, and its line is shorter than the border above it -/
theorem not_always_aligned :
    ¬ ∀ (header : List String) (rows : List (List String)), (∀ row ∈ rows, row.length = header.length) →
      (∀ cells ∈ header :: rows, ∀ cell ∈ cells, '\n' ∉ cell.toList) → Aligned header rows := by
  intro always
  have aligned := always ["é"] [["ab"]] (by decide) (by decide +kernel)
  have lines : Text.lines (print ["é"] [["ab"]])
      = ["+----+".toList, "| é |".toList, "+----+".toList, "| ab |".toList, "+----+".toList] := by
    decide +kernel
  have same := aligned.lengths "+----+".toList (by rw [lines]; decide) "| é |".toList (by rw [lines]; decide)
  exact absurd same (by decide +kernel)

end Grid
end TableStore
