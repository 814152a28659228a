/-
Sorting records by a column.

The sort of a plan compares records by optional values and splits and merges them; the sort of the query language
inserts each record, from the last one on, in front of the first one that it may precede. Both keep records with the
same value in their order, in both directions (`filter_mergeSort`), so they are the same function (`sortBy_ofFields`).
A column that no record has leaves the records as they are (`sortBy_missing`).

Values compare as texts in the plan and as bytes in the query language (`Text.le_iff_utf8_le`).
-/
import Mathlib.Data.List.Sort
import TableStore.Proofs.Query.Fields
import TableStore.Proofs.Text.ByteOrder

namespace TableStore

/-! ## Stable sorts -/

section Stable

variable {α : Type} (r : α → α → Prop) [DecidableRel r]

theorem orderedInsert_append {a : α} {l₁ l₂ : List α} (before : ∀ b ∈ l₁, ¬ r a b) (behind : ∀ b ∈ l₂, r a b) :
    (l₁ ++ l₂).orderedInsert r a = l₁ ++ a :: l₂ := by
  induction l₁ with
  | nil =>
    cases l₂ with
    | nil => rfl
    | cons b rest => exact List.orderedInsert_cons_of_le r rest (behind b List.mem_cons_self)
  | cons b rest ih =>
    rw [List.cons_append, List.orderedInsert_of_not_le r _ (before b List.mem_cons_self)]
    rw [ih fun c mem => before c (List.mem_cons_of_mem _ mem)]
    rfl

/-- under a total and transitive relation, which need not tell different elements apart, both sorts are the same -/
theorem mergeSort_eq_insertionSort_of_total (trans : ∀ a b c, r a b → r b c → r a c) (total : ∀ a b, r a b ∨ r b a)
    (l : List α) : l.mergeSort (fun a b => decide (r a b)) = l.insertionSort r := by
  have trans' : ∀ a b c, decide (r a b) = true → decide (r b c) = true → decide (r a c) = true := by
    simpa using trans
  have total' : ∀ a b, (decide (r a b) || decide (r b a)) = true := by simpa using total
  induction l with
  | nil => exact List.mergeSort_nil
  | cons a l ih =>
    obtain ⟨l₁, l₂, whole, part, before⟩ := List.mergeSort_cons trans' total' a l
    have sorted := List.pairwise_mergeSort trans' total' (a :: l)
    rw [whole] at sorted
    have behind : ∀ b ∈ l₂, r a b := by
      intro b mem
      have rising := (List.pairwise_append.1 sorted).2.1
      simpa using (List.pairwise_cons.1 rising).1 b mem
    rw [List.insertionSort_cons, ← ih, part, whole]
    exact (orderedInsert_append r (by simpa using before) behind).symm

end Stable

section Keys

variable {α κ : Type} (key : α → κ) (r : κ → κ → Prop) [DecidableRel r]
  (trans : ∀ a b c, r a b → r b c → r a c) (total : ∀ a b, r a b ∨ r b a)

include trans total

theorem pairwise_mergeSort_key (l : List α) :
    (l.mergeSort fun a b => decide (r (key a) (key b))).Pairwise fun a b => r (key a) (key b) := by
  have sorted : (l.mergeSort fun a b => decide (r (key a) (key b))).Pairwise
      fun a b => decide (r (key a) (key b)) = true :=
    List.pairwise_mergeSort (by simpa using fun a b c => trans (key a) (key b) (key c))
      (by simpa using fun a b => total (key a) (key b)) l
  simpa using sorted

/-- a merge sort by a key leaves the elements of one key as they stood -/
theorem filter_mergeSort [DecidableEq κ] (l : List α) (k : κ) :
    (l.mergeSort fun a b => decide (r (key a) (key b))).filter (key · = k) = l.filter (key · = k) := by
  -- the elements of the key are in order already, so the sort keeps them as a sublist, and it has no more of them
  have equals : (l.filter (key · = k)).Pairwise fun a b => decide (r (key a) (key b)) = true := by
    refine List.pairwise_of_forall_mem_list fun a memA b memB => ?_
    have keyA : key a = k := by simpa using (List.mem_filter.1 memA).2
    have keyB : key b = k := by simpa using (List.mem_filter.1 memB).2
    rw [keyA, keyB]
    exact decide_eq_true ((total k k).elim id id)
  have whole : (l.filter (key · = k)).Sublist (l.mergeSort fun a b => decide (r (key a) (key b))) :=
    List.sublist_mergeSort (by simpa using fun a b c => trans (key a) (key b) (key c))
      (by simpa using fun a b => total (key a) (key b)) equals List.filter_sublist
  have kept := whole.filter (key · = k)
  simp only [List.filter_filter, Bool.and_self] at kept
  exact (kept.eq_of_length ((List.mergeSort_perm l _).filter _).length_eq.symm).symm

end Keys

/-! ## Sorting by a column -/

/-- the order of a direction on the bytes of values -/
def Direction.le : Direction → Bytes → Bytes → Prop
  | .ascending, a, b => a ≤ b
  | .descending, a, b => b ≤ a

instance (direction : Direction) : DecidableRel direction.le := fun a b =>
  match direction with
  | .ascending => inferInstanceAs (Decidable (a ≤ b))
  | .descending => inferInstanceAs (Decidable (b ≤ a))

theorem Direction.le_trans (direction : Direction) (a b c : Bytes) (ab : direction.le a b) (bc : direction.le b c) :
    direction.le a c := by
  cases direction with
  | ascending => exact List.le_trans ab bc
  | descending => exact List.le_trans bc ab

theorem Direction.le_total (direction : Direction) (a b : Bytes) : direction.le a b ∨ direction.le b a := by
  cases direction with
  | ascending => exact List.le_total a b
  | descending => exact List.le_total b a

/-- what fields are sorted by: the bytes of the value of a column -/
def sortKey (column : String) (fields : List Field) : Bytes := Text.utf8 ((valueIn column fields).getD "")

/-- the stable sort by the value of a column -/
def sortFields (column : String) (direction : Direction) (rows : List (List Field)) : List (List Field) :=
  rows.insertionSort fun a b => direction.le (sortKey column a) (sortKey column b)

theorem sortFields_eq_mergeSort (column : String) (direction : Direction) (rows : List (List Field)) :
    sortFields column direction rows
      = rows.mergeSort fun a b => decide (direction.le (sortKey column a) (sortKey column b)) :=
  (mergeSort_eq_insertionSort_of_total (fun a b => direction.le (sortKey column a) (sortKey column b))
    (fun _ _ _ => direction.le_trans _ _ _) (fun _ _ => direction.le_total _ _) rows).symm

/-- The sort loses and adds no row, puts keys in order, and leaves the rows of one key as they stood. -/
theorem sortFields_stable (column : String) (direction : Direction) (rows : List (List Field)) :
    (sortFields column direction rows).Perm rows
      ∧ (sortFields column direction rows).Pairwise
          (fun a b => direction.le (sortKey column a) (sortKey column b))
      ∧ ∀ key, (sortFields column direction rows).filter (sortKey column · = key)
          = rows.filter (sortKey column · = key) := by
  rw [sortFields_eq_mergeSort]
  exact ⟨List.mergeSort_perm _ _,
    pairwise_mergeSort_key (sortKey column) direction.le direction.le_trans direction.le_total rows,
    filter_mergeSort (sortKey column) direction.le direction.le_trans direction.le_total rows⟩

theorem valueIn_isSome_iff (column : String) (fields : List Field) :
    (valueIn column fields).isSome ↔ column ∈ fields.map (·.column) := by
  simp [valueIn, List.find?_isSome]

/-- records that all have the column are sorted stably by its values -/
theorem sortBy_ofFields (column : String) (direction : Direction) (rows : List (List Field))
    (present : ∀ fields ∈ rows, column ∈ fields.map (·.column)) :
    Step.sortBy column direction (rows.map Record.ofFields)
      = (sortFields column direction rows).map Record.ofFields := by
  rw [sortFields_eq_mergeSort, Step.sortBy]
  refine (List.map_mergeSort fun a memA b memB => ?_).symm
  obtain ⟨x, hx⟩ := Option.isSome_iff_exists.1 ((valueIn_isSome_iff column a).2 (present a memA))
  obtain ⟨y, hy⟩ := Option.isSome_iff_exists.1 ((valueIn_isSome_iff column b).2 (present b memB))
  simp only [Record.value?_ofFields, sortKey, hx, hy, Option.getD_some]
  cases direction with
  | ascending => exact decide_eq_decide.2 (Text.le_iff_utf8_le x y).symm
  | descending => exact decide_eq_decide.2 (Text.le_iff_utf8_le y x).symm

/-- records of which none has the column keep their order -/
theorem sortBy_missing (column : String) (direction : Direction) (rows : List (List Field))
    (missing : ∀ fields ∈ rows, column ∉ fields.map (·.column)) :
    Step.sortBy column direction (rows.map Record.ofFields) = rows.map Record.ofFields := by
  have none : ∀ record ∈ rows.map Record.ofFields, record.value? column = none := by
    intro record mem
    obtain ⟨fields, memF, rfl⟩ := List.mem_map.1 mem
    rw [Record.value?_ofFields, ← Option.not_isSome_iff_eq_none]
    exact fun some => missing fields memF ((valueIn_isSome_iff column fields).1 some)
  refine List.mergeSort_of_pairwise (List.pairwise_of_forall_mem_list fun a memA b memB => ?_)
  simp only [none a memA, none b memB]
  cases direction <;> rfl

end TableStore
