/-
The sort step of a plan as a stable sort.

Any list that has the records of another one, in order of their keys and those of one key as they stood, is the same
list (`StablySorted.unique`): keys compare by a linear order, so no choice is left. What the step answers is such a list
(`stablySorted_sortBy`), whichever columns the records have, and the laws of sorting are instances of the uniqueness.

Results:
  sorted_stably   the step answers the records in a stable order by the first value of the column; sorted once more
                  they stay; the descending order is the ascending one of the reversed records, reversed; and a column
                  that no record has changes nothing.

The key of a record is the bytes of its value, or nothing for a record without the column; nothing comes before all
bytes.
-/
import Mathlib.Tactic
import TableStore.Proofs.Query.Sorting

namespace TableStore

/-! ## Lists in a stable order -/

section Orders

variable {α κ : Type} [DecidableEq κ] {key : α → κ} {r : κ → κ → Prop}

/-- the first key of a list in order stands before every key of a list that agrees with it on each key -/
theorem rel_head_of_filter_eq {a b : α} {l₁ l₂ : List α} (rising : (a :: l₁).Pairwise fun a b => r (key a) (key b))
    (refl : ∀ k, r k k) (same : ∀ k, (a :: l₁).filter (key · = k) = (b :: l₂).filter (key · = k)) :
    r (key a) (key b) := by
  have mem : b ∈ (a :: l₁).filter (key · = key b) := by simp [same]
  rcases List.mem_cons.1 (List.mem_filter.1 mem).1 with rfl | behind
  · exact refl _
  · exact (List.pairwise_cons.1 rising).1 b behind

/-- two lists in order of an antisymmetric relation on keys are equal if they agree on each key -/
theorem eq_of_filter_eq (refl : ∀ k, r k k) (antisymm : ∀ a b, r a b → r b a → a = b) {l₁ l₂ : List α}
    (rising₁ : l₁.Pairwise fun a b => r (key a) (key b)) (rising₂ : l₂.Pairwise fun a b => r (key a) (key b))
    (same : ∀ k, l₁.filter (key · = k) = l₂.filter (key · = k)) : l₁ = l₂ := by
  induction l₁ generalizing l₂ with
  | nil =>
    cases l₂ with
    | nil => rfl
    | cons b l₂ => simpa using same (key b)
  | cons a l₁ ih =>
    cases l₂ with
    | nil => simpa using same (key a)
    | cons b l₂ =>
      -- each head's key is the least of both lists, and elements of one key are in the same order in both
      have keys : key a = key b :=
        antisymm _ _ (rel_head_of_filter_eq rising₁ refl same)
          (rel_head_of_filter_eq rising₂ refl fun k => (same k).symm)
      have heads : a = b := by
        have := same (key a)
        simp only [List.filter_cons, keys, decide_true, if_true, List.cons.injEq] at this
        exact this.1
      have tails : l₁ = l₂ := by
        refine ih (List.pairwise_cons.1 rising₁).2 (List.pairwise_cons.1 rising₂).2 fun k => ?_
        have := same k
        rw [heads] at this
        by_cases isKey : key b = k
        · simpa [List.filter_cons, isKey] using this
        · simpa [List.filter_cons, isKey] using this
      rw [heads, tails]

end Orders

/-! ## The keys of records -/

/-- the bytes of the first value that stands under a column of the name, if the record has one -/
def Record.keyOf (column : String) (r : Record) : Option Bytes :=
  ((r.columns.zip r.values).find? (·.1 == column)).map fun field => Text.utf8 field.2

theorem Record.value?_map_utf8 (column : String) (r : Record) :
    (r.value? column).map Text.utf8 = r.keyOf column := by
  obtain ⟨columns, types, values⟩ := r
  simp only [value?, index?, keyOf, Option.bind_eq_bind]
  induction columns generalizing values with
  | nil => simp
  | cons name columns ih =>
    cases values with
    | nil => simp
    | cons value values =>
      by_cases h : name = column
      · simp [List.idxOf?_cons, h]
      · simp only [List.idxOf?_cons, List.zip_cons_cons, List.find?_cons, beq_eq_false_iff_ne.2 h]
        rw [← ih]
        simp [Option.bind_map]

theorem Record.keyOf_eq_none {column : String} {r : Record} (missing : column ∉ r.columns) : r.keyOf column = none := by
  rw [keyOf, Option.map_eq_none_iff, List.find?_eq_none]
  rintro field mem isColumn
  exact missing (beq_iff_eq.1 isColumn ▸ (List.of_mem_zip mem).1)

/-- a record with a value for each column has a key iff it has the column -/
theorem Record.keyOf_eq_none_iff {r : Record} (h : r.Lockstep) (column : String) :
    r.keyOf column = none ↔ column ∉ r.columns := by
  refine ⟨fun none mem => ?_, keyOf_eq_none⟩
  rw [keyOf, Option.map_eq_none_iff, List.find?_eq_none] at none
  have names : (r.columns.zip r.values).map Prod.fst = r.columns := List.map_fst_zip h.2.ge
  rw [← names] at mem
  obtain ⟨field, memField, isColumn⟩ := List.mem_map.1 mem
  exact none field memField (beq_iff_eq.2 isColumn)

/-- the order of keys: a record without the value first, then by the bytes of the value -/
def keyLe : Option Bytes → Option Bytes → Prop
  | none, _ => True
  | some _, none => False
  | some a, some b => a ≤ b

instance : DecidableRel keyLe
  | none, _ => isTrue trivial
  | some _, none => isFalse id
  | some a, some b => inferInstanceAs (Decidable (a ≤ b))

theorem keyLe_trans (a b c : Option Bytes) (ab : keyLe a b) (bc : keyLe b c) : keyLe a c := by
  match a, b, c, ab, bc with
  | none, _, _, _, _ => trivial
  | some _, some _, some _, ab, bc => exact List.le_trans ab bc

theorem keyLe_total (a b : Option Bytes) : keyLe a b ∨ keyLe b a := by
  match a, b with
  | none, _ => exact .inl trivial
  | some _, none => exact .inr trivial
  | some a, some b => exact List.le_total a b

theorem keyLe_antisymm (a b : Option Bytes) (ab : keyLe a b) (ba : keyLe b a) : a = b := by
  match a, b, ab, ba with
  | none, none, _, _ => rfl
  | some _, some _, ab, ba => exact congrArg some (List.le_antisymm ab ba)

/-- the order of a direction on keys -/
def Direction.keyLe : Direction → Option Bytes → Option Bytes → Prop
  | .ascending, a, b => TableStore.keyLe a b
  | .descending, a, b => TableStore.keyLe b a

instance (direction : Direction) : DecidableRel direction.keyLe := fun a b =>
  match direction with
  | .ascending => inferInstanceAs (Decidable (TableStore.keyLe a b))
  | .descending => inferInstanceAs (Decidable (TableStore.keyLe b a))

theorem Direction.keyLe_trans (direction : Direction) (a b c : Option Bytes) (ab : direction.keyLe a b)
    (bc : direction.keyLe b c) : direction.keyLe a c := by
  cases direction with
  | ascending => exact TableStore.keyLe_trans a b c ab bc
  | descending => exact TableStore.keyLe_trans c b a bc ab

theorem Direction.keyLe_total (direction : Direction) (a b : Option Bytes) :
    direction.keyLe a b ∨ direction.keyLe b a := by
  cases direction with
  | ascending => exact TableStore.keyLe_total a b
  | descending => exact TableStore.keyLe_total b a

theorem Direction.keyLe_refl (direction : Direction) (a : Option Bytes) : direction.keyLe a a :=
  (direction.keyLe_total a a).elim id id

theorem Direction.keyLe_antisymm (direction : Direction) (a b : Option Bytes) (ab : direction.keyLe a b)
    (ba : direction.keyLe b a) : a = b := by
  cases direction with
  | ascending => exact TableStore.keyLe_antisymm a b ab ba
  | descending => exact TableStore.keyLe_antisymm a b ba ab

theorem valueLe_iff_keyLe (a b : Option String) :
    Step.valueLe a b = true ↔ keyLe (a.map Text.utf8) (b.map Text.utf8) := by
  cases a with
  | none => simp [Step.valueLe, keyLe]
  | some a =>
    cases b with
    | none => simp [Step.valueLe, keyLe]
    | some b => simpa [Step.valueLe, keyLe] using Text.le_iff_utf8_le a b

/-! ## The step -/

/-- the records of a list in order of their keys, those of one key as they stand in the list -/
structure StablySorted (column : String) (direction : Direction) (records sorted : List Record) : Prop where
  perm : sorted.Perm records
  ordered : sorted.Pairwise fun a b => direction.keyLe (a.keyOf column) (b.keyOf column)
  stable : ∀ key, sorted.filter (·.keyOf column = key) = records.filter (·.keyOf column = key)

/-- there is one stable order only -/
theorem StablySorted.unique {column : String} {direction : Direction} {records sorted sorted' : List Record}
    (h : StablySorted column direction records sorted) (h' : StablySorted column direction records sorted') :
    sorted = sorted' :=
  eq_of_filter_eq direction.keyLe_refl direction.keyLe_antisymm h.ordered h'.ordered
    fun key => (h.stable key).trans (h'.stable key).symm

theorem StablySorted.reverse {column : String} {records sorted : List Record}
    (h : StablySorted column .ascending records.reverse sorted) :
    StablySorted column .descending records sorted.reverse where
  perm := (List.reverse_perm sorted).trans (h.perm.trans (List.reverse_perm records))
  ordered := List.pairwise_reverse.2 h.ordered
  stable key := by rw [List.filter_reverse, h.stable key, List.filter_reverse, List.reverse_reverse]

/-- sorted records are in the stable order already -/
theorem StablySorted.self {column : String} {direction : Direction} {records sorted : List Record}
    (h : StablySorted column direction records sorted) : StablySorted column direction sorted sorted where
  perm := .refl _
  ordered := h.ordered
  stable _ := rfl

/-- records without the column are all alike to the sort -/
theorem StablySorted.of_missing {column : String} {direction : Direction} {records : List Record}
    (missing : ∀ r ∈ records, column ∉ r.columns) : StablySorted column direction records records where
  perm := .refl _
  ordered := List.pairwise_of_forall_mem_list fun a memA b memB => by
    rw [Record.keyOf_eq_none (missing a memA), Record.keyOf_eq_none (missing b memB)]
    exact direction.keyLe_refl none
  stable _ := rfl

namespace Step

theorem sortColumn_eq (order : Order) (records : List Record) :
    sortColumn order records = (order.column <|> (records.head?.bind fun r => r.columns.head?)) := by
  rcases order with ⟨_ | column, direction⟩ <;> rfl

theorem sortBy_eq_mergeSort (column : String) (direction : Direction) (records : List Record) :
    sortBy column direction records
      = records.mergeSort fun a b => decide (direction.keyLe (a.keyOf column) (b.keyOf column)) := by
  refine congrArg (fun le => records.mergeSort le) (funext₂ fun a b => ?_)
  rw [Bool.eq_iff_iff, decide_eq_true_iff, ← Record.value?_map_utf8, ← Record.value?_map_utf8]
  cases direction with
  | ascending => exact valueLe_iff_keyLe _ _
  | descending => exact valueLe_iff_keyLe _ _

theorem stablySorted_sortBy (column : String) (direction : Direction) (records : List Record) :
    StablySorted column direction records (sortBy column direction records) := by
  rw [sortBy_eq_mergeSort]
  exact ⟨List.mergeSort_perm _ _,
    pairwise_mergeSort_key (·.keyOf column) direction.keyLe direction.keyLe_trans direction.keyLe_total records,
    filter_mergeSort (·.keyOf column) direction.keyLe direction.keyLe_trans direction.keyLe_total records⟩

theorem mem_sorted {order : Order} {records : List Record} {r : Record} :
    r ∈ sorted order records ↔ r ∈ records := by
  rw [sorted]
  split
  · exact (stablySorted_sortBy _ order.direction records).perm.mem_iff
  · rfl

/-- **The sort step is a stable sort.** It looks at the named column, or else at the first column of the first record;
without either it answers the records as they are. Otherwise it answers all of them in order of the bytes of their
first value in that column, records without the column first in ascending and last in descending order, and records
with equal keys in the order they came in, in both directions. So for a named column sorting twice is sorting once,
the descending order is the ascending one of the reversed records, reversed, and a column that no record has changes
nothing. -/
theorem sorted_stably (order : Order) (records : List Record) :
    (match order.column <|> (records.head?.bind fun r => r.columns.head?) with
      | none => sorted order records = records
      | some column => StablySorted column order.direction records (sorted order records)) ∧
    (∀ column, ∀ r ∈ records, r.Lockstep → (r.keyOf column = none ↔ column ∉ r.columns)) ∧
    ∀ column direction,
      sorted ⟨some column, direction⟩ (sorted ⟨some column, direction⟩ records)
        = sorted ⟨some column, direction⟩ records ∧
      sorted ⟨some column, .descending⟩ records = (sorted ⟨some column, .ascending⟩ records.reverse).reverse ∧
      ((∀ r ∈ records, column ∉ r.columns) → sorted ⟨some column, direction⟩ records = records) := by
  refine ⟨?_, fun column r _ lockstep => Record.keyOf_eq_none_iff lockstep column, fun column direction => ?_⟩
  · rw [← sortColumn_eq, sorted]
    cases sortColumn order records with
    | none => rfl
    | some column => exact stablySorted_sortBy column order.direction records
  · simp only [sorted, sortColumn]
    have stably := stablySorted_sortBy column
    refine ⟨?_, ?_, fun missing => ?_⟩
    · exact (stably direction _).unique (stably direction records).self
    · exact (stably .descending records).unique (stably .ascending records.reverse).reverse
    · exact (stably direction records).unique (StablySorted.of_missing missing)

end Step
end TableStore
