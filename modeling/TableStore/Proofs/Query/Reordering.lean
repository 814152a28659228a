/-
Filter and sort in either order.

The records that a filter keeps of a stably sorted list are the stably sorted list of the records that it keeps
(`StablySorted.filter`), because a stable order leaves no choice. What remains is the column: a sort without a name looks
at the first column of the first record, and a filter may drop that record. Where all records have the same columns, the
next one names the same column.

Results:
  sorted_filter              filtering the sorted records is sorting the filtered ones, if the filter cannot change the
                             column;
  filter_and_sort_commute    the two steps of a plan answer the same in both orders, for records that have the same
                             columns.
-/
import Mathlib.Tactic
import TableStore.Proofs.Query.Meaning
import TableStore.Proofs.Query.Stability

namespace TableStore

/-- a filter keeps the records of a stable order in their stable order -/
theorem StablySorted.filter {column : String} {direction : Direction} {records sorted : List Record}
    (h : StablySorted column direction records sorted) (keep : Record → Bool) :
    StablySorted column direction (records.filter keep) (sorted.filter keep) where
  perm := h.perm.filter keep
  ordered := h.ordered.filter keep
  stable key := by rw [List.filter_comm, h.stable key, List.filter_comm]

namespace Step

theorem sortBy_filter (column : String) (direction : Direction) (keep : Record → Bool) (records : List Record) :
    sortBy column direction (records.filter keep) = (sortBy column direction records).filter keep :=
  (stablySorted_sortBy column direction _).unique ((stablySorted_sortBy column direction records).filter keep)

/-- of records with the same columns any one names the column of a sort -/
theorem sortColumn_of_mem {records : List Record} (same : ∀ r ∈ records, ∀ r' ∈ records, r.columns = r'.columns)
    (order : Order) {r : Record} (mem : r ∈ records) :
    sortColumn order records = (order.column <|> r.columns.head?) := by
  cases records with
  | nil => cases mem
  | cons first rest =>
    rw [sortColumn_eq, same r mem first List.mem_cons_self]
    rfl

/-- sorting what a filter keeps is filtering what a sort answers -/
theorem sorted_filter {records : List Record} (same : ∀ r ∈ records, ∀ r' ∈ records, r.columns = r'.columns)
    (order : Order) (keep : Record → Bool) :
    sorted order (records.filter keep) = (sorted order records).filter keep := by
  cases kept : records.filter keep with
  | nil =>
    -- nothing is left to name a column, and nothing is kept of the sorted records either
    have none : (sorted order records).filter keep = [] := by
      rw [List.filter_eq_nil_iff] at kept ⊢
      exact fun r mem => kept r (mem_sorted.1 mem)
    rw [none, sorted]
    split
    · exact List.mergeSort_nil
    · rfl
  | cons r rest =>
    have memKept : r ∈ records.filter keep := kept ▸ List.mem_cons_self
    have sameKept : ∀ a ∈ records.filter keep, ∀ b ∈ records.filter keep, a.columns = b.columns :=
      fun a memA b memB => same a (List.mem_of_mem_filter memA) b (List.mem_of_mem_filter memB)
    have column : sortColumn order (records.filter keep) = sortColumn order records := by
      rw [sortColumn_of_mem sameKept order memKept, sortColumn_of_mem same order (List.mem_of_mem_filter memKept)]
    rw [← kept, sorted, sorted, column]
    cases sortColumn order records with
    | none => rfl
    | some name => exact sortBy_filter name order.direction keep records

end Step

namespace Plan

/-- **Filter and sort commute.** On records that all have the same columns, whatever they are, a filter and a sort
answer the same records in the same order whichever of them comes first: for both comparisons, with any column and
literal, and for both directions, by a named column, by one that no record has, or by the first column. Neither asks the
source for anything or fails. -/
theorem filter_and_sort_commute {m : Type → Type} [Monad m] [LawfulMonad m] (source : Source m) (condition : Predicate)
    (order : Order) (records : List Record) (same : ∀ r ∈ records, ∀ r' ∈ records, r.columns = r'.columns) :
    ∃ result, ([.filter condition, .sort order] : Plan).foldlM (fun records step => step.run source records) records
        = (pure result : ExceptT Error m (List Record)) ∧
      ([.sort order, .filter condition] : Plan).foldlM (fun records step => step.run source records) records
        = (pure result : ExceptT Error m (List Record)) := by
  refine ⟨(Step.sorted order records).filter condition.holds, ?_, ?_⟩
  · rw [Step.foldlM_transform source _ (by simp [Step.isScan])]
    simp only [List.foldl_cons, List.foldl_nil, Step.transform, Step.sorted_filter same]
  · rw [Step.foldlM_transform source _ (by simp [Step.isScan])]
    rfl

/-- the first record names the column of the sort, and the filter drops it -/
theorem filter_and_sort_commute_first :
    let nothing : Source Id := { schema := fun table => throw (.tableNotFound table), rows := fun _ => pure [] }
    let record (key value : String) : Record := ⟨["key", "value"], ["string", "string"], [key, value]⟩
    let records := [record "5" "pen", record "1" "ink", record "3" "ink"]
    let steps : Plan := [.filter (.equal "value" "ink"), .sort ⟨none, .descending⟩]
    LawfulMonad Id ∧ (∀ r ∈ records, ∀ r' ∈ records, r.columns = r'.columns) ∧
      steps.foldlM (fun records step => step.run nothing records) records
        = (pure [record "3" "ink", record "1" "ink"] : ExceptT Error Id (List Record)) ∧
      steps.reverse.foldlM (fun records step => step.run nothing records) records
        = (pure [record "3" "ink", record "1" "ink"] : ExceptT Error Id (List Record)) := by
  intro nothing record records steps
  have same : ∀ r ∈ records, ∀ r' ∈ records, r.columns = r'.columns := by decide
  obtain ⟨result, filtered, sorted⟩ :=
    filter_and_sort_commute nothing (.equal "value" "ink") ⟨none, .descending⟩ records same
  have known : result = [record "3" "ink", record "1" "ink"] := by
    have ran : steps.foldlM (fun records step => step.run nothing records) records
        = (pure [record "3" "ink", record "1" "ink"] : ExceptT Error Id (List Record)) := by
      cbv
    exact Except.ok.inj (filtered.symm.trans ran)
  exact ⟨inferInstance, same, known ▸ filtered, known ▸ sorted⟩

/-- where the columns differ, a filter may change the column that the first record names -/
example :
    let first : Record := ⟨["a", "c"], ["string", "string"], ["1", "x"]⟩
    let record (value : String) : Record := ⟨["b", "c"], ["string", "string"], [value, "y"]⟩
    let records := [first, record "2", record "1"]
    let keep := (Predicate.equal "c" "y").holds
    Step.sorted ⟨none, .ascending⟩ (records.filter keep) = [record "1", record "2"] ∧
      (Step.sorted ⟨none, .ascending⟩ records).filter keep = [record "2", record "1"] := by
  refine ⟨?_, ?_⟩
  · cbv
  · cbv

end Plan
end TableStore
