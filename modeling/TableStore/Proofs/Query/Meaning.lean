/-
The meaning of a select, and that plans compute it.

`Select.meaning` answers a select from a schema and rows without any plan: rows are finite maps, read as lists of
fields in the schema's order; the comparison keeps some, the sort orders them by the bytes of a value, a slice is
taken, and of every row the selected fields are shown. Each clause that is absent changes nothing.

Results:
  run_ofSelect   for every select and every source of tables, whatever its effects and failures, the plan of the
                 select asks the source once for the schema and once for the rows, passes on the first failure under
                 one sentence of context, and otherwise answers the meaning of the select.

The steps after the scan cannot fail (`foldlM_transform`), and each does to records what its clause does to lists of
fields (`filter_ofFields`, `sorted_ofFields`, `sliced_eq_part`, `Record.project_ofFields`). All rows of a scan have the
schema's columns (`Uniform`), which is why the first column of the first record is the schema's first column.
-/
import TableStore.Proofs.Query.Sorting

namespace TableStore

/-! ## The meaning -/

/-- the column of the comparison is there, and its value is equal or not equal to the literal -/
def Predicate.holdsOf : Predicate → List Field → Bool
  | .equal column value, fields => (valueIn column fields).any (· == value)
  | .notEqual column value, fields => (valueIn column fields).any (· != value)

namespace Select

/-- the rows that fulfil the comparison, if there is one -/
def kept (condition : Option Predicate) (rows : List (List Field)) : List (List Field) :=
  match condition with
  | none => rows
  | some p => rows.filter p.holdsOf

/-- the rows in order of the named column or else of the schema's first one, if the schema has it -/
def ordered (schema : Schema) (order : Option Order) (rows : List (List Field)) : List (List Field) :=
  match order with
  | none => rows
  | some o =>
    match o.column <|> schema.names.head? with
    | none => rows
    | some column => if column ∈ schema.names then sortFields column o.direction rows else rows

/-- the rows behind the first `offset`, at most `limit` of them -/
def part {α : Type} (limit offset : Option Nat) (rows : List α) : List α :=
  match limit with
  | none => rows.drop (offset.getD 0)
  | some n => (rows.drop (offset.getD 0)).take n

/-- what a select answers of a table with this schema and these rows -/
def meaning (s : Select) (schema : Schema) (rows : List (String → Option String)) : List Record :=
  let found := part s.limit s.offset (ordered schema s.order (kept s.condition (rows.map schema.fieldsOf)))
  found.map fun fields => Record.ofFields (fields.filter fun field => s.selection.contains field.column)

end Select

/-! ## Clause by clause -/

/-- all rows have the columns of the schema -/
def Uniform (schema : Schema) (rows : List (List Field)) : Prop :=
  ∀ fields ∈ rows, fields.map (·.column) = schema.names

theorem uniform_fieldsOf (schema : Schema) (rows : List (String → Option String)) :
    Uniform schema (rows.map schema.fieldsOf) := by
  intro fields mem
  obtain ⟨row, -, rfl⟩ := List.mem_map.1 mem
  simp [Schema.fieldsOf, Schema.names, Function.comp_def]

theorem Uniform.kept {schema : Schema} {rows : List (List Field)} (h : Uniform schema rows)
    (condition : Option Predicate) : Uniform schema (Select.kept condition rows) := by
  cases condition with
  | none => exact h
  | some p => exact fun fields mem => h fields (List.mem_of_mem_filter mem)

theorem holds_ofFields (p : Predicate) (fields : List Field) : p.holds (Record.ofFields fields) = p.holdsOf fields := by
  cases p with
  | equal column value =>
    simp only [Predicate.holds, Record.has, Record.value?_ofFields, Predicate.holdsOf]
    cases valueIn column fields <;> simp
  | notEqual column value =>
    simp only [Predicate.holds, Record.value?_ofFields, Predicate.holdsOf]
    cases valueIn column fields <;> rfl

theorem filter_ofFields (p : Predicate) (rows : List (List Field)) :
    (rows.map Record.ofFields).filter p.holds = (Select.kept (some p) rows).map Record.ofFields := by
  rw [List.filter_map, Select.kept]
  exact congrArg _ (List.filter_congr fun fields _ => holds_ofFields p fields)

theorem sortColumn_ofFields {schema : Schema} {fields : List Field} {rows : List (List Field)}
    (h : Uniform schema (fields :: rows)) (order : Order) :
    Step.sortColumn order ((fields :: rows).map Record.ofFields) = (order.column <|> schema.names.head?) := by
  rw [← h fields List.mem_cons_self]
  rcases order with ⟨_ | column, direction⟩ <;> rfl

theorem sorted_ofFields {schema : Schema} {rows : List (List Field)} (h : Uniform schema rows) (order : Order) :
    Step.sorted order (rows.map Record.ofFields) = (Select.ordered schema (some order) rows).map Record.ofFields := by
  cases rows with
  | nil =>
    -- without records there is no first one to name a column, and nothing to sort either
    simp only [Step.sorted, Select.ordered, Step.sortBy, sortFields, List.map_nil, List.mergeSort_nil,
      List.insertionSort_nil, ite_self]
    split <;> split <;> rfl
  | cons fields rest =>
    simp only [Step.sorted, Select.ordered, sortColumn_ofFields h]
    split
    · rename_i column eq
      simp only [eq]
      split
      · rename_i present
        exact sortBy_ofFields column order.direction _ fun fields mem => h fields mem ▸ present
      · rename_i missing
        exact sortBy_missing column order.direction _ fun fields mem => h fields mem ▸ missing
    · rename_i eq
      simp only [eq]

theorem sliced_eq_part (limit offset : Option Nat) (records : List Record) :
    Step.sliced limit offset records = Select.part limit offset records := by
  simp only [Step.sliced, Select.part]
  split
  · rename_i empty
    rcases limit with _ | n
    · rcases empty with none | behind
      · have nil : records = [] := List.length_eq_zero_iff.1 none
        simp [nil]
      · exact (List.drop_eq_nil_of_le behind).symm
    · rcases empty with none | behind
      · have zero : n = 0 := none
        simp [zero]
      · simp [List.drop_eq_nil_of_le behind]
  · cases limit with
    | none => exact List.take_of_length_le (by simp)
    | some n => rfl

/-- context changes the failure and nothing else -/
theorem run_inContext {m : Type → Type} [Monad m] [LawfulMonad m] {α : Type} (context : String)
    (x : ExceptT Error m α) : (inContext context x).run = (do
      match ← x.run with
      | .error e => return .error (.inContext context e)
      | .ok a => return .ok a) := by
  show Except.mapError (Error.inContext context) <$> x.run = _
  rw [map_eq_pure_bind]
  refine bind_congr fun result => ?_
  cases result <;> rfl

/-! ## The steps after the scan -/

namespace Step

/-- what a step does to records; a scan stands in front of all other steps and is not one of them -/
def transform : Step → List Record → List Record
  | .scan _, records => records
  | .filter condition, records => records.filter condition.holds
  | .sort order, records => sorted order records
  | .slice limit offset, records => sliced limit offset records
  | .project selection, records => records.map fun r => r.project selection

def isScan : Step → Bool
  | .scan _ => true
  | _ => false

variable {m : Type → Type} [Monad m]

theorem run_eq_transform (source : Source m) {step : Step} (h : step.isScan = false) (records : List Record) :
    step.run source records = pure (step.transform records) := by
  cases step with
  | scan table => cases h
  | _ => rfl

theorem run_scan (source : Source m) (table : String) (records : List Record) :
    (scan table).run source records = (do
      let schema ← source.schema table
      let rows ← source.rows table
      return rows.map (recordOf schema)) :=
  rfl

theorem foldlM_transform [LawfulMonad m] (source : Source m) (steps : List Step)
    (h : ∀ step ∈ steps, step.isScan = false) (records : List Record) :
    steps.foldlM (fun records step => step.run source records) records
      = pure (steps.foldl (fun records step => step.transform records) records) := by
  induction steps generalizing records with
  | nil => rfl
  | cons step rest ih =>
    rw [List.foldlM_cons, run_eq_transform source (h step List.mem_cons_self), pure_bind]
    exact ih (fun other mem => h other (List.mem_cons_of_mem _ mem)) _

end Step

namespace Plan

/-- the plan of a select without its scan -/
def afterScan (s : Select) : Plan :=
  (s.condition.map Step.filter).toList
    ++ (s.order.map Step.sort).toList
    ++ (if s.limit.isSome || s.offset.isSome then [.slice s.limit s.offset] else [])
    ++ [.project s.selection]

theorem ofSelect_eq (s : Select) : ofSelect s = .scan s.table :: afterScan s := by
  simp [ofSelect, afterScan]

theorem isScan_afterScan (s : Select) : ∀ step ∈ afterScan s, step.isScan = false := by
  intro step mem
  simp only [afterScan, List.mem_append, Option.mem_toList, Option.map_eq_some_iff, List.mem_singleton] at mem
  rcases mem with ((⟨p, -, rfl⟩ | ⟨o, -, rfl⟩) | sliced) | rfl
  · rfl
  · rfl
  · split at sliced
    · rw [List.mem_singleton.1 sliced]
      rfl
    · cases sliced
  · rfl

/-- the steps of a plan on records, one after the other -/
def transform (steps : Plan) (records : List Record) : List Record :=
  steps.foldl (fun records step => step.transform records) records

theorem transform_append (first second : Plan) (records : List Record) :
    transform (first ++ second) records = transform second (transform first records) :=
  List.foldl_append

theorem transform_condition (condition : Option Predicate) (rows : List (List Field)) :
    transform (condition.map Step.filter).toList (rows.map Record.ofFields)
      = (Select.kept condition rows).map Record.ofFields := by
  cases condition with
  | none => rfl
  | some p => exact filter_ofFields p rows

theorem transform_order {schema : Schema} {rows : List (List Field)} (h : Uniform schema rows) (order : Option Order) :
    transform (order.map Step.sort).toList (rows.map Record.ofFields)
      = (Select.ordered schema order rows).map Record.ofFields := by
  cases order with
  | none => rfl
  | some o => exact sorted_ofFields h o

theorem transform_slice (limit offset : Option Nat) (rows : List (List Field)) :
    transform (if limit.isSome || offset.isSome then [.slice limit offset] else []) (rows.map Record.ofFields)
      = (Select.part limit offset rows).map Record.ofFields := by
  have mapped : Select.part limit offset (rows.map Record.ofFields)
      = (Select.part limit offset rows).map Record.ofFields := by
    cases limit <;> simp [Select.part, List.map_drop, List.map_take]
  rw [← mapped]
  split
  · exact sliced_eq_part limit offset _
  · rename_i absent
    obtain ⟨noLimit, noOffset⟩ : limit = none ∧ offset = none := by simpa using absent
    simp [transform, Select.part, noLimit, noOffset]

/-- the steps behind the scan make the meaning of the select from the scanned rows -/
theorem transform_afterScan (s : Select) (schema : Schema) (rows : List Row) :
    transform (afterScan s) (rows.map (Step.recordOf schema)) = s.meaning schema (rows.map Keyed.find?) := by
  have scanned : rows.map (Step.recordOf schema)
      = ((rows.map Keyed.find?).map schema.fieldsOf).map Record.ofFields := by
    simp [Record.recordOf_eq_ofFields, Function.comp_def]
  have uniform := (uniform_fieldsOf schema (rows.map Keyed.find?)).kept s.condition
  simp only [afterScan, transform_append]
  rw [scanned, transform_condition, transform_order uniform, transform_slice]
  simp only [transform, List.foldl_cons, List.foldl_nil, Step.transform, List.map_map, Select.meaning]
  exact List.map_congr_left fun fields _ => Record.project_ofFields fields s.selection

/-- the steps of a select ask for the schema and the rows, and make its meaning of them -/
theorem foldlM_ofSelect {m : Type → Type} [Monad m] [LawfulMonad m] (s : Select) (source : Source m) :
    (ofSelect s).foldlM (fun records step => step.run source records) [] = (do
      let schema ← source.schema s.table
      let rows ← source.rows s.table
      return s.meaning schema (rows.map Keyed.find?) : ExceptT Error m (List Record)) := by
  rw [ofSelect_eq, List.foldlM_cons]
  simp only [Step.run_scan, bind_assoc, pure_bind, Step.foldlM_transform source _ (isScan_afterScan s),
    ← transform_afterScan]
  rfl

/-- **A plan computes the meaning of its select.** The source is asked for the schema and then for the rows; the
failure of either is the result, wrapped once, and nothing else fails. -/
theorem run_ofSelect {m : Type → Type} [Monad m] [LawfulMonad m] (s : Select) (source : Source m) :
    ((ofSelect s).run source).run = (do
      match ← (source.schema s.table).run with
      | .error e => return .error (.inContext "compute select result" e)
      | .ok schema =>
        match ← (source.rows s.table).run with
        | .error e => return .error (.inContext "compute select result" e)
        | .ok rows => return .ok (s.meaning schema (rows.map Keyed.find?))) := by
  rw [run, foldlM_ofSelect, run_inContext]
  simp only [ExceptT.run_bind, bind_assoc]
  refine bind_congr fun schema => ?_
  cases schema with
  | error e => simp
  | ok schema =>
    simp only [bind_assoc]
    refine bind_congr fun rows => ?_
    cases rows <;> simp

/-- the dearest item but for the ink, by name, from two tables that cannot fail -/
theorem run_ofSelect_dearest :
    LawfulMonad Id
      ∧ ((ofSelect ⟨.columns ["name"], "item", some (.notEqual "name" "ink"), some ⟨some "price", .descending⟩,
            some 1, none⟩).run (m := Id)
          { schema := fun table => pure ⟨table, [⟨"name", "string"⟩, ⟨"price", "string"⟩]⟩
            rows := fun _ => pure [.ofPairs [("name", "pen"), ("price", "3")],
              .ofPairs [("price", "9"), ("name", "ink")], .ofPairs [("name", "cap"), ("price", "5")]] }).run
        = .ok [⟨["name"], ["string"], ["cap"]⟩] := by
  refine ⟨inferInstance, (run_ofSelect _ _).trans (congrArg Except.ok ?_)⟩
  decide +kernel

end Plan
end TableStore
