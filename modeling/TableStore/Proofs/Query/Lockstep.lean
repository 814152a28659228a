/-
Records in lockstep, and results that are rectangles.

A record is edited by places: the place of a column in one list is used in two others. As long as all three have one
length (`Record.Lockstep`) no such place is outside. `Step.checkedRun` is the step with every access stopped that is
outside its list, and with the lengths of new records compared; on records in lockstep it is the step itself
(`checkedRun_eq_lift`), which leaves records in lockstep again (`Step.lockstep_of_run`).

All records that a select answers come from rows of one table, and the projection drops the same columns from each: they
are the records of those rows under the schema of the selected columns (`mem_meaning`).

Results:
  rectangular_in_lockstep   a plan of any steps never goes outside the lists of a record and has records in lockstep
                            after each step; and the records of a select have the same columns and types, so that the
                            rows of its response have one value for each name of the header, the one stored under it.
-/
import Mathlib.Tactic
import TableStore.Proofs.Query.Paging
import TableStore.Proofs.Query.Projecting
import TableStore.Proofs.Query.Stability
import TableStore.Proofs.Traps
import TableStore.Wire.Response

namespace TableStore

/-! ## Records whose accesses are checked -/

namespace Record

/-- a record of three lists, which must have one length -/
def checkedOf (columns types values : List String) : Checked Record :=
  if types.length = columns.length ∧ values.length = columns.length then .ok { columns, types, values }
  else .error (.uneven [columns.length, types.length, values.length])

/-- the value of the first column of a name, taken at its place in the values -/
def checkedValue (r : Record) (column : String) : Checked (Option String) :=
  match r.index? column with
  | some i => some <$> Checked.get r.values i
  | none => .ok none

/-- the record without the first column of a name, removed at its place from all three lists -/
def checkedErase (r : Record) (column : String) : Checked Record :=
  match r.index? column with
  | some i => do
    let columns ← Checked.removeAt r.columns i
    let types ← Checked.removeAt r.types i
    let values ← Checked.removeAt r.values i
    return { columns, types, values }
  | none => .ok r

/-- the record without the columns that are not selected, one after the other -/
def checkedProject (r : Record) (selection : Selection) : Checked Record :=
  (r.columns.filter fun column => !selection.contains column).foldlM checkedErase r

theorem index?_lt {r : Record} {column : String} {i : Nat} (found : r.index? column = some i) : i < r.columns.length :=
  (List.findIdx?_eq_some_iff_findIdx_eq.1 found).1

theorem Lockstep.erase {r : Record} (h : r.Lockstep) (column : String) : (r.erase column).Lockstep := by
  rw [← ofFields_fields h, erase_ofFields]
  exact lockstep_ofFields _

theorem Lockstep.project {r : Record} (h : r.Lockstep) (selection : Selection) : (r.project selection).Lockstep := by
  rw [project_eq h]
  exact lockstep_ofFields _

theorem lockstep_recordOf (schema : Schema) (row : Row) : (Step.recordOf schema row).Lockstep := by
  rw [recordOf_eq_ofFields]
  exact lockstep_ofFields _

theorem Lockstep.checkedOf {r : Record} (h : r.Lockstep) : checkedOf r.columns r.types r.values = .ok r :=
  if_pos h

theorem Lockstep.checkedValue {r : Record} (h : r.Lockstep) (column : String) :
    r.checkedValue column = .ok (r.value? column) := by
  rw [Record.checkedValue, value?]
  cases found : r.index? column with
  | none => rfl
  | some i =>
    have inside : i < r.values.length := h.2 ▸ index?_lt found
    have there := List.getElem?_eq_getElem inside
    simp only [Checked.get_eq_ok there, Option.bind_eq_bind, Option.bind_some, there]
    rfl

theorem Lockstep.checkedErase {r : Record} (h : r.Lockstep) (column : String) :
    r.checkedErase column = .ok (r.erase column) := by
  rw [Record.checkedErase, Record.erase]
  cases found : r.index? column with
  | none => rfl
  | some i =>
    have inside := index?_lt found
    simp only [Checked.removeAt_eq_ok inside, Checked.removeAt_eq_ok (h.1 ▸ inside),
      Checked.removeAt_eq_ok (h.2 ▸ inside)]
    rfl

theorem Lockstep.checkedProject {r : Record} (h : r.Lockstep) (selection : Selection) :
    r.checkedProject selection = .ok (r.project selection) :=
  -- each removal is from a record that is in lockstep after the removals before it
  (Checked.foldlM_eq_ok Lockstep (fun _ column h => ⟨h.checkedErase column, h.erase column⟩) h _).1

end Record

/-- the comparison with the checked value of its column -/
def Predicate.checkedHolds (p : Predicate) (r : Record) : Checked Bool :=
  match p with
  | .equal column value => (fun v => v == some value) <$> r.checkedValue column
  | .notEqual column value => (fun v => v.any (· != value)) <$> r.checkedValue column

theorem Record.Lockstep.checkedHolds {r : Record} (h : r.Lockstep) (p : Predicate) :
    p.checkedHolds r = .ok (p.holds r) := by
  cases p with
  | equal column value =>
    rw [Predicate.checkedHolds, h.checkedValue]
    rfl
  | notEqual column value =>
    rw [Predicate.checkedHolds, h.checkedValue, Predicate.holds]
    cases r.value? column with
    | none => rfl
    | some v => rfl

/-! ## Steps whose accesses are checked -/

namespace Step

/-- the order of a direction on values -/
def directedLe : Direction → Option String → Option String → Bool
  | .ascending, a, b => valueLe a b
  | .descending, a, b => valueLe b a

/-- the records sorted by values that were all taken with a check -/
def checkedSortBy (column : String) (direction : Direction) (records : List Record) : Checked (List Record) := do
  let keyed ← records.mapM fun r => do return (← r.checkedValue column, r)
  return (keyed.mergeSort fun a b => directedLe direction a.1 b.1).map (·.2)

variable {m : Type → Type} [Monad m]

/-- a step that is stopped where it would go outside a list of a record -/
def checkedRun (source : Source m) : Step → List Record → ExceptT Trap (ExceptT Error m) (List Record)
  | .scan table, _ => do
    let schema ← source.schema table
    let rows ← source.rows table
    liftExcept (rows.mapM fun row =>
      Record.checkedOf schema.names schema.types (schema.names.map fun name => (row.find? name).getD ""))
  | .filter condition, records => liftExcept (records.filterM condition.checkedHolds)
  | .sort order, records =>
    match sortColumn order records with
    | some column => liftExcept (checkedSortBy column order.direction records)
    | none => return records
  | .slice limit offset, records => return sliced limit offset records
  | .project selection, records => liftExcept (records.mapM fun r => r.checkedProject selection)

/-! ## No access is outside -/

theorem checkedSortBy_eq_ok {records : List Record} (h : ∀ r ∈ records, r.Lockstep) (column : String)
    (direction : Direction) : checkedSortBy column direction records = .ok (sortBy column direction records) := by
  have keyed : records.mapM (fun r => do return (← r.checkedValue column, r))
      = (.ok (records.map fun r => (r.value? column, r)) : Checked _) :=
    Checked.mapM_eq_ok fun r mem => by rw [(h r mem).checkedValue]; rfl
  have sorted : ((records.map fun r => (r.value? column, r)).mergeSort fun a b => directedLe direction a.1 b.1)
      = (sortBy column direction records).map fun r => (r.value? column, r) := by
    refine (List.map_mergeSort fun a _ b _ => ?_).symm
    cases direction with
    | ascending => rfl
    | descending => rfl
  rw [checkedSortBy, keyed]
  refine congrArg Except.ok ?_
  rw [sorted, List.map_map]
  exact List.map_id _

theorem lockstep_transform {records : List Record} (h : ∀ r ∈ records, r.Lockstep) (step : Step) :
    ∀ r ∈ step.transform records, r.Lockstep := by
  intro r mem
  cases step with
  | scan table => exact h r mem
  | filter condition => exact h r (List.mem_of_mem_filter mem)
  | sort order => exact h r (mem_sorted.1 mem)
  | slice limit offset =>
    rw [transform, sliced] at mem
    split at mem
    · cases mem
    · exact h r (List.mem_of_mem_drop (List.mem_of_mem_take mem))
  | project selection =>
    obtain ⟨whole, memWhole, rfl⟩ := List.mem_map.1 mem
    exact (h whole memWhole).project selection

variable [LawfulMonad m]

theorem checkedRun_eq_lift (source : Source m) {records : List Record} (h : ∀ r ∈ records, r.Lockstep) (step : Step) :
    step.checkedRun source records = monadLift (step.run source records) := by
  cases step with
  | scan table =>
    have made (schema : Schema) (rows : List Row) : rows.mapM (fun row =>
        Record.checkedOf schema.names schema.types (schema.names.map fun name => (row.find? name).getD ""))
        = .ok (rows.map (recordOf schema)) :=
      Checked.mapM_eq_ok fun row _ => (Record.lockstep_recordOf schema row).checkedOf
    simp only [checkedRun, made, run_scan, monadLift_bind, monadLift_pure]
    rfl
  | filter condition =>
    rw [run_eq_transform source rfl, monadLift_pure, checkedRun,
      Checked.filterM_eq_ok fun r mem => (h r mem).checkedHolds condition]
    rfl
  | sort order =>
    rw [run_eq_transform source rfl, monadLift_pure, checkedRun, transform, sorted]
    cases sortColumn order records with
    | none => rfl
    | some column =>
      simp only [checkedSortBy_eq_ok h]
      rfl
  | slice limit offset => exact (monadLift_pure _).symm
  | project selection =>
    rw [run_eq_transform source rfl, monadLift_pure, checkedRun,
      Checked.mapM_eq_ok fun r mem => (h r mem).checkedProject selection]
    rfl

/-- what comes after a step only matters on records in lockstep -/
theorem lift_run_bind_congr (source : Source m) {records : List Record} (h : ∀ r ∈ records, r.Lockstep) (step : Step)
    {f g : List Record → ExceptT Trap (ExceptT Error m) (List Record)}
    (same : ∀ after, (∀ r ∈ after, r.Lockstep) → f after = g after) :
    monadLift (step.run source records) >>= f = monadLift (step.run source records) >>= g := by
  cases step with
  | scan table =>
    simp only [run_scan, monadLift_bind, monadLift_pure, bind_assoc, pure_bind]
    refine bind_congr fun schema => bind_congr fun rows => same _ ?_
    intro r mem
    obtain ⟨row, -, rfl⟩ := List.mem_map.1 mem
    exact Record.lockstep_recordOf schema row
  | _ =>
    rw [run_eq_transform source rfl, monadLift_pure, pure_bind, pure_bind]
    exact same _ (lockstep_transform h _)

end Step

theorem Plan.foldlM_checkedRun {m : Type → Type} [Monad m] [LawfulMonad m] (source : Source m) (plan : Plan)
    {records : List Record} (h : ∀ r ∈ records, r.Lockstep) :
    plan.foldlM (fun records step => step.checkedRun source records) records
      = monadLift (plan.foldlM (fun records step => step.run source records) records) := by
  induction plan generalizing records with
  | nil => exact (monadLift_pure records).symm
  | cons step plan ih =>
    rw [List.foldlM_cons, List.foldlM_cons, monadLift_bind, Step.checkedRun_eq_lift source h]
    exact Step.lift_run_bind_congr source h step fun after lockstep => ih lockstep

/-! ## What runs answer -/

namespace Runner

variable {m : Type → Type} [Monad m] {σ α β : Type} {runner : Runner m σ}

theorem pure_eq_ok {a b : α} {state next : σ} (h : runner.run (pure a : ExceptT Error m α).run state = (.ok b, next)) :
    b = a := by
  have ran := runner.run_pure (.ok a : Except Error α) state
  exact (Except.ok.inj (Prod.mk.inj (ran.symm.trans h)).1).symm

theorem bind_eq_ok {x : ExceptT Error m α} {f : α → ExceptT Error m β} {b : β} {state next : σ}
    (h : runner.run (x >>= f).run state = (.ok b, next)) :
    ∃ a middle, runner.run x.run state = (.ok a, middle) ∧ runner.run (f a).run middle = (.ok b, next) := by
  rw [ExceptT.run_bind, runner.run_bind] at h
  rcases ran : runner.run x.run state with ⟨e | a, middle⟩
  · rw [ran] at h
    have failed := runner.run_pure (.error e : Except Error β) middle
    cases failed.symm.trans h
  · rw [ran] at h
    exact ⟨a, middle, rfl, h⟩

theorem inContext_eq_ok [LawfulMonad m] {x : ExceptT Error m α} {context : String} {a : α} {state next : σ}
    (h : runner.run (inContext context x).run state = (.ok a, next)) : runner.run x.run state = (.ok a, next) := by
  rw [run_inContext, runner.run_bind] at h
  rcases ran : runner.run x.run state with ⟨e | b, middle⟩
  · rw [ran] at h
    have failed := runner.run_pure (.error (.inContext context e) : Except Error α) middle
    cases failed.symm.trans h
  · rw [ran] at h
    exact (runner.run_pure (.ok b : Except Error α) middle).symm.trans h

end Runner

section Runs

variable {m : Type → Type} [Monad m] {σ : Type} {runner : Runner m σ} {source : Source m}

theorem Step.lockstep_of_run {step : Step} {records after : List Record} {state next : σ}
    (h : ∀ r ∈ records, r.Lockstep) (ran : runner.run (step.run source records).run state = (.ok after, next)) :
    ∀ r ∈ after, r.Lockstep := by
  cases step with
  | scan table =>
    rw [run_scan] at ran
    obtain ⟨schema, _, -, ran⟩ := Runner.bind_eq_ok ran
    obtain ⟨rows, _, -, ran⟩ := Runner.bind_eq_ok ran
    rw [Runner.pure_eq_ok ran]
    intro r mem
    obtain ⟨row, -, rfl⟩ := List.mem_map.1 mem
    exact Record.lockstep_recordOf schema row
  | _ =>
    rw [run_eq_transform source rfl] at ran
    rw [Runner.pure_eq_ok ran]
    exact lockstep_transform h _

theorem Plan.lockstep_of_run {plan : Plan} {records after : List Record} {state next : σ}
    (h : ∀ r ∈ records, r.Lockstep)
    (ran : runner.run (plan.foldlM (fun records (step : Step) => step.run source records) records).run state
      = (.ok after, next)) :
    ∀ r ∈ after, r.Lockstep := by
  induction plan generalizing records state with
  | nil => rwa [Runner.pure_eq_ok ran]
  | cons step plan ih =>
    rw [List.foldlM_cons] at ran
    obtain ⟨between, middle, first, rest⟩ := Runner.bind_eq_ok ran
    exact ih (Step.lockstep_of_run h first) rest

end Runs

/-! ## The records of a select -/

/-- the schema of the selected columns -/
def Schema.only (schema : Schema) (selection : Selection) : Schema :=
  { schema with columns := schema.columns.filter fun column => selection.contains column.name }

theorem Schema.filter_fieldsOf (schema : Schema) (selection : Selection) (row : String → Option String) :
    (schema.fieldsOf row).filter (fun field => selection.contains field.column)
      = (schema.only selection).fieldsOf row := by
  simp only [fieldsOf, only, List.filter_map, Function.comp_def]

namespace Select

theorem mem_kept {condition : Option Predicate} {rows : List (List Field)} {fields : List Field}
    (mem : fields ∈ kept condition rows) : fields ∈ rows := by
  cases condition with
  | none => exact mem
  | some p => exact List.mem_of_mem_filter mem

theorem mem_ordered {schema : Schema} {order : Option Order} {rows : List (List Field)} {fields : List Field}
    (mem : fields ∈ ordered schema order rows) : fields ∈ rows := by
  cases order with
  | none => exact mem
  | some o =>
    simp only [ordered] at mem
    split at mem
    · exact mem
    · split at mem
      · exact (sortFields_stable _ _ rows).1.mem_iff.1 mem
      · exact mem

theorem mem_part {α : Type} {limit offset : Option Nat} {l : List α} {a : α} (mem : a ∈ part limit offset l) :
    a ∈ l := by
  cases limit with
  | none => exact List.mem_of_mem_drop mem
  | some n => exact List.mem_of_mem_drop (List.mem_of_mem_take mem)

/-- each record of a select is that of a row under the selected columns -/
theorem mem_meaning {s : Select} {schema : Schema} {rows : List Row} {r : Record}
    (mem : r ∈ s.meaning schema (rows.map Keyed.find?)) :
    ∃ row ∈ rows, r = Step.recordOf (schema.only s.selection) row := by
  obtain ⟨fields, memFields, rfl⟩ := List.mem_map.1 mem
  obtain ⟨find, memFind, rfl⟩ := List.mem_map.1 (mem_kept (mem_ordered (mem_part memFields)))
  obtain ⟨row, memRow, rfl⟩ := List.mem_map.1 memFind
  exact ⟨row, memRow, by rw [Schema.filter_fieldsOf, Record.recordOf_eq_ofFields]⟩

end Select

theorem Step.getElem?_values_recordOf {schema : Schema} {row : Row} {j : Nat} {name : String}
    (there : schema.names[j]? = some name) : (recordOf schema row).values[j]? = some ((row.find? name).getD "") := by
  simp only [recordOf, List.getElem?_map, there, Option.map_some]

namespace Plan

/-- a select that answers has read the schema and the rows, and answers its meaning -/
theorem run_ofSelect_eq_ok {m : Type → Type} [Monad m] [LawfulMonad m] {σ : Type} {runner : Runner m σ}
    {source : Source m} {s : Select} {state next : σ} {result : List Record}
    (ran : runner.run ((ofSelect s).run source).run state = (.ok result, next)) :
    ∃ schema rows middle, runner.run (source.schema s.table).run state = (.ok schema, middle) ∧
      (∃ last, runner.run (source.rows s.table).run middle = (.ok rows, last)) ∧
      result = s.meaning schema (rows.map Keyed.find?) := by
  have ran := Runner.inContext_eq_ok ran
  rw [foldlM_ofSelect] at ran
  obtain ⟨schema, middle, schemaRead, ran⟩ := Runner.bind_eq_ok ran
  obtain ⟨rows, last, rowsRead, ran⟩ := Runner.bind_eq_ok ran
  exact ⟨schema, rows, middle, schemaRead, ⟨last, rowsRead⟩, Runner.pure_eq_ok ran⟩

/-- **Records stay in lockstep, and results are rectangles.** A plan of any steps in any order, on records that each
have as many types and values as columns, never takes or removes anything outside the lists of a record: with every such
access stopped it is the same computation. And whatever its first steps answer, however many, is in lockstep again. A
select that answers has read a schema and rows, and its records have the same columns and types, those of the selected
columns in the schema's order. So the response to records that are not none has as many values in each row as names in
its header, and they are what one stored row has under these names. -/
theorem rectangular_in_lockstep {m : Type → Type} [Monad m] [LawfulMonad m] {σ : Type} (source : Source m)
    (runner : Runner m σ) :
    (∀ (plan : Plan) (records : List Record), (∀ r ∈ records, r.Lockstep) →
      plan.foldlM (fun records step => step.checkedRun source records) records
          = monadLift (plan.foldlM (fun records step => step.run source records) records) ∧
      ∀ n state after next,
        runner.run ((plan.take n).foldlM (fun records (step : Step) => step.run source records) records).run state
          = (.ok after, next) → ∀ r ∈ after, r.Lockstep) ∧
    ∀ (s : Select) state result next, runner.run ((ofSelect s).run source).run state = (.ok result, next) →
      ∃ schema rows middle, runner.run (source.schema s.table).run state = (.ok schema, middle) ∧
        (∃ last, runner.run (source.rows s.table).run middle = (.ok rows, last)) ∧
        let selected := schema.only s.selection
        (∀ r ∈ result, r.columns = selected.names ∧ r.types = selected.types) ∧
        (result ≠ [] → ∃ values, Response.ofAnswer (.records result) = .rows selected.names values ∧
          ∀ row ∈ values, row.length = selected.names.length ∧
            ∃ stored ∈ rows, ∀ (j : Nat) name, selected.names[j]? = some name →
              row[j]? = some ((stored.find? name).getD "")) := by
  refine ⟨fun plan records lockstep => ⟨foldlM_checkedRun source plan lockstep, fun n state after next ran => ?_⟩,
    fun s state result next ran => ?_⟩
  · exact lockstep_of_run lockstep ran
  · obtain ⟨schema, rows, middle, schemaRead, rowsRead, rfl⟩ := run_ofSelect_eq_ok ran
    refine ⟨schema, rows, middle, schemaRead, rowsRead, ?_⟩
    intro selected
    have made {r : Record} (mem : r ∈ s.meaning schema (rows.map Keyed.find?)) :
        ∃ row ∈ rows, r = Step.recordOf selected row := Select.mem_meaning mem
    refine ⟨fun r mem => ?_, fun some => ?_⟩
    · obtain ⟨row, -, rfl⟩ := made mem
      exact ⟨rfl, rfl⟩
    · obtain ⟨first, rest, eq⟩ := List.exists_cons_of_ne_nil some
      rw [eq] at made ⊢
      obtain ⟨row, -, header⟩ := made List.mem_cons_self
      refine ⟨(first :: rest).map (·.values), by rw [Response.ofAnswer, header]; rfl, fun values mem => ?_⟩
      obtain ⟨r, memRecord, rfl⟩ := List.mem_map.1 mem
      obtain ⟨stored, memStored, rfl⟩ := made memRecord
      refine ⟨?_, stored, memStored, fun j name there => Step.getElem?_values_recordOf there⟩
      exact List.length_map _

/-- a column that occurs twice is selected from a row without a value for it, behind steps that leave nothing of a
record -/
theorem rectangular_in_lockstep_twice :
    let shelf : Source Id := {
      schema := fun table => pure ⟨table, [⟨"a", "string"⟩, ⟨"b", "string"⟩, ⟨"a", "string"⟩]⟩
      rows := fun _ => pure [.ofPairs [("a", "1"), ("b", "2")], .ofPairs [("b", "3")]] }
    let records : List Record := [⟨["x", "x"], ["string", "int"], ["1", "2"]⟩, ⟨[], [], []⟩]
    let steps : Plan := [.project (.columns ["y"]), .sort ⟨none, .descending⟩, .filter (.notEqual "x" "1")]
    let s : Select := ⟨.columns ["z", "a"], "t", none, none, none, none⟩
    let result : List Record := [⟨["a", "a"], ["string", "string"], ["1", "1"]⟩,
      ⟨["a", "a"], ["string", "string"], ["", ""]⟩]
    LawfulMonad Id ∧ (∀ r ∈ records, r.Lockstep) ∧
      (steps.foldlM (fun records (step : Step) => step.checkedRun shelf records) records).run = pure (.ok []) ∧
      Runner.direct.run ((ofSelect s).run shelf).run () = (.ok result, ()) ∧
      ∃ values, Response.ofAnswer (.records result) = .rows ["a", "a"] values ∧ ∀ row ∈ values, row.length = 2 := by
  intro shelf records steps s result
  have lockstep : ∀ r ∈ records, r.Lockstep := by
    intro r mem
    simp only [records, List.mem_cons, List.not_mem_nil, or_false] at mem
    rcases mem with rfl | rfl
    · exact ⟨rfl, rfl⟩
    · exact ⟨rfl, rfl⟩
  have answered : Runner.direct.run ((ofSelect s).run shelf).run () = (.ok result, ()) := by decide +kernel
  obtain ⟨stepped, selects⟩ := rectangular_in_lockstep shelf Runner.direct
  obtain ⟨schema, rows, _, schemaRead, -, -, shown⟩ := selects s () result () answered
  obtain ⟨values, response, lengths⟩ := shown (by decide)
  cases schemaRead
  refine ⟨inferInstance, lockstep, ?_, answered, values, response, fun row mem => (lengths row mem).1⟩
  rw [(stepped steps records lockstep).1]
  cbv

end Plan
end TableStore
