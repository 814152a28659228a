/-
Records as lists of fields.

A record keeps names, types and values of its columns in three lists, and works on all three at once by places. Read
as one list of fields (`Record.ofFields`) the same record needs no places: the value of a column is the value of the
first field of that name, and a projection is a filter.

Results:
  value?_ofFields   the value of a column is that of its first field;
  erase_ofFields    erasing a column drops its first field;
  project_ofFields  a projection keeps exactly the fields whose column is selected, in their order: erasing the other
                    columns one by one, each by its first place, leaves no repeated column behind and takes no
                    selected one.
-/
import Mathlib.Tactic
import TableStore.Query.Plan

namespace TableStore

/-- one column of a record with its type and its value -/
structure Field where
  column : String
  type : String
  value : String
  deriving DecidableEq

/-- the value of the first field of a column -/
def valueIn (column : String) (fields : List Field) : Option String :=
  (fields.find? (·.column == column)).map (·.value)

/-- the fields without the first one of a column -/
def dropField (fields : List Field) (column : String) : List Field :=
  fields.eraseP (·.column == column)

theorem dropField_self (field : Field) (rest : List Field) : dropField (field :: rest) field.column = rest := by
  simp [dropField]

theorem dropField_ne {field : Field} {column : String} (h : field.column ≠ column) (rest : List Field) :
    dropField (field :: rest) column = field :: dropField rest column := by
  simp [dropField, h]

/-- the fields of a row: all columns of a schema in their order, empty text where the row has no value -/
def Schema.fieldsOf (schema : Schema) (row : String → Option String) : List Field :=
  schema.columns.map fun column => ⟨column.name, column.type, (row column.name).getD ""⟩

namespace Record

/-- the record with the given fields -/
def ofFields (fields : List Field) : Record :=
  { columns := fields.map (·.column), types := fields.map (·.type), values := fields.map (·.value) }

theorem recordOf_eq_ofFields (schema : Schema) (row : Row) :
    Step.recordOf schema row = ofFields (schema.fieldsOf row.find?) := by
  simp [Step.recordOf, ofFields, Schema.fieldsOf, Schema.names, Schema.types, Function.comp_def]

theorem index?_ofFields (fields : List Field) (column : String) :
    (ofFields fields).index? column = fields.findIdx? (·.column == column) := by
  simp only [index?, ofFields, List.idxOf?, List.findIdx?_map]
  rfl

theorem value?_ofFields (fields : List Field) (column : String) :
    (ofFields fields).value? column = valueIn column fields := by
  have places : (ofFields fields).value? column
      = (fields.findIdx? (·.column == column)).bind fun i => (fields.map (·.value))[i]? := by
    rw [← index?_ofFields]
    rfl
  rw [places, valueIn, List.find?_eq_bind_findIdx?_getElem?, Option.map_bind]
  simp only [List.getElem?_map, Function.comp_def]

theorem eraseAt_ofFields (fields : List Field) (i : Nat) :
    (ofFields fields).eraseAt i = ofFields (fields.eraseIdx i) := by
  simp [eraseAt, ofFields, List.eraseIdx_map]

theorem erase_ofFields (fields : List Field) (column : String) :
    (ofFields fields).erase column = ofFields (dropField fields column) := by
  simp only [erase, dropField, index?_ofFields, List.eraseP_eq_eraseIdx]
  split
  · rename_i i found
    rw [found]
    exact eraseAt_ofFields fields i
  · rename_i missing
    rw [missing]

/-! ## Projection -/

/-- dropping other columns leaves the first field in front -/
theorem foldl_dropField_cons {field : Field} (columns : List String) (rest : List Field)
    (h : ∀ column ∈ columns, field.column ≠ column) :
    columns.foldl dropField (field :: rest) = field :: columns.foldl dropField rest := by
  induction columns generalizing rest with
  | nil => rfl
  | cons column columns ih =>
    rw [List.foldl_cons, dropField_ne (h column List.mem_cons_self)]
    exact ih _ fun other mem => h other (List.mem_cons_of_mem _ mem)

/-- dropping the unwanted columns one by one, as often as each occurs, leaves the wanted fields -/
theorem foldl_dropField_eq_filter (wanted : String → Bool) (fields : List Field) :
    ((fields.map (·.column)).filter fun column => !wanted column).foldl dropField fields
      = fields.filter fun field => wanted field.column := by
  induction fields with
  | nil => rfl
  | cons field rest ih =>
    by_cases h : wanted field.column = true
    · have others : ∀ column ∈ (rest.map (·.column)).filter (fun column => !wanted column),
          field.column ≠ column := by
        intro column mem eq
        simp [← eq, h] at mem
      simp only [List.map_cons, List.filter_cons, h, Bool.not_true, Bool.false_eq_true, if_false, if_true]
      rw [foldl_dropField_cons _ _ others, ih]
    · have dropped : wanted field.column = false := by simpa using h
      simp only [List.map_cons, List.filter_cons, dropped, Bool.not_false, if_true, List.foldl_cons, dropField_self]
      exact ih

theorem foldl_erase_ofFields (columns : List String) (fields : List Field) :
    columns.foldl erase (ofFields fields) = ofFields (columns.foldl dropField fields) := by
  induction columns generalizing fields with
  | nil => rfl
  | cons column columns ih => simp only [List.foldl_cons, erase_ofFields, ih]

/-- **A projection is a filter on fields**: exactly the fields whose column is selected stay, in the record's order. -/
theorem project_ofFields (fields : List Field) (selection : Selection) :
    (ofFields fields).project selection = ofFields (fields.filter fun field => selection.contains field.column) := by
  simp only [project]
  rw [foldl_erase_ofFields]
  exact congrArg ofFields (foldl_dropField_eq_filter selection.contains fields)

end Record
end TableStore
