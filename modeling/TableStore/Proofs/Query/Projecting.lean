/-
What a projection leaves of a record.

A record with as many types and values as columns is a list of fields (`Record.fields`), whether or not its names
repeat. The projection takes out the unselected columns by name, one after the other, each from the first place of that
name in three lists; on fields that is a filter (`project_ofFields`).

Results:
  project_keeps_selected   the fields of selected columns stay, each with its own type and value and in the record's
                           order, and all others go; `*` takes nothing; and two projections are the one on the names
                           that both select, in either order.
-/
import Mathlib.Tactic
import TableStore.Proofs.Query.Fields

namespace TableStore

/-- the names that are in both selections -/
def Selection.common : Selection → Selection → Selection
  | .all, t => t
  | s, .all => s
  | .columns names, .columns names' => .columns (names.filter names'.contains)

theorem Selection.contains_common (s t : Selection) (column : String) :
    (s.common t).contains column = (s.contains column && t.contains column) := by
  cases s with
  | all => simp [common, contains]
  | columns names =>
    cases t with
    | all => simp [common, contains]
    | columns names' =>
      rw [Bool.eq_iff_iff]
      simp [common, contains]

namespace Record

/-- the columns of a record, each with the type and the value at its place -/
def fields (r : Record) : List Field :=
  (r.columns.zip (r.types.zip r.values)).map fun (column, type, value) => ⟨column, type, value⟩

theorem lockstep_ofFields (fields : List Field) : (ofFields fields).Lockstep := by
  simp [Lockstep, ofFields]

theorem fields_ofFields (fields : List Field) : (ofFields fields).fields = fields := by
  induction fields with
  | nil => rfl
  | cons field rest ih => exact congrArg (field :: ·) ih

theorem ofFields_fields {r : Record} (h : r.Lockstep) : ofFields r.fields = r := by
  obtain ⟨columns, types, values⟩ := r
  obtain ⟨types_len, values_len⟩ : types.length = columns.length ∧ values.length = columns.length := h
  have pairs_len : (types.zip values).length = columns.length := by
    rw [List.length_zip, types_len, values_len, Nat.min_self]
  have pairs : (columns.zip (types.zip values)).map Prod.snd = types.zip values := List.map_snd_zip pairs_len.le
  simp only [ofFields, fields, List.map_map, Function.comp_def, mk.injEq]
  refine ⟨List.map_fst_zip pairs_len.ge, ?_, ?_⟩
  · calc (columns.zip (types.zip values)).map (fun x => x.2.1)
        = ((columns.zip (types.zip values)).map Prod.snd).map Prod.fst := by simp
      _ = types := by rw [pairs, List.map_fst_zip (by omega)]
  · calc (columns.zip (types.zip values)).map (fun x => x.2.2)
        = ((columns.zip (types.zip values)).map Prod.snd).map Prod.snd := by simp
      _ = values := by rw [pairs, List.map_snd_zip (by omega)]

theorem project_eq {r : Record} (h : r.Lockstep) (s : Selection) :
    r.project s = ofFields (r.fields.filter fun field => s.contains field.column) := by
  rw [← project_ofFields, ofFields_fields h]

theorem project_project {r : Record} (h : r.Lockstep) (s t : Selection) :
    (r.project s).project t = r.project (s.common t) := by
  rw [project_eq h, project_ofFields, List.filter_filter, project_eq h]
  simp only [Selection.contains_common, Bool.and_comm]

/-- **A projection keeps exactly the selected fields.** Of a record whose names, types and values have one length, names
repeated or not, the fields whose column is selected stay, each with its own type and value and in the record's order,
in lists that have one length again. `*` leaves the record as it is. Two projections, in either order, are one
projection on the names common to both. -/
theorem project_keeps_selected (r : Record) (h : r.Lockstep) (s : Selection) :
    (r.project s).Lockstep ∧
    (r.project s).fields = r.fields.filter (fun field => s.contains field.column) ∧
    r.project .all = r ∧
    ∀ t, (r.project s).project t = r.project (s.common t) ∧ (r.project t).project s = r.project (s.common t) := by
  refine ⟨?_, ?_, ?_, fun t => ⟨project_project h s t, ?_⟩⟩
  · rw [project_eq h]
    exact lockstep_ofFields _
  · rw [project_eq h, fields_ofFields]
  · rw [project_eq h]
    simpa [Selection.contains] using ofFields_fields h
  · rw [project_project h, project_eq h, project_eq h]
    simp only [Selection.contains_common, Bool.and_comm]

/-- a column that occurs twice and is selected twice, and one that no record has -/
theorem project_keeps_selected_twice :
    (⟨["a", "b", "a"], ["string", "int", "text"], ["1", "2", "3"]⟩ : Record).Lockstep
      ∧ ((⟨["a", "b", "a"], ["string", "int", "text"], ["1", "2", "3"]⟩ : Record).project
          (.columns ["z", "a", "a"])).fields = [⟨"a", "string", "1"⟩, ⟨"a", "text", "3"⟩] := by
  have lockstep : (⟨["a", "b", "a"], ["string", "int", "text"], ["1", "2", "3"]⟩ : Record).Lockstep := ⟨rfl, rfl⟩
  refine ⟨lockstep, ?_⟩
  rw [(project_keeps_selected _ lockstep _).2.1]
  decide

end Record
end TableStore
