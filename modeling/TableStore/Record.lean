/-
Records: the rows a query works on and answers with.

A record holds names, types and values of its columns side by side. Names may repeat; a name then means the first column
of that name.
-/
import TableStore.Sql.Statement

namespace TableStore

structure Record where
  columns : List String
  types : List String
  values : List String
  deriving DecidableEq

namespace Record

/-- as many types and values as columns, so that every column has both -/
def Lockstep (r : Record) : Prop :=
  r.types.length = r.columns.length ∧ r.values.length = r.columns.length

/-- the place of the first column of a name -/
def index? (r : Record) (column : String) : Option Nat := r.columns.idxOf? column

/-- the value of the first column of a name -/
def value? (r : Record) (column : String) : Option String := do
  r.values[← r.index? column]?

/-- the column is there and has this value -/
def has (r : Record) (column value : String) : Bool := r.value? column == some value

/-- the record without the column at a place -/
def eraseAt (r : Record) (i : Nat) : Record :=
  { columns := r.columns.eraseIdx i, types := r.types.eraseIdx i, values := r.values.eraseIdx i }

/-- the record without the first column of a name -/
def erase (r : Record) (column : String) : Record :=
  match r.index? column with
  | some i => r.eraseAt i
  | none => r

/-- the record with the selected columns only, in its own order: every other column is erased, one by one -/
def project (r : Record) (selection : Selection) : Record :=
  (r.columns.filter fun column => !selection.contains column).foldl erase r

end Record
end TableStore
