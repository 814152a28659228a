/-
Plans: a select as a list of steps, each of which works on all records of the step before it.

The steps of a select come in one order: scan, filter, sort, slice, project. Filter and sort may use columns that the
projection drops, and a slice is taken of the sorted records, so no other order has the same meaning.
-/
import TableStore.Query.Source
import TableStore.Record
import TableStore.Sql.Shown

namespace TableStore

inductive Step where
  | scan (table : String)
  | filter (condition : Predicate)
  | sort (order : Order)
  | slice (limit offset : Option Nat)
  | project (selection : Selection)
  deriving DecidableEq

/-- a record without the column fulfils no comparison, neither `=` nor `!=` -/
def Predicate.holds (p : Predicate) (r : Record) : Bool :=
  match p with
  | .equal column value => r.has column value
  | .notEqual column value =>
    match r.value? column with
    | some v => v != value
    | none => false

namespace Step

/-- the record of a stored row: all columns of the schema, empty text where the row has no value -/
def recordOf (schema : Schema) (row : Row) : Record :=
  { columns := schema.names
    types := schema.types
    values := schema.names.map fun name => (row.find? name).getD "" }

/-- the column that a sort looks at: the named one, else the first column of the first record -/
def sortColumn (order : Order) (records : List Record) : Option String :=
  match order.column with
  | some column => some column
  | none => records.head?.bind fun r => r.columns.head?

/-- missing values come before all others, and texts compare by their code points -/
def valueLe : Option String → Option String → Bool
  | none, _ => true
  | some _, none => false
  | some a, some b => a ≤ b

/-- the records sorted by one column; equals keep their order in both directions -/
def sortBy (column : String) (direction : Direction) (records : List Record) : List Record :=
  records.mergeSort fun a b =>
    match direction with
    | .ascending => valueLe (a.value? column) (b.value? column)
    | .descending => valueLe (b.value? column) (a.value? column)

def sorted (order : Order) (records : List Record) : List Record :=
  match sortColumn order records with
  | some column => sortBy column order.direction records
  | none => records

/-- at most `limit` records from the one at `offset` on -/
def sliced (limit offset : Option Nat) (records : List Record) : List Record :=
  let limit := limit.getD records.length
  let offset := offset.getD 0
  if limit = 0 ∨ offset ≥ records.length then []
  else (records.drop offset).take limit

variable {m : Type → Type} [Monad m]

/-- one step; only a scan can fail, and it does not look at the records before it -/
def run (source : Source m) : Step → List Record → ExceptT Error m (List Record)
  | .scan table, _ => do
    let schema ← source.schema table
    let rows ← source.rows table
    return rows.map (recordOf schema)
  | .filter condition, records => return records.filter condition.holds
  | .sort order, records => return sorted order records
  | .slice limit offset, records => return sliced limit offset records
  | .project selection, records => return records.map fun r => r.project selection

/-- a step as debug output shows it -/
def shown : Step → String
  | .scan table => Text.shownCase "Scan" [Text.quoted table]
  | .filter condition => Text.shownCase "Filter" [condition.shown]
  | .sort order => Text.shownCase "Sort" [order.shown]
  | .slice limit offset => Text.shownCase "LimitOffset" [shownCount limit, shownCount offset]
  | .project selection => Text.shownCase "ProjectSelection" [selection.shown]

end Step

abbrev Plan := List Step

namespace Plan

/-- the plan of a select; only scan and projection are in every plan -/
def ofSelect (s : Select) : Plan :=
  [.scan s.table]
    ++ (s.condition.map Step.filter).toList
    ++ (s.order.map Step.sort).toList
    ++ (if s.limit.isSome || s.offset.isSome then [.slice s.limit s.offset] else [])
    ++ [.project s.selection]

/-- the result of a plan: the first step is given no records, and the first error ends it -/
def run {m : Type → Type} [Monad m] (source : Source m) (plan : Plan) : ExceptT Error m (List Record) :=
  inContext "compute select result" (plan.foldlM (fun records step => step.run source records) [])

def shown (plan : Plan) : String := Text.shownList (plan.map Step.shown)

end Plan
end TableStore
