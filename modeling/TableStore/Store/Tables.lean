/-
Tables: a catalog and a tablespace that name the same tables.

A table is put into the catalog first and into the tablespace second; if the second step fails, the first one is undone.
An insert looks the schema up, makes the row, and appends it.
-/
import TableStore.Query.Source
import TableStore.Store.Catalog
import TableStore.Store.Tablespace

namespace TableStore

/-- why values make no row of a table -/
inductive RowFault where
  | valueCount (table : String) (columns values : Nat)
  | pairCount (columns values : Nat)
  | unknownColumn (column table : String)
  deriving DecidableEq

def RowFault.message : RowFault → String
  | .valueCount table columns values =>
    "table " ++ table ++ " has " ++ toString columns ++ " columns but " ++ toString values ++ " values were given"
  | .pairCount columns values =>
    "the number of columns (" ++ toString columns ++ ") and values (" ++ toString values ++ ") must be the same"
  | .unknownColumn column table => "column " ++ column ++ " not found in table " ++ table

/-- the row that an insert makes: values for all columns in their order, or for the named ones -/
def Schema.row (s : Schema) (columns values : List String) : Except RowFault Row :=
  if columns.isEmpty then
    if values.length ≠ s.columns.length then .error (.valueCount s.table s.columns.length values.length)
    else .ok (Keyed.ofPairs (s.names.zip values))
  else if columns.length ≠ values.length then .error (.pairCount columns.length values.length)
  else
    match columns.find? fun column => (s.column? column).isNone with
    | some column => .error (.unknownColumn column s.table)
    | none => .ok (Keyed.ofPairs (columns.zip values))

structure Tables where
  catalog : Catalog
  tablespace : Tablespace

namespace Tables

def openWith (options : Options) : StoreM Tables := do
  let catalog ← Catalog.openWith options
  let tablespace ← Tablespace.openWith options
  return { catalog, tablespace }

/-- create a table in both files, or in none; the second step's error stands, whatever becomes of undoing the first -/
def create (t : Tables) (table : String) (columns types : List String) : StoreM Unit := do
  inContext ("add table " ++ table ++ " in catalog") (t.catalog.add table columns types)
  match ← ExceptT.lift (t.tablespace.create table).run with
  | .ok () => return
  | .error e =>
    let _ ← ExceptT.lift (t.catalog.remove table).run
    throw (.inContext ("create table " ++ table) e)

def insert (t : Tables) (table : String) (columns values : List String) : StoreM Unit := do
  let schema ← t.catalog.schema table
  let row ← (schema.row columns values).mapError fun fault => Error.columnMismatch fault.message
  inContext ("save data into " ++ table) (t.tablespace.append table row)

/-- the tables as what selects read from -/
def source (t : Tables) : Source Program :=
  { schema := t.catalog.schema, rows := t.tablespace.rows }

end Tables
end TableStore
