/-
A database: tables on a disk, and query texts executed on them, one statement each.
-/
import TableStore.Query.Plan
import TableStore.Sql.Query
import TableStore.Store.Tables

namespace TableStore

/-- what a statement answers -/
inductive Answer where
  | created (table : String)
  | inserted
  | records (records : List Record)
  deriving DecidableEq

def Answer.message : Answer → String
  | .created table => "table " ++ table ++ " created"
  | .inserted => "inserted"
  | .records [] => "no results"
  | .records rs => toString rs.length ++ " records"

structure Database where
  tables : Tables

namespace Database

def openWith (options : Options) : StoreM Database :=
  return { tables := ← Tables.openWith options }

def perform (db : Database) : Statement → StoreM Answer
  | .create c => inContext "execute create statement" do
    db.tables.create c.table c.columns c.types
    return .created c.table
  | .insert i => inContext "execute insert statement" do
    db.tables.insert i.table i.columns i.values
    return .inserted
  | .select s => inContext "execute select statement" do
    return .records (← (Plan.ofSelect s).run db.tables.source)

def execute (db : Database) (query : String) : StoreM Answer := do
  let statement ← inContext "grammatically invalid" (ExceptT.mk (pure (Statement.parse query)) : StoreM Statement)
  db.perform statement

end Database
end TableStore
