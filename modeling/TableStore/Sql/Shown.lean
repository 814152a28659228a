/-
Statements as debug output shows them.
-/
import TableStore.Sql.Statement
import TableStore.Text.Shown

namespace TableStore
open Text

def Selection.shown : Selection → String
  | .all => "All"
  | .columns names => shownCase "Some" [shownList (names.map quoted)]

def Predicate.shown : Predicate → String
  | .equal column value => shownCase "Equal" [quoted column, quoted value]
  | .notEqual column value => shownCase "NotEqual" [quoted column, quoted value]

def Direction.shown : Direction → String
  | .ascending => "Asc"
  | .descending => "Desc"

def Order.shown (o : Order) : String :=
  shownRecord "OrderBy" [("column_name", shownOption (o.column.map quoted)), ("order", o.direction.shown)]

/-- a count that may be missing -/
def shownCount (n : Option Nat) : String := shownOption (n.map toString)

def Select.shown (s : Select) : String :=
  shownRecord "SelectStatement" [("selection", s.selection.shown), ("table_name", quoted s.table),
    ("where_expr", shownOption (s.condition.map Predicate.shown)), ("order_by", shownOption (s.order.map Order.shown)),
    ("limit", shownCount s.limit), ("offset", shownCount s.offset)]

def Insert.shown (i : Insert) : String :=
  shownRecord "InsertStatement" [("table_name", quoted i.table), ("columns", shownList (i.columns.map quoted)),
    ("values", shownList (i.values.map quoted))]

def Create.shown (c : Create) : String :=
  shownRecord "CreateTableStatement" [("table_name", quoted c.table), ("columns", shownList (c.columns.map quoted)),
    ("types", shownList (c.types.map quoted))]

def Statement.shown : Statement → String
  | .select s => shownCase "Select" [s.shown]
  | .insert i => shownCase "Insert" [i.shown]
  | .create c => shownCase "CreateTable" [c.shown]

end TableStore
