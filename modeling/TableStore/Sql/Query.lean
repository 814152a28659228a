/-
Query texts as statements, with the error that a caller is shown.
-/
import TableStore.Error
import TableStore.Sql.Parser

namespace TableStore

/-- the statement of a query text, or the error that says why there is none -/
def Statement.parse (query : String) : Except Error Statement :=
  (Statement.ofQuery query).mapError fun e => .inContext "parse statement" (.ofQuery e)

end TableStore
