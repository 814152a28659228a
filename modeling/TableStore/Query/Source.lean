/-
What a select reads from: the schema and the rows of a table, each looked up by name.

A source may be any computation that can fail: a store on disk, or tables that are just there.
-/
import TableStore.Error
import TableStore.Keyed
import TableStore.Schema

namespace TableStore

structure Source (m : Type → Type) where
  schema : String → ExceptT Error m Schema
  rows : String → ExceptT Error m (List Row)

end TableStore
