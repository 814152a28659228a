/-
Schemas: the name of a table and its columns with their types, in the order of its creation.
-/
namespace TableStore

structure Column where
  name : String
  type : String
  deriving DecidableEq

structure Schema where
  table : String
  columns : List Column
  deriving DecidableEq

namespace Schema

/-- a schema from names and types side by side; what one list has more than the other is left out -/
def ofColumns (table : String) (names types : List String) : Schema :=
  { table, columns := List.zipWith Column.mk names types }

def names (s : Schema) : List String := s.columns.map Column.name

def types (s : Schema) : List String := s.columns.map Column.type

/-- the first column of a name -/
def column? (s : Schema) (name : String) : Option Column := s.columns.find? (·.name == name)

end Schema
end TableStore
