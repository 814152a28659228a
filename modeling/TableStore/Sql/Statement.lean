/-
Statements of the query language: what a query asks for, once it is understood.

A select names its columns (or `*`), one table, at most one comparison with a literal, at most one sort column and a
slice of the result; an insert gives values for all columns or for the named ones; a create gives columns with types.
-/
namespace TableStore

/-- which columns a select shows -/
inductive Selection where
  | all
  | columns (names : List String)
  deriving DecidableEq

def Selection.contains : Selection → String → Bool
  | .all, _ => true
  | .columns names, name => names.contains name

/-- a comparison of a column with a literal -/
inductive Predicate where
  | equal (column value : String)
  | notEqual (column value : String)
  deriving DecidableEq

inductive Direction where
  | ascending | descending
  deriving DecidableEq

/-- a sort; without a column the first column of the records counts -/
structure Order where
  column : Option String
  direction : Direction
  deriving DecidableEq

structure Select where
  selection : Selection
  table : String
  condition : Option Predicate
  order : Option Order
  limit : Option Nat
  offset : Option Nat
  deriving DecidableEq

/-- an insert; no columns stand for all columns of the table, in its order -/
structure Insert where
  table : String
  columns : List String
  values : List String
  deriving DecidableEq

structure Create where
  table : String
  columns : List String
  types : List String
  deriving DecidableEq

inductive Statement where
  | select (s : Select)
  | insert (i : Insert)
  | create (c : Create)
  deriving DecidableEq

end TableStore
