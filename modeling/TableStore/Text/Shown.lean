/-
Values as debug output shows them: a case with its arguments in parentheses, a record with its fields in braces, a list
in brackets, text in quotes.
-/
import TableStore.Text.Quoted

namespace TableStore.Text

def commas (parts : List String) : String := String.intercalate ", " parts

def shownList (parts : List String) : String := "[" ++ commas parts ++ "]"

def shownCase (name : String) (args : List String) : String := name ++ "(" ++ commas args ++ ")"

def shownRecord (name : String) (fields : List (String × String)) : String :=
  name ++ " \x7b " ++ commas (fields.map fun (field, value) => field ++ ": " ++ value) ++ " \x7d"

def shownOption : Option String → String
  | none => "None"
  | some value => shownCase "Some" [value]

end TableStore.Text
