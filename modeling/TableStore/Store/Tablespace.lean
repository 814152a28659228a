/-
The tablespace: the rows of all tables in one JSON file, an object with a list of rows under the name of each table.

    {"item":[{"id":"1","name":"laptop"},{"id":"2"}]}

As in the catalog, every operation reads the whole file, and a change puts a whole one in its place. An empty file is no
tablespace yet: it has no table, and unlike a tablespace without tables it takes no rows.
-/
import TableStore.Keyed
import TableStore.Options
import TableStore.Store.Document

namespace TableStore

/-! ## JSON -/

open Json (Reading)

def Row.json (r : Row) : Json := .object (r.entries.map fun (column, value) => (column, .text value))

/-- of values of one column the last one counts -/
def Row.reading : Reading Row := Keyed.ofPairs <$> .map .text

/-- an open tablespace -/
structure Tablespace where
  file : DataFile

namespace Tablespace

def encode (content : Keyed (List Row)) : Bytes :=
  Json.render (.object (content.entries.map fun (table, rows) => (table, .array (rows.map Row.json))))

/-- of tables of one name the last one counts -/
def reading : Reading (Keyed (List Row)) := Keyed.ofPairs <$> .map (.list Row.reading)

def decode (bytes : Bytes) : Except Json.Fault (Option (Keyed (List Row))) :=
  if bytes.isEmpty then .ok none else some <$> reading.document bytes

/-! ## Operations -/

def openWith (options : Options) : StoreM Tablespace :=
  return { file := ← Document.openAs .tablespace options.tablespacePath .readWrite }

/-- the content, if anything has been written yet -/
def content (t : Tablespace) : StoreM (Option (Keyed (List Row))) := do
  Document.decoded .tablespace t.file decode (← Document.bytes .tablespace t.file)

def save (t : Tablespace) (content : Keyed (List Row)) : StoreM Unit :=
  Document.save .tablespace t.file (encode content)

/-- add a table without rows -/
def create (t : Tablespace) (table : String) : StoreM Unit := do
  let content := (← t.content).getD ∅
  if content.contains table then throw (.tableExists table)
  t.save (content.insert table [])

def rows (t : Tablespace) (table : String) : StoreM (List Row) := do
  match (← t.content) >>= (·.find? table) with
  | some rows => return rows
  | none => throw (.tableNotFound table)

/-- add a row behind the rows of a table -/
def append (t : Tablespace) (table : String) (row : Row) : StoreM Unit := do
  match ← t.content with
  | none => throw (.tableNotFound table)
  | some content =>
    match content.find? table with
    | none => throw (.tableNotFound table)
    | some rows => t.save (content.insert table (rows ++ [row]))

end Tablespace
end TableStore
