/-
The catalog: the schemas of all tables, in the order of their creation, in one JSON file.

    {"tables":[{"name":"item","columns":[{"name":"id","type":"string"}]}]}

Every operation reads the file anew and, where it changes something, saves it as a whole; an empty file is an empty
catalog.
-/
import TableStore.Options
import TableStore.Schema
import TableStore.Store.Document

namespace TableStore

/-! ## JSON -/

open Json (Reading)

def Column.json (c : Column) : Json := .object [("name", .text c.name), ("type", .text c.type)]

def Column.fields : List (Json.Field Column) :=
  [.required "name" .text fun c name => { c with name }, .required "type" .text fun c type => { c with type }]

def Column.reading : Reading Column := .record "Column" fields { name := "", type := "" }

def Schema.json (s : Schema) : Json :=
  .object [("name", .text s.table), ("columns", .array (s.columns.map Column.json))]

def Schema.fields : List (Json.Field Schema) :=
  [.required "name" .text fun s table => { s with table },
    .required "columns" (.list Column.reading) fun s columns => { s with columns }]

def Schema.reading : Reading Schema := .record "Schema" fields { table := "", columns := [] }

/-- an open catalog -/
structure Catalog where
  file : DataFile

namespace Catalog

def encode (schemas : List Schema) : Bytes :=
  Json.render (.object [("tables", .array (schemas.map Schema.json))])

def fields : List (Json.Field (List Schema)) := [.required "tables" (.list Schema.reading) fun _ schemas => schemas]

def reading : Reading (List Schema) := .record "CatalogContent" fields []

def decode (bytes : Bytes) : Except Json.Fault (List Schema) :=
  if bytes.isEmpty then .ok [] else reading.document bytes

/-! ## Operations -/

def openWith (options : Options) : StoreM Catalog :=
  return { file := ← Document.openAs .catalog options.catalogPath .readWrite }

def schemas (c : Catalog) : StoreM (List Schema) := do
  Document.decoded .catalog c.file decode (← Document.bytes .catalog c.file)

def save (c : Catalog) (schemas : List Schema) : StoreM Unit :=
  Document.save .catalog c.file (encode schemas)

/-- the only type of columns -/
def columnType : String := "string"

/-- add a table; its columns are checked before the file is read -/
def add (c : Catalog) (table : String) (columns types : List String) : StoreM Unit := do
  if columns.length ≠ types.length then
    throw (.columnMismatch "the length of cols and types must be the same")
  if columns.isEmpty then throw (.columnMismatch "table must have at least one column")
  if let some type := types.find? (· != columnType) then throw (.invalidType type)
  let schemas ← c.schemas
  if schemas.any (·.table == table) then throw (.tableExists table)
  c.save (schemas ++ [.ofColumns table columns types])

/-- remove all tables of a name; if there is none, nothing is written -/
def remove (c : Catalog) (table : String) : StoreM Unit := do
  let schemas ← c.schemas
  let kept := schemas.filter (·.table != table)
  if kept.length ≠ schemas.length then c.save kept

/-- the schema of the first table of a name -/
def schema (c : Catalog) (table : String) : StoreM Schema := do
  match (← c.schemas).find? (·.table == table) with
  | some schema => return schema
  | none => throw (.tableNotFound table)

end Catalog
end TableStore
