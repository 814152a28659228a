/-
The parser: tokens to one statement, by recursive descent with one token of lookahead.

    statement := (select | insert | create) eof
    select    := "select" ("*" | symbol ("," symbol)*) "from" symbol condition? order? slice?
    condition := "where" symbol ("=" | "!=") text
    order     := "order" "by" symbol? ("asc" | "desc")
    slice     := "limit" integer ("offset" integer)? | "offset" integer ("limit" integer)?
    insert    := "insert" "into" symbol ("(" symbol ("," symbol)* ")")? "values" "(" text ("," text)* ")"
    create    := "create" "table" symbol "(" symbol "string" ("," symbol "string")* ")"

A parser works on the tokens still to be read and keeps its place when it fails. `eof` is never passed, so tokens behind
the first one are never looked at. Every list has at most `maxItems` items; the item after them is refused unread.
-/
import TableStore.Sql.Lexer
import TableStore.Sql.Statement

namespace TableStore

/-- a parser over the tokens still to be read; they stay as they are where it failed -/
abbrev Parser := ExceptT QueryError (StateM (List Token))

namespace Parser

/-- the most items that a list of a statement may have -/
def maxItems : Nat := 100

/-- the token to be read next; the end of the tokens counts as `eof` -/
def peek : Parser Token := do
  return (← get).headD .eof

/-- pass one token, but never `eof` -/
def advance : Parser Unit :=
  modify fun
    | .eof :: rest => .eof :: rest
    | ts => ts.tail

/-- pass a token of this kind, if it comes next -/
def accept (kind : Token.Kind) : Parser Bool := do
  if (← peek).kind = kind then
    advance
    return true
  else return false

def expect (kind : Token.Kind) : Parser Unit := do
  let found := (← peek).kind
  if found = kind then advance
  else throw (.unexpected kind found)

def keyword (k : Keyword) : Parser Unit := expect (.keyword k)

def identifier : Parser String := do
  match ← peek with
  | .symbol name => advance; return name
  | other => throw (.unexpected .symbol other.kind)

def literal : Parser String := do
  match ← peek with
  | .text value => advance; return value
  | other => throw (.unexpected .text other.kind)

def integer : Parser Int := do
  match ← peek with
  | .integer value => advance; return value
  | other => throw (.unexpected .integer other.kind)

/-- the count of a clause, its keyword being read -/
def count (clause : Clause) : Parser Nat := do
  let n ← integer
  if n < 0 then throw (.negative clause)
  return n.toNat

/-- a clause that may be missing -/
def count? (clause : Clause) : Parser (Option Nat) := do
  if ← accept (.keyword clause.keyword) then some <$> count clause
  else return none

/-- at most `room` items with commas between them and a closing parenthesis behind them -/
def items {α : Type} (listing : Listing) (item : Parser α) : Nat → Parser (List α)
  | 0 => throw (.tooMany listing)
  | room + 1 => do
    let x ← item
    if ← accept .closeParen then return [x]
    expect .comma
    return x :: (← items listing item room)

/-- at most `room` column names with commas between them -/
def names : Nat → Parser (List String)
  | 0 => throw (.tooMany .selection)
  | room + 1 => do
    let name ← identifier
    if ← accept .comma then return name :: (← names room)
    return [name]

def selection : Parser Selection := do
  if ← accept .star then return .all
  return .columns (← names maxItems)

def condition : Parser (Option Predicate) := do
  unless ← accept (.keyword .where_) do return none
  let column ← identifier
  if ← accept .equal then return some (.equal column (← literal))
  if ← accept .notEqual then return some (.notEqual column (← literal))
  throw .noComparison

def direction : Parser Direction := do
  if ← accept (.keyword .asc) then return .ascending
  if ← accept (.keyword .desc) then return .descending
  throw .noDirection

def order : Parser (Option Order) := do
  unless ← accept (.keyword .order) do return none
  unless ← accept (.keyword .by_) do throw .noBy
  let column ← match ← peek with
    | .symbol _ => some <$> identifier
    | _ => pure none
  return some { column, direction := ← direction }

/-- limit and offset, in either order -/
def slice : Parser (Option Nat × Option Nat) := do
  match ← count? .limit with
  | some limit => return (some limit, ← count? .offset)
  | none =>
    match ← count? .offset with
    | some offset => return (← count? .limit, some offset)
    | none => return (none, none)

def select : Parser Select := do
  let selection ← selection
  keyword .from_
  let table ← identifier
  let condition ← condition
  let order ← order
  let (limit, offset) ← slice
  return { selection, table, condition, order, limit, offset }

def insert : Parser Insert := do
  keyword .into
  let table ← identifier
  let columns ← if ← accept .openParen then items .insertColumns identifier maxItems else pure []
  keyword .values
  expect .openParen
  let values ← items .insertValues literal maxItems
  return { table, columns, values }

/-- a column and its type; the only type is `string` -/
def typedColumn : Parser (String × String) := do
  let name ← identifier
  keyword .string
  return (name, Keyword.string.spelling)

def create : Parser Create := do
  keyword .table
  let table ← identifier
  expect .openParen
  let columns ← items .tableColumns typedColumn maxItems
  return { table, columns := columns.map (·.1), types := columns.map (·.2) }

/-- a statement up to its last token, by the keyword that opens it -/
def body : Parser Statement := do
  let first ← peek
  advance
  match first with
  | .keyword .select => .select <$> select
  | .keyword .insert => .insert <$> insert
  | .keyword .create => .create <$> create
  | other => throw (.noStatement other.kind)

/-- one statement and nothing after it -/
def statement : Parser Statement := do
  let s ← body
  expect .eof
  return s

end Parser

/-- tokens with an `eof` behind them, unless one is there -/
def Token.closed (tokens : List Token) : List Token :=
  if tokens.getLast? = some .eof then tokens else tokens ++ [.eof]

/-- the statement that the tokens make -/
def Statement.ofTokens (tokens : List Token) : Except QueryError Statement :=
  (Parser.statement.run.run (Token.closed tokens)).1

/-- the statement that a query text makes -/
def Statement.ofQuery (query : String) : Except QueryError Statement :=
  Lexer.tokens query >>= Statement.ofTokens

end TableStore
