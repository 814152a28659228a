/-
Why a query text is no statement: the causes the lexer and the parser report, and their wording.

A cause names kinds of tokens only, never their payload, so two queries that differ in payloads fail alike.
-/
import TableStore.Sql.Token

namespace TableStore

/-- the two quote characters around a text -/
inductive Quote where
  | double | single
  deriving DecidableEq

def Quote.mark : Quote → Char
  | .double => '\x22'
  | .single => '\x27'

/-- the lists of a statement, each of at most `maxItems` items -/
inductive Listing where
  | selection | insertColumns | insertValues | tableColumns
  deriving DecidableEq

/-- the clauses that take a count -/
inductive Clause where
  | limit | offset
  deriving DecidableEq

def Clause.keyword : Clause → Keyword
  | .limit => .limit
  | .offset => .offset

inductive QueryError where
  | unterminated (quote : Quote)
  | noStatement (found : Token.Kind)
  | unexpected (expected found : Token.Kind)
  | tooMany (listing : Listing)
  | noComparison
  | noBy
  | noDirection
  | negative (clause : Clause)
  deriving DecidableEq

namespace QueryError

/-- the message of a list that goes on after `maxItems` items -/
def tooManyMessage : Listing → String
  | .selection => "number of columns must be less than 100"
  | .insertColumns => "cols must be less than 100"
  | .insertValues => "values must be less than 100"
  | .tableColumns => "a table can contain 100 columns at most"

def message : QueryError → String
  | .unterminated .double => "double quote not terminated"
  | .unterminated .single => "single quote not terminated"
  | .noStatement found => "unknown token type: " ++ found.name
  | .unexpected expected found => expected.name ++ " is expected but got " ++ found.name
  | .tooMany listing => tooManyMessage listing
  | .noComparison => "= or != must be specified in where clause"
  | .noBy => "'by' must follow 'order'"
  | .noDirection => "invalid direction specified after 'order by'"
  | .negative clause => clause.keyword.spelling ++ " must not be negative"

/-- a token of another kind was expected (or no statement begins so); all other causes are malformed clauses -/
def isIllegalToken : QueryError → Bool
  | .noStatement _ | .unexpected _ _ => true
  | _ => false

end QueryError
end TableStore
