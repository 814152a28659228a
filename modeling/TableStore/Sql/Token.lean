/-
Tokens of the query language, and the kinds by which messages name them.

A query is cut into keywords (any letter case), punctuation, three payload tokens (symbol, text, integer), any other
single character (`unknown`, which no statement accepts) and one closing `eof`.
-/
namespace TableStore

/-- the words with a meaning of their own; they cannot name a table or a column -/
inductive Keyword where
  | select | from_ | where_ | limit | offset | order | by_ | asc | desc
  | insert | into | values | create | table | string
  deriving DecidableEq

namespace Keyword

def all : List Keyword :=
  [.select, .from_, .where_, .limit, .offset, .order, .by_, .asc, .desc, .insert, .into, .values, .create, .table,
    .string]

/-- the lower case spelling -/
def spelling : Keyword → String
  | .select => "select"
  | .from_ => "from"
  | .where_ => "where"
  | .limit => "limit"
  | .offset => "offset"
  | .order => "order"
  | .by_ => "by"
  | .asc => "asc"
  | .desc => "desc"
  | .insert => "insert"
  | .into => "into"
  | .values => "values"
  | .create => "create"
  | .table => "table"
  | .string => "string"

/-- the keyword that a word spells, in any mix of letter case -/
def ofWord? (word : List Char) : Option Keyword :=
  all.find? fun k => k.spelling.toList == word.map Char.toLower

end Keyword

inductive Token where
  | openParen | closeParen | comma | equal | notEqual | bang | star
  | keyword (k : Keyword)
  | symbol (name : String)
  | text (value : String)
  | integer (value : Int)
  | unknown (c : Char)
  | eof
  deriving DecidableEq

namespace Token

/-- a token without its payload: what the parser expects and what messages name -/
inductive Kind where
  | openParen | closeParen | comma | equal | notEqual | bang | star
  | keyword (k : Keyword)
  | symbol | text | integer | unknown | eof
  deriving DecidableEq

def kind : Token → Kind
  | .openParen => .openParen
  | .closeParen => .closeParen
  | .comma => .comma
  | .equal => .equal
  | .notEqual => .notEqual
  | .bang => .bang
  | .star => .star
  | .keyword k => .keyword k
  | .symbol _ => .symbol
  | .text _ => .text
  | .integer _ => .integer
  | .unknown _ => .unknown
  | .eof => .eof

/-- the name of a kind in messages -/
def Kind.name : Kind → String
  | .openParen => "("
  | .closeParen => ")"
  | .comma => ","
  | .equal => "="
  | .notEqual => "!="
  | .bang => "!"
  | .star => "*"
  | .keyword k => k.spelling
  | .symbol => "symbol"
  | .text => "string value"
  | .integer => "integer value"
  | .unknown => "unknown character"
  | .eof => "EOF"

end Token
end TableStore
