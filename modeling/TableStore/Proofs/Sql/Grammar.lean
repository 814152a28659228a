/-
The grammar of statements as derivation trees, without the parser.

A `Sentence` is one derivation: which rule was taken at every choice, and the names, texts and counts at its leaves.
Lists hold at least one item and at most `Parser.maxItems`, and counts are natural numbers, so a tree that breaks a
limit of the grammar cannot be written down.
- `Sentence.tokens`: the tokens that a derivation spells, left to right.
- `Sentence.statement`: the statement that it means. `limit` before `offset` and `offset` before `limit` are two
  derivations of one statement.
-/
import Mathlib.Tactic
import TableStore.Sql.Parser

namespace TableStore

namespace Grammar

/-! ## Derivations -/

/-- a list as statements have it: not empty, and not longer than allowed -/
structure Items (α : Type) where
  toList : List α
  ne_nil : toList ≠ []
  length_le : toList.length ≤ Parser.maxItems

inductive SelectList where
  | star
  | names (columns : Items String)

/-- limit and offset as they are written: each at most once, either of them first -/
inductive Slice where
  | none
  | limitFirst (limit : Nat) (offset : Option Nat)
  | offsetFirst (offset : Nat) (limit : Option Nat)

inductive Sentence where
  | select (selection : SelectList) (table : String) (condition : Option Predicate) (order : Option Order)
      (slice : Slice)
  | insert (table : String) (columns : Option (Items String)) (values : Items String)
  | create (table : String) (columns : Items String)

/-! ## What a derivation spells -/

/-- the tokens of items with commas between them -/
def separated {α : Type} (item : α → List Token) : List α → List Token
  | [] => []
  | [x] => item x
  | x :: y :: rest => item x ++ .comma :: separated item (y :: rest)

/-- a list between parentheses -/
def inParens {α : Type} (item : α → List Token) (items : Items α) : List Token :=
  .openParen :: (separated item items.toList ++ [.closeParen])

def symbolTokens (name : String) : List Token := [.symbol name]

def textTokens (value : String) : List Token := [.text value]

def columnTokens (name : String) : List Token := [.symbol name, .keyword .string]

def SelectList.tokens : SelectList → List Token
  | .star => [.star]
  | .names columns => separated symbolTokens columns.toList

def conditionTokens : Option Predicate → List Token
  | none => []
  | some (.equal column value) => [.keyword .where_, .symbol column, .equal, .text value]
  | some (.notEqual column value) => [.keyword .where_, .symbol column, .notEqual, .text value]

def directionToken : Direction → Token
  | .ascending => .keyword .asc
  | .descending => .keyword .desc

def orderTokens : Option Order → List Token
  | none => []
  | some ⟨none, direction⟩ => [.keyword .order, .keyword .by_, directionToken direction]
  | some ⟨some column, direction⟩ => [.keyword .order, .keyword .by_, .symbol column, directionToken direction]

/-- the tokens of a clause with a count, if it is there -/
def countTokens (clause : Clause) : Option Nat → List Token
  | none => []
  | some n => [.keyword clause.keyword, .integer n]

def Slice.tokens : Slice → List Token
  | .none => []
  | .limitFirst limit offset => countTokens .limit (some limit) ++ countTokens .offset offset
  | .offsetFirst offset limit => countTokens .offset (some offset) ++ countTokens .limit limit

def columnsTokens : Option (Items String) → List Token
  | none => []
  | some columns => inParens symbolTokens columns

/-- what follows the name of the table of a select -/
def tailTokens (condition : Option Predicate) (order : Option Order) (slice : Slice) : List Token :=
  conditionTokens condition ++ (orderTokens order ++ slice.tokens)

def Sentence.tokens : Sentence → List Token
  | .select selection table condition order slice =>
    .keyword .select :: (selection.tokens ++ .keyword .from_ :: .symbol table :: tailTokens condition order slice)
  | .insert table columns values =>
    .keyword .insert :: .keyword .into :: .symbol table ::
      (columnsTokens columns ++ .keyword .values :: inParens textTokens values)
  | .create table columns => .keyword .create :: .keyword .table :: .symbol table :: inParens columnTokens columns

/-! ## What a derivation means -/

def SelectList.meaning : SelectList → Selection
  | .star => .all
  | .names columns => .columns columns.toList

def Slice.limit? : Slice → Option Nat
  | .none => Option.none
  | .limitFirst limit _ => some limit
  | .offsetFirst _ limit => limit

def Slice.offset? : Slice → Option Nat
  | .none => Option.none
  | .limitFirst _ offset => offset
  | .offsetFirst offset _ => some offset

/-- the columns of an insert: none are named where there is no list -/
def namedColumns : Option (Items String) → List String
  | none => []
  | some columns => columns.toList

def Sentence.statement : Sentence → Statement
  | .select selection table condition order slice =>
    .select { selection := selection.meaning, table, condition, order, limit := slice.limit?, offset := slice.offset? }
  | .insert table columns values => .insert { table, columns := namedColumns columns, values := values.toList }
  | .create table columns =>
    .create { table, columns := columns.toList, types := List.replicate columns.toList.length Keyword.string.spelling }

end Grammar
end TableStore
