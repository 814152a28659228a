/-
The parser looks at no token behind the first `eof`.

Here the parser of statements is written once more as a `Tracker`: over all tokens and a position in them, with every
look at a token and every item of a list on its track, and with lists that count the items they have read. It follows
the parser of the library clause by clause. So it may be asked for statements again and again, whatever the answers are:
it always has one, and it never leaves the tokens up to the first `eof`.

Result:
  stays_among_tokens   any number of calls on any tokens have the answers of the parser; every look is at a token with
                       no `eof` before it, the position never decreases, and no list has more than 100 items begun.
-/
import TableStore.Proofs.Sql.Recognition
import TableStore.Proofs.Sql.Track

namespace TableStore

namespace Tracker

variable {α : Type}

/-! ## The parser at a position -/

def keyword (k : Keyword) : Tracker Unit := expect (.keyword k)

def identifier : Tracker String := payload .symbol fun
  | .symbol name => some name
  | _ => none

def literal : Tracker String := payload .text fun
  | .text value => some value
  | _ => none

def integer : Tracker Int := payload .integer fun
  | .integer value => some value
  | _ => none

/-- the count of a clause, its keyword being read -/
def count (clause : Clause) : Tracker Nat := do
  let n ← integer
  if n < 0 then throw (.negative clause)
  return n.toNat

/-- a clause that may be missing -/
def count? (clause : Clause) : Tracker (Option Nat) := do
  if ← accept (.keyword clause.keyword) then some <$> count clause
  else return none

/-- Items of a list, added to those already read, as long as there are more behind them. The loop ends since it stops
when there are as many as there may be, and there are never more: that is what `fits` is carried along for. -/
def listed (listing : Listing) (item : Tracker α) (more : Tracker Bool) (read : List α)
    (fits : read.length ≤ Parser.maxItems) : Tracker (List α) :=
  if _full : read.length = Parser.maxItems then throw (.tooMany listing)
  else do
    beginItem (read.length + 1)
    let x ← item
    if ← more then listed listing item more (read ++ [x]) (by rw [List.length_append, List.length_singleton]; omega)
    else return read ++ [x]
termination_by Parser.maxItems - read.length
decreasing_by
  rw [List.length_append, List.length_singleton]
  omega

/-- what stands behind an item between parentheses: a comma if there are more, and the closing parenthesis if not -/
def commaOrClose : Tracker Bool := do
  if ← accept .closeParen then return false
  expect .comma
  return true

/-- items with commas between them and a closing parenthesis behind them -/
def items (listing : Listing) (item : Tracker α) : Tracker (List α) :=
  listed listing item commaOrClose [] (Nat.zero_le _)

/-- column names with commas between them -/
def names : Tracker (List String) := listed .selection identifier (accept .comma) [] (Nat.zero_le _)

def selection : Tracker Selection := do
  if ← accept .star then return .all
  return .columns (← names)

def condition : Tracker (Option Predicate) := do
  unless ← accept (.keyword .where_) do return none
  let column ← identifier
  if ← accept .equal then return some (.equal column (← literal))
  if ← accept .notEqual then return some (.notEqual column (← literal))
  throw .noComparison

def direction : Tracker Direction := do
  if ← accept (.keyword .asc) then return .ascending
  if ← accept (.keyword .desc) then return .descending
  throw .noDirection

def order : Tracker (Option Order) := do
  unless ← accept (.keyword .order) do return none
  unless ← accept (.keyword .by_) do throw .noBy
  let column ← match ← peek with
    | .symbol _ => some <$> identifier
    | _ => pure none
  return some { column, direction := ← direction }

/-- limit and offset, in either order -/
def slice : Tracker (Option Nat × Option Nat) := do
  match ← count? .limit with
  | some limit => return (some limit, ← count? .offset)
  | none =>
    match ← count? .offset with
    | some offset => return (← count? .limit, some offset)
    | none => return (none, none)

def select : Tracker Select := do
  let selection ← selection
  keyword .from_
  let table ← identifier
  let condition ← condition
  let order ← order
  let (limit, offset) ← slice
  return { selection, table, condition, order, limit, offset }

def insert : Tracker Insert := do
  keyword .into
  let table ← identifier
  let columns ← if ← accept .openParen then items .insertColumns identifier else pure []
  keyword .values
  expect .openParen
  let values ← items .insertValues literal
  return { table, columns, values }

/-- a column and its type; the only type is `string` -/
def typedColumn : Tracker (String × String) := do
  let name ← identifier
  keyword .string
  return (name, Keyword.string.spelling)

def create : Tracker Create := do
  keyword .table
  let table ← identifier
  expect .openParen
  let columns ← items .tableColumns typedColumn
  return { table, columns := columns.map (·.1), types := columns.map (·.2) }

/-- a statement up to its last token, by the keyword that opens it -/
def body : Tracker Statement := do
  match ← advance with
  | .keyword .select => .select <$> select
  | .keyword .insert => .insert <$> insert
  | .keyword .create => .create <$> create
  | other => throw (.noStatement other.kind)

/-- one statement and nothing after it -/
def statement : Tracker Statement := do
  let s ← body
  expect .eof
  return s

end Tracker

/-! ## Lists that count down -/

namespace Parser

variable {α : Type} {listing : Listing} {item : Parser α} {more : Parser Bool} {list : Nat → Parser (List α)}

/-- a list that is given room for some items, and gives the items behind its first one the room that is left -/
structure CountsDown (listing : Listing) (item : Parser α) (more : Parser Bool) (list : Nat → Parser (List α)) :
    Prop where
  full : list 0 = throw (.tooMany listing)
  next : ∀ room, list (room + 1) = (do
    let x ← item
    if ← more then return x :: (← list room)
    return [x])

/-- behind items already read, when one more of the list's items is read -/
theorem CountsDown.append (h : CountsDown listing item more list) (read : List α) (room : Nat) :
    (do return read ++ (← list (room + 1))) = (do
      let x ← item
      if ← more then return read ++ [x] ++ (← list room)
      return read ++ [x]) := by
  rw [h.next]
  simp only [bind_assoc]
  refine bind_congr fun x => bind_congr fun goesOn => ?_
  cases goesOn with
  | true => simp
  | false => simp

theorem countsDown_names : CountsDown .selection identifier (accept .comma) names := ⟨rfl, fun _ => rfl⟩

/-- whether there are more items behind one between parentheses -/
def commaOrClose : Parser Bool := do
  if ← accept .closeParen then return false
  expect .comma
  return true

theorem countsDown_items (listing : Listing) (item : Parser α) :
    CountsDown listing item commaOrClose (items listing item) := by
  refine ⟨rfl, fun room => ?_⟩
  rw [items, commaOrClose]
  simp only [bind_assoc]
  refine bind_congr fun x => bind_congr fun closed => ?_
  cases closed with
  | true => simp
  | false => simp

end Parser

/-! ## The same answers -/

namespace Tracker

theorem follows_identifier : Follows identifier Parser.identifier := by
  apply follows_payload
  intro t
  cases t <;> rfl

theorem follows_literal : Follows literal Parser.literal := by
  apply follows_payload
  intro t
  cases t <;> rfl

theorem follows_integer : Follows integer Parser.integer := by
  apply follows_payload
  intro t
  cases t <;> rfl

theorem follows_count (clause : Clause) : Follows (count clause) (Parser.count clause) := by
  apply follows_integer.bind
  intro n
  exact .ite (follows_throw_bind _ _ _) (follows_pure _)

theorem follows_count? (clause : Clause) : Follows (count? clause) (Parser.count? clause) := by
  apply (follows_accept _).bind
  intro found
  exact .ite ((follows_count clause).map some) (follows_pure none)

section Lists

variable {listing : Listing} {item : Tracker α} {more : Tracker Bool} {item' : Parser α} {more' : Parser Bool}
  {list : Nat → Parser (List α)} {room : Nat}

/-- adding up what has been read comes to the same as counting down the room: by induction on the room that is left -/
theorem follows_listed (counts : Parser.CountsDown listing item' more' list) (one : Follows item item')
    (goesOn : Follows more more') {read : List α} (fits : read.length ≤ Parser.maxItems)
    (count : read.length + room = Parser.maxItems) :
    Follows (listed listing item more read fits) (do return read ++ (← list room)) := by
  induction room generalizing read with
  | zero =>
    rw [listed, dif_pos (by omega), counts.full]
    exact fun _ track _ stands => ⟨track, rfl, stands⟩
  | succ room ih =>
    have count' : ∀ x, (read ++ [x]).length + room = Parser.maxItems := by
      intro x
      rw [List.length_append, List.length_singleton]
      omega
    rw [listed, dif_neg (by omega), counts.append]
    apply follows_beginItem (by omega)
    apply one.bind
    intro x
    apply goesOn.bind
    intro more
    exact .ite (ih _ (count' x)) (follows_pure _)

theorem follows_list (counts : Parser.CountsDown listing item' more' list) (one : Follows item item')
    (goesOn : Follows more more') :
    Follows (listed listing item more [] (Nat.zero_le _)) (list Parser.maxItems) := by
  have whole : Follows (listed listing item more [] (Nat.zero_le _)) (do return [] ++ (← list Parser.maxItems)) :=
    follows_listed counts one goesOn _ (Nat.zero_add _)
  simpa using whole

end Lists

theorem follows_names : Follows names (Parser.names Parser.maxItems) :=
  follows_list Parser.countsDown_names follows_identifier (follows_accept .comma)

theorem follows_commaOrClose : Follows commaOrClose Parser.commaOrClose := by
  apply (follows_accept _).bind
  intro closed
  exact .ite (follows_pure false) ((follows_expect _).bind fun _ => follows_pure true)

theorem follows_items {item : Tracker α} {item' : Parser α} (one : Follows item item') (listing : Listing) :
    Follows (items listing item) (Parser.items listing item' Parser.maxItems) :=
  follows_list (Parser.countsDown_items listing item') one follows_commaOrClose

theorem follows_selection : Follows selection Parser.selection := by
  apply (follows_accept _).bind
  intro star
  exact .ite (follows_pure _) (follows_names.bind fun _ => follows_pure _)

theorem follows_condition : Follows condition Parser.condition := by
  apply (follows_accept _).bind
  intro found
  refine .ite ?_ (follows_pure none)
  apply follows_identifier.bind
  intro column
  apply (follows_accept _).bind
  intro equal
  apply Follows.ite
  · exact follows_literal.bind fun _ => follows_pure _
  · apply (follows_accept _).bind
    intro notEqual
    exact .ite (follows_literal.bind fun _ => follows_pure _) (follows_throw _)

theorem follows_direction : Follows direction Parser.direction := by
  apply (follows_accept _).bind
  intro asc
  refine .ite (follows_pure _) ?_
  apply (follows_accept _).bind
  intro desc
  exact .ite (follows_pure _) (follows_throw _)

theorem follows_order : Follows order Parser.order := by
  apply (follows_accept _).bind
  intro found
  refine .ite ?_ (follows_pure none)
  apply (follows_accept _).bind
  intro found
  refine .ite ?_ (follows_throw_bind _ _ _)
  apply follows_peek.bind
  intro t
  cases t with
  | symbol name => exact (follows_identifier.map some).bind fun _ => follows_direction.bind fun _ => follows_pure _
  | _ => exact (follows_pure none).bind fun _ => follows_direction.bind fun _ => follows_pure _

theorem follows_slice : Follows slice Parser.slice := by
  apply (follows_count? _).bind
  intro limit
  cases limit with
  | some limit => exact (follows_count? _).bind fun _ => follows_pure _
  | none =>
    apply (follows_count? _).bind
    intro offset
    cases offset with
    | some offset => exact (follows_count? _).bind fun _ => follows_pure _
    | none => exact follows_pure _

theorem follows_select : Follows select Parser.select :=
  follows_selection.bind fun _ => (follows_expect _).bind fun _ => follows_identifier.bind fun _ =>
    follows_condition.bind fun _ => follows_order.bind fun _ => follows_slice.bind fun _ => follows_pure _

theorem follows_insert : Follows insert Parser.insert := by
  have behind : ∀ (table : String) (columns : List String), Follows (do
      keyword .values
      expect .openParen
      let values ← items .insertValues literal
      return ({ table, columns, values } : Insert)) (do
      Parser.keyword .values
      Parser.expect .openParen
      let values ← Parser.items .insertValues Parser.literal Parser.maxItems
      return ({ table, columns, values } : Insert)) := by
    intro table columns
    exact (follows_expect _).bind fun _ => (follows_expect _).bind fun _ =>
      (follows_items follows_literal _).bind fun _ => follows_pure _
  apply (follows_expect _).bind
  intro _
  apply follows_identifier.bind
  intro table
  apply (follows_accept _).bind
  intro parens
  apply Follows.ite
  · exact (follows_items follows_identifier _).bind (behind table)
  · exact (follows_pure []).bind (behind table)

theorem follows_typedColumn : Follows typedColumn Parser.typedColumn :=
  follows_identifier.bind fun _ => (follows_expect _).bind fun _ => follows_pure _

theorem follows_create : Follows create Parser.create :=
  (follows_expect _).bind fun _ => follows_identifier.bind fun _ => (follows_expect _).bind fun _ =>
    (follows_items follows_typedColumn _).bind fun _ => follows_pure _

theorem follows_body : Follows body Parser.body := by
  have same : Parser.body = (do
      let first ← (do let t ← Parser.peek; Parser.advance; return t)
      match first with
      | .keyword .select => .select <$> Parser.select
      | .keyword .insert => .insert <$> Parser.insert
      | .keyword .create => .create <$> Parser.create
      | other => throw (.noStatement other.kind)) := by
    simp only [bind_assoc, pure_bind]
    rfl
  rw [same]
  apply follows_advance.bind
  intro first
  split
  · exact follows_select.map _
  · exact follows_insert.map _
  · exact follows_create.map _
  · exact follows_throw _

theorem follows_statement : Follows statement Parser.statement :=
  follows_body.bind fun _ => (follows_expect _).bind fun _ => follows_pure _

/-! ## Calls -/

/-- the answers of so many calls, each of them where the one before has stopped, and where the last one has -/
def calls (tokens : List Token) : Nat → Track → Option (List (Except QueryError Statement) × Track)
  | 0, track => some ([], track)
  | n + 1, track => do
    let (first, track) ← statement.on tokens track
    let (more, track) ← calls tokens n track
    return (first :: more, track)

end Tracker

namespace Parser

/-- the answers of so many calls, each of them on the tokens that the one before has left, and what is left then -/
def calls : Nat → List Token → List (Except QueryError Statement) × List Token
  | 0, ts => ([], ts)
  | n + 1, ts =>
    let (first, rest) := statement.on ts
    let (more, left) := calls n rest
    (first :: more, left)

theorem length_calls (n : Nat) (ts : List Token) : (calls n ts).1.length = n := by
  induction n generalizing ts with
  | zero => rfl
  | succ n ih => exact congrArg (· + 1) (ih _)

end Parser

namespace Tracker

/-- by induction on the calls: each one leaves the tracker where the next one may start, whatever it answers -/
theorem follows_calls (n : Nat) {tokens rest : List Token} {track : Track} (stands : Stands tokens track rest) :
    ∃ track', calls tokens n track = some ((Parser.calls n rest).1, track') ∧
      Stands tokens track' (Parser.calls n rest).2 := by
  induction n generalizing track rest with
  | zero => exact ⟨track, rfl, stands⟩
  | succ n ih =>
    obtain ⟨track', ran, there⟩ := follows_statement tokens track rest stands
    obtain ⟨last, ran', behind⟩ := ih there
    refine ⟨last, ?_, behind⟩
    show (statement.on tokens track).bind _ = _
    rw [ran]
    show (calls tokens n track').bind _ = _
    rw [ran']
    rfl

/-- **The position never leaves the tokens.** Any tokens, closed by an `eof` unless the last one is one, may be asked
for statements any number of times, whatever the answers are. There is an answer to each call, the one of the parser on
the tokens that are left, so no look is outside. Every look at a token, and the position after all calls, is inside the
tokens and has no `eof` before it, so at most the tokens up to the first `eof` are read. The position never decreases,
within a call and from call to call, and of no list are more than 100 items begun. -/
theorem stays_among_tokens (tokens : List Token) (n : Nat) :
    let all := Token.closed tokens
    ∃ answers track, calls all n .start = some (answers, track) ∧
      Parser.calls n all = (answers, all.drop track.place) ∧ answers.length = n ∧
      (∀ place ∈ track.place :: track.seen,
        place < all.length ∧ .eof ∉ all.take place ∧ place ≤ all.idxOf .eof) ∧
      (track.place :: track.seen).Pairwise (· ≥ ·) ∧
      ∀ k ∈ track.begun, k ≤ 100 := by
  intro all
  have some_eof : .eof ∈ all := by
    obtain ⟨tail, closed⟩ := Grammar.closed_eq tokens
    simp [all, closed]
  obtain ⟨track, ran, stands⟩ := follows_calls n (stands_start some_eof)
  refine ⟨_, track, ran, ?_, Parser.length_calls n all, ?_, stands.rising, stands.begun⟩
  · rw [stands.here.drop]
  · intro place mem
    exact stands.within mem

/-- the first call fails behind the symbol, and the second one goes on from there -/
example :
    let all := [.symbol "x", .keyword .select, .star, .keyword .from_, .symbol "t", .eof]
    (calls all 2 .start).map Prod.fst =
      some [.error (.noStatement .symbol), .ok (.select ⟨.all, "t", none, none, none, none⟩)] := by
  rfl

end Tracker
end TableStore
