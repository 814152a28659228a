/-
Well-formed statements and the texts that spell them, without the lexer and the parser.

A statement is well formed if its names can be told from keywords and from numbers, its texts can be quoted, its counts
are in range, and its lists have lengths that the grammar allows. A spelling writes the tokens of one derivation of the
statement one after the other:
- keywords in any letter case, numbers with any number of zeros in front, texts between the quotes that they lack;
- any blanks before, between and after the tokens, and none are needed except between two words.

`forall_tokens_iff` ties the two: the tokens of a derivation are regular one by one iff its statement is well formed.
-/
import Mathlib.Tactic
import TableStore.Proofs.Sql.Grammar
import TableStore.Store.Catalog

namespace TableStore

open Lexer (isBlank isWordChar maxInteger)

/-! ## Well-formed statements -/

/-- words that write a number: its decimal digits behind any number of zeros -/
def Numeral (n : Nat) (word : List Char) : Prop := ∃ zeros, word = List.replicate zeros '0' ++ Nat.toDigits 10 n

/-- names of tables and columns: words that are neither a keyword, in any letter case, nor an integer in range -/
structure IsName (name : String) : Prop where
  ne_nil : name.toList ≠ []
  word : ∀ c ∈ name.toList, isWordChar c
  no_keyword : ∀ k : Keyword, name.toList.map Char.toLower ≠ k.spelling.toList
  no_integer : ∀ n ≤ maxInteger, ¬ Numeral n name.toList

/-- texts that can be put in quotes: not both quote characters occur in them -/
def Quotable (value : String) : Prop := ¬ ∀ q : Quote, q.mark ∈ value.toList

/-- lists as the grammar has them -/
def Listed {α : Type} (xs : List α) : Prop := 1 ≤ xs.length ∧ xs.length ≤ Parser.maxItems

def Predicate.column : Predicate → String
  | .equal column _ => column
  | .notEqual column _ => column

def Predicate.value : Predicate → String
  | .equal _ value => value
  | .notEqual _ value => value

def Selection.names : Selection → List String
  | .all => []
  | .columns names => names

namespace Statement

/-- all names of tables and columns in a statement -/
def names : Statement → List String
  | .select s =>
    s.table :: (s.selection.names ++ (s.condition.map Predicate.column).toList ++ (s.order.bind Order.column).toList)
  | .insert i => i.table :: i.columns
  | .create c => c.table :: c.columns

/-- all texts in a statement -/
def values : Statement → List String
  | .select s => (s.condition.map Predicate.value).toList
  | .insert i => i.values
  | .create _ => []

/-- limit and offset -/
def counts : Statement → List Nat
  | .select s => s.limit.toList ++ s.offset.toList
  | .insert _ => []
  | .create _ => []

/-- the lengths of a statement's lists, and the types of a create -/
def Shaped : Statement → Prop
  | .select s => s.selection = .all ∨ Listed s.selection.names
  | .insert i => i.columns.length ≤ Parser.maxItems ∧ Listed i.values
  | .create c => Listed c.columns ∧ c.types.length = c.columns.length ∧ ∀ type ∈ c.types, type = Catalog.columnType

structure WellFormed (st : Statement) : Prop where
  names : ∀ name ∈ st.names, IsName name
  values : ∀ value ∈ st.values, Quotable value
  counts : ∀ n ∈ st.counts, n ≤ maxInteger
  shaped : st.Shaped

end Statement

/-! ## Spellings -/

namespace Token

/-- the characters that write a token down -/
def Writes : Token → List Char → Prop
  | .openParen, cs => cs = ['(']
  | .closeParen, cs => cs = [')']
  | .comma, cs => cs = [',']
  | .equal, cs => cs = ['=']
  | .notEqual, cs => cs = ['!', '=']
  | .star, cs => cs = ['*']
  | .keyword k, cs => cs.map Char.toLower = k.spelling.toList
  | .symbol name, cs => cs = name.toList
  | .text value, cs => ∃ q : Quote, q.mark ∉ value.toList ∧ cs = q.mark :: (value.toList ++ [q.mark])
  | .integer (.ofNat n), cs => Numeral n cs
  | .integer (.negSucc _), _ => False
  | .bang, _ => False
  | .unknown _, _ => False
  | .eof, _ => False

/-- what a token's payload has to be for the lexer to read it back -/
def Regular : Token → Prop
  | .symbol name => IsName name
  | .text value => Quotable value
  | .integer n => n ≤ maxInteger
  | _ => True

/-- the tokens without a payload that statements are made of -/
def IsFixed : Token → Prop
  | .symbol _ => False
  | .text _ => False
  | .integer _ => False
  | .bang => False
  | .unknown _ => False
  | .eof => False
  | _ => True

/-- tokens that go on for as long as there are letters and digits -/
def IsWord : Token → Prop
  | .keyword _ => True
  | .symbol _ => True
  | .integer _ => True
  | _ => False

end Token

/-- texts of tokens: blanks may stand before, between and after them, and something has to part two words -/
inductive Spelling : List Token → List Char → Prop where
  | done {gap : List Char} (blank : ∀ c ∈ gap, isBlank c) : Spelling [] gap
  | token {gap written rest : List Char} {t : Token} {ts : List Token} (blank : ∀ c ∈ gap, isBlank c)
      (writes : t.Writes written) (parted : t.IsWord → ∀ c ∈ rest.head?, ¬ isWordChar c) (behind : Spelling ts rest) :
      Spelling (t :: ts) (gap ++ (written ++ rest))

/-- the texts of a statement: those of the tokens of its derivations -/
def Statement.SpelledBy (st : Statement) (query : String) : Prop :=
  ∃ tree : Grammar.Sentence, tree.statement = st ∧ Spelling tree.tokens query.toList

/-! ## The tokens of a derivation -/

namespace Grammar

theorem forall_separated {α : Type} {item : α → List Token} {P : Token → Prop} (comma : P .comma) (xs : List α) :
    (∀ t ∈ separated item xs, P t) ↔ ∀ x ∈ xs, ∀ t ∈ item x, P t := by
  induction xs using separated.induct with
  | case1 => simp [separated]
  | case2 x => simp [separated]
  | case3 x y rest ih =>
    rw [separated, List.forall_mem_append, List.forall_mem_cons, ih, List.forall_mem_cons (a := x)]
    exact and_congr_right fun _ => and_iff_right comma

theorem forall_inParens {α : Type} {item : α → List Token} {P : Token → Prop} (fixed : ∀ t : Token, t.IsFixed → P t)
    (items : Items α) : (∀ t ∈ inParens item items, P t) ↔ ∀ x ∈ items.toList, ∀ t ∈ item x, P t := by
  rw [inParens, List.forall_mem_cons, List.forall_mem_append, forall_separated (fixed _ trivial)]
  simp [fixed .openParen trivial, fixed .closeParen trivial]

theorem forall_tail {P : Token → Prop} (fixed : ∀ t : Token, t.IsFixed → P t) (condition : Option Predicate)
    (order : Option Order) (slice : Slice) :
    (∀ t ∈ tailTokens condition order slice, P t) ↔
      (∀ p ∈ condition, P (.symbol p.column) ∧ P (.text p.value)) ∧
      (∀ column ∈ order.bind Order.column, P (.symbol column)) ∧
      ∀ n ∈ slice.limit?.toList ++ slice.offset?.toList, P (.integer n) := by
  rw [tailTokens, List.forall_mem_append, List.forall_mem_append]
  refine and_congr ?_ (and_congr ?_ ?_)
  · rcases condition with _ | ⟨column, value⟩ | ⟨column, value⟩
    · simp [conditionTokens]
    · simp [conditionTokens, Predicate.column, Predicate.value, fixed (.keyword .where_) trivial, fixed .equal trivial]
    · simp [conditionTokens, Predicate.column, Predicate.value, fixed (.keyword .where_) trivial,
        fixed .notEqual trivial]
  · have directed (d : Direction) : P (directionToken d) := by
      cases d with
      | ascending => exact fixed _ trivial
      | descending => exact fixed _ trivial
    rcases order with _ | ⟨_ | column, direction⟩
    · simp [orderTokens]
    · simp [orderTokens, fixed (.keyword .order) trivial, fixed (.keyword .by_) trivial, directed]
    · simp [orderTokens, fixed (.keyword .order) trivial, fixed (.keyword .by_) trivial, directed]
  · have counted (clause : Clause) (n : Option Nat) :
        (∀ t ∈ countTokens clause n, P t) ↔ ∀ m ∈ n.toList, P (.integer m) := by
      cases n with
      | none => simp [countTokens]
      | some n => simp [countTokens, fixed (.keyword clause.keyword) trivial]
    cases slice with
    | none => simp [Slice.tokens, Slice.limit?, Slice.offset?]
    | limitFirst limit offset =>
      simp only [Slice.tokens, Slice.limit?, Slice.offset?, List.forall_mem_append, counted]
    | offsetFirst offset limit =>
      simp only [Slice.tokens, Slice.limit?, Slice.offset?, List.forall_mem_append, counted]
      exact and_comm

/-- what holds of the tokens of a derivation is what holds of the payloads of its statement -/
theorem forall_tokens_iff {P : Token → Prop} (fixed : ∀ t : Token, t.IsFixed → P t) (tree : Sentence) :
    (∀ t ∈ tree.tokens, P t) ↔
      (∀ name ∈ tree.statement.names, P (.symbol name)) ∧ (∀ value ∈ tree.statement.values, P (.text value)) ∧
        ∀ n ∈ tree.statement.counts, P (.integer n) := by
  cases tree with
  | select selection table condition order slice =>
    have selected : (∀ t ∈ selection.tokens, P t) ↔ ∀ name ∈ selection.meaning.names, P (.symbol name) := by
      cases selection with
      | star => simp [SelectList.tokens, SelectList.meaning, Selection.names, fixed .star trivial]
      | names columns =>
        rw [SelectList.tokens, forall_separated (fixed _ trivial)]
        simp [symbolTokens, SelectList.meaning, Selection.names]
    simp only [Sentence.tokens, Sentence.statement, Statement.names, Statement.values, Statement.counts,
      List.forall_mem_cons, List.forall_mem_append, selected, forall_tail fixed, fixed (.keyword .select) trivial,
      fixed (.keyword .from_) trivial, true_and]
    cases condition with
    | none => simp; tauto
    | some p => simp; tauto
  | insert table columns values =>
    have named : (∀ t ∈ columnsTokens columns, P t) ↔ ∀ name ∈ namedColumns columns, P (.symbol name) := by
      cases columns with
      | none => simp [columnsTokens, namedColumns]
      | some columns =>
        rw [columnsTokens, forall_inParens fixed]
        simp [symbolTokens, namedColumns]
    simp only [Sentence.tokens, Sentence.statement, Statement.names, Statement.values, Statement.counts,
      List.forall_mem_cons, List.forall_mem_append, named, forall_inParens fixed, textTokens,
      fixed (.keyword .insert) trivial, fixed (.keyword .into) trivial, fixed (.keyword .values) trivial, true_and]
    simp [and_assoc]
  | create table columns =>
    simp only [Sentence.tokens, Sentence.statement, Statement.names, Statement.values, Statement.counts,
      List.forall_mem_cons, forall_inParens fixed, columnTokens, fixed (.keyword .create) trivial,
      fixed (.keyword .table) trivial, fixed (.keyword .string) trivial, true_and]
    simp

/-- derivations keep the lengths of lists and the types of columns -/
theorem shaped_statement (tree : Sentence) : tree.statement.Shaped := by
  have listed {α : Type} (items : Items α) : Listed items.toList :=
    ⟨List.length_pos_iff.2 items.ne_nil, items.length_le⟩
  cases tree with
  | select selection table condition order slice =>
    cases selection with
    | star => exact .inl rfl
    | names columns => exact .inr (listed columns)
  | insert table columns values =>
    refine ⟨?_, listed values⟩
    cases columns with
    | none => exact Nat.zero_le _
    | some columns => exact columns.length_le
  | create table columns =>
    refine ⟨listed columns, List.length_replicate, ?_⟩
    intro type mem
    exact (List.mem_replicate.1 mem).2

/-- the statement of a derivation is well formed iff every token of the derivation is regular -/
theorem wellFormed_iff (tree : Sentence) : tree.statement.WellFormed ↔ ∀ t ∈ tree.tokens, t.Regular := by
  have fixed : ∀ t : Token, t.IsFixed → t.Regular := by
    intro t ht
    cases t with
    | symbol | text | integer => cases ht
    | _ => trivial
  rw [forall_tokens_iff fixed]
  refine ⟨?_, ?_⟩
  · intro h
    exact ⟨h.names, h.values, fun n mem => Int.ofNat_le.2 (h.counts n mem)⟩
  · rintro ⟨names, values, counts⟩
    exact ⟨names, values, fun n mem => Int.ofNat_le.1 (counts n mem), shaped_statement tree⟩

def itemsOf {α : Type} {xs : List α} (h : Listed xs) : Items α :=
  { toList := xs, ne_nil := List.length_pos_iff.1 h.1, length_le := h.2 }

/-- a statement with lists of the right lengths and the right types has a derivation -/
theorem exists_derivation {st : Statement} (shaped : st.Shaped) : ∃ tree : Sentence, tree.statement = st := by
  cases st with
  | select s =>
    obtain ⟨selection, table, condition, order, limit, offset⟩ := s
    have sliced : ∃ slice : Slice, slice.limit? = limit ∧ slice.offset? = offset := by
      cases limit with
      | some limit => exact ⟨.limitFirst limit offset, rfl, rfl⟩
      | none =>
        cases offset with
        | some offset => exact ⟨.offsetFirst offset none, rfl, rfl⟩
        | none => exact ⟨.none, rfl, rfl⟩
    have selected : ∃ list : SelectList, list.meaning = selection := by
      cases selection with
      | all => exact ⟨.star, rfl⟩
      | columns names =>
        rcases shaped with star | listed
        · cases star
        · exact ⟨.names (itemsOf listed), rfl⟩
    obtain ⟨slice, rfl, rfl⟩ := sliced
    obtain ⟨list, rfl⟩ := selected
    exact ⟨.select list table condition order slice, rfl⟩
  | insert i =>
    obtain ⟨table, columns, values⟩ := i
    obtain ⟨short, listed⟩ := shaped
    cases columns with
    | nil => exact ⟨.insert table none (itemsOf listed), rfl⟩
    | cons name more =>
      have named : Listed (name :: more) := ⟨Nat.succ_le_succ (Nat.zero_le _), short⟩
      exact ⟨.insert table (some (itemsOf named)) (itemsOf listed), rfl⟩
  | create c =>
    obtain ⟨table, columns, types⟩ := c
    obtain ⟨listed, length, typed⟩ := shaped
    obtain rfl : types = List.replicate columns.length Catalog.columnType := List.eq_replicate_iff.2 ⟨length, typed⟩
    exact ⟨.create table (itemsOf listed), rfl⟩

end Grammar

/-! ## Every well-formed statement can be spelled -/

theorem writes_keyword (k : Keyword) : (Token.keyword k).Writes k.spelling.toList := by
  cases k <;> rfl

/-- one more blank in front of a text changes nothing -/
theorem Spelling.blank {ts : List Token} {cs : List Char} {c : Char} (blank : isBlank c) (h : Spelling ts cs) :
    Spelling ts (c :: cs) := by
  cases h with
  | done gap => exact .done (List.forall_mem_cons.2 ⟨blank, gap⟩)
  | token gap writes parted behind =>
    exact .token (List.forall_mem_cons.2 ⟨blank, gap⟩) writes parted behind

/-- with a blank behind it a token does not run into the next one -/
theorem Spelling.spaced {t : Token} {ts : List Token} {written rest : List Char} (writes : t.Writes written)
    (behind : Spelling ts rest) : Spelling (t :: ts) (written ++ ' ' :: rest) := by
  have parted : t.IsWord → ∀ c ∈ (' ' :: rest).head?, ¬ isWordChar c := by
    intro _ c head
    cases head
    decide
  have none : ∀ c ∈ ([] : List Char), isBlank c := by simp
  exact .token none writes parted (behind.blank rfl)

theorem exists_spelling {ts : List Token} (h : ∀ t ∈ ts, ∃ cs, t.Writes cs) : ∃ cs, Spelling ts cs := by
  induction ts with
  | nil => exact ⟨[], .done (by simp)⟩
  | cons t ts ih =>
    obtain ⟨⟨written, writes⟩, more⟩ := List.forall_mem_cons.1 h
    obtain ⟨rest, behind⟩ := ih more
    exact ⟨_, behind.spaced writes⟩

theorem Statement.WellFormed.exists_spelledBy {st : Statement} (h : st.WellFormed) : ∃ query, st.SpelledBy query := by
  obtain ⟨tree, rfl⟩ := Grammar.exists_derivation h.shaped
  have fixed : ∀ t : Token, t.IsFixed → ∃ cs, t.Writes cs := by
    intro t ht
    cases t with
    | symbol | text | integer | bang | unknown | eof => cases ht
    | keyword k => exact ⟨_, writes_keyword k⟩
    | _ => exact ⟨_, rfl⟩
  have written : ∀ t ∈ tree.tokens, ∃ cs, t.Writes cs := by
    rw [Grammar.forall_tokens_iff fixed]
    refine ⟨fun name _ => ⟨_, rfl⟩, ?_, fun n _ => ⟨_, 0, rfl⟩⟩
    intro value mem
    obtain ⟨q, free⟩ := not_forall.1 (h.values value mem)
    exact ⟨_, q, free, rfl⟩
  obtain ⟨cs, spelling⟩ := exists_spelling written
  exact ⟨String.ofList cs, tree, rfl, by rwa [String.toList_ofList]⟩

end TableStore
