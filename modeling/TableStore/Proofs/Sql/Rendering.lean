/-
Parsing undoes rendering, and only statements that can be rendered come out of it.

The lexer gives a spelling back as its tokens, and the parser gives the tokens of a derivation back as its statement.
The other way round every token of a query is regular, so the derivation that the parser found is of a well-formed
statement. A create among them has columns that the catalog takes: its checks of columns and types never fail on what
comes from a query (`Catalog.fails_add`).
-/
import TableStore.Proofs.Sql.Lexing
import TableStore.Proofs.Sql.Recognition
import TableStore.Proofs.Store.Operations
import TableStore.Sql.Query

namespace TableStore

open DataFile (run_then run_then_error)

/-! ## Queries and statements -/

namespace Statement

/-- a query makes a statement if it can be cut into tokens that make it -/
theorem parse_eq_ok_iff {query : String} {st : Statement} :
    parse query = .ok st ↔ ∃ ts, Lexer.tokens query = .ok ts ∧ ofTokens ts = .ok st := by
  rw [parse, ofQuery]
  cases Lexer.tokens query with
  | error e => simp [Except.mapError, bind, Except.bind]
  | ok ts =>
    have same : (Except.ok ts : Except QueryError (List Token)) >>= ofTokens = ofTokens ts := rfl
    rw [same]
    cases made : ofTokens ts <;> simp [Except.mapError, made]

theorem parse_of_spelledBy {st : Statement} (wellFormed : st.WellFormed) {query : String}
    (spelled : st.SpelledBy query) : parse query = .ok st := by
  obtain ⟨tree, rfl, spelling⟩ := spelled
  have regular : ∀ t ∈ tree.tokens, t.Regular := (Grammar.wellFormed_iff tree).1 wellFormed
  have noEof := Grammar.eof_notMem_tokens tree
  refine parse_eq_ok_iff.2 ⟨_, Lexer.tokens_of_spelling spelling regular, ?_⟩
  rw [Grammar.ofTokens_eq_ok_iff]
  exact ⟨tree, (Grammar.beforeEof_append noEof).symm, rfl⟩

theorem wellFormed_of_parse {query : String} {st : Statement} (parsed : parse query = .ok st) : st.WellFormed := by
  obtain ⟨ts, lexed, made⟩ := parse_eq_ok_iff.1 parsed
  obtain ⟨tree, spelled, rfl⟩ := Grammar.ofTokens_eq_ok_iff.1 made
  rw [Grammar.wellFormed_iff, spelled]
  intro t mem
  exact Lexer.regular_tokens lexed t ((List.takeWhile_prefix _).subset mem)

/-- the columns of a well-formed create are some, and all have the one type -/
theorem WellFormed.creatable {c : Create} (h : (create c).WellFormed) : Catalog.Creatable c.columns c.types := by
  obtain ⟨listed, length, typed⟩ := h.shaped
  exact ⟨List.length_pos_iff.1 listed.1, length.symm, typed⟩

end Statement

/-- the shortest text of a select of a whole table -/
theorem parse_selectAll {name : String} (isName : IsName name) :
    Statement.parse ("select * from " ++ name) = .ok (.select ⟨.all, name, none, none, none, none⟩) := by
  have wellFormed : (Statement.select ⟨.all, name, none, none, none, none⟩).WellFormed := by
    refine ⟨?_, by simp [Statement.values], by simp [Statement.counts], .inl rfl⟩
    intro other mem
    obtain rfl : other = name := by simpa [Statement.names, Selection.names] using mem
    exact isName
  refine Statement.parse_of_spelledBy wellFormed ⟨.select .star name none none .none, rfl, ?_⟩
  have ended : Spelling [] [] := .done (by simp)
  have table : Spelling [.symbol name] ([] ++ (name.toList ++ [])) := .token (by simp) rfl (by simp) ended
  rw [List.nil_append, List.append_nil] at table
  have fromTable := table.spaced (writes_keyword .from_)
  have all := fromTable.spaced (t := .star) rfl
  have whole := all.spaced (writes_keyword .select)
  rw [String.toList_append]
  exact whole

/-! ## Why the catalog refuses a table -/

/-- all errors of a program of the store are of some kind, whatever the disk -/
def Fails {α : Type} (P : Error → Prop) (p : StoreM α) : Prop := ∀ d e, (p.run.run d).1 = .error e → P e

namespace Fails

variable {α β : Type} {P : Error → Prop}

theorem pure (a : α) : Fails P (pure a : StoreM α) := by
  intro d e failed
  cases failed

theorem throw {e : Error} (h : P e) : Fails P (throw e : StoreM α) := by
  intro d e' failed
  cases failed
  exact h

/-- a sequence fails as one of its parts does -/
theorem bind {x : StoreM α} {g : α → StoreM β} (first : Fails P x) (second : ∀ a, Fails P (g a)) :
    Fails P (x >>= g) := by
  intro d e failed
  rcases ran : x.run.run d with ⟨e' | a, d'⟩
  · rw [run_then_error ran] at failed
    cases failed
    exact first d e (congrArg Prod.fst ran)
  · rw [run_then ran] at failed
    exact second a d' e failed

/-- a fault of a file is always reported as the error that stands for it -/
theorem guarded {error : Fault → Error} (h : ∀ fault, P (error fault)) (p : ExceptT Fault Program α) :
    Fails P (Document.guarded error p) := by
  intro d e failed
  rw [Document.guarded, Document.run_adapt] at failed
  cases result : (p.run.run d).1 with
  | error fault =>
    simp only [result] at failed
    cases failed
    exact h fault
  | ok a =>
    simp only [result] at failed
    cases failed

end Fails

/-- an error that finds fault with the columns or the types of a new table -/
def Error.BlamesColumns (e : Error) : Prop := (∃ text, e = .columnMismatch text) ∨ ∃ type, e = .invalidType type

namespace Catalog

/-- the catalog never blames columns that can be created: it refuses the table for its name, or the file -/
theorem fails_add (c : Catalog) (table : String) {columns types : List String} (creatable : Creatable columns types) :
    Fails (fun e => ¬ e.BlamesColumns) (c.add table columns types) := by
  have read : Fails (fun e => ¬ e.BlamesColumns) c.schemas := by
    refine .bind (.guarded ?_ _) ?_
    · intro fault
      simp [Error.BlamesColumns]
    · intro bytes
      rw [Document.decoded]
      split
      · exact .pure _
      · exact .throw (by simp [Error.BlamesColumns])
  have saved (schemas : List Schema) : Fails (fun e => ¬ e.BlamesColumns) (c.save schemas) := by
    refine .guarded ?_ _
    intro fault
    simp [Error.BlamesColumns]
  rw [add_eq c table creatable]
  refine read.bind fun schemas => ?_
  split
  · exact .bind (.throw (by simp [Error.BlamesColumns])) fun _ => saved _
  · exact saved _

end Catalog

/-! ## Rendering and parsing -/

/-- **Parsing undoes rendering, and only renderable statements come out of it.** Every spelling of a well-formed
statement is parsed as that statement, and every well-formed statement has a spelling. What is parsed is well formed,
and a create that is parsed is never refused by the catalog for its columns or their types. -/
theorem Statement.parse_undoes_rendering :
    (∀ (st : Statement) (query : String), st.WellFormed → st.SpelledBy query → Statement.parse query = .ok st) ∧
    (∀ st : Statement, st.WellFormed → ∃ query, st.SpelledBy query) ∧
    (∀ (query : String) (st : Statement), Statement.parse query = .ok st → st.WellFormed) ∧
    ∀ (query : String) (c : Create), Statement.parse query = .ok (.create c) →
      ∀ (catalog : Catalog) (d : Disk) (e : Error),
        ((catalog.add c.table c.columns c.types).run.run d).1 = .error e → ¬ e.BlamesColumns := by
  refine ⟨?_, ?_, ?_, ?_⟩
  · intro st query wellFormed spelled
    exact parse_of_spelledBy wellFormed spelled
  · intro st wellFormed
    exact wellFormed.exists_spelledBy
  · intro query st parsed
    exact wellFormed_of_parse parsed
  · intro query c parsed catalog d e failed
    exact catalog.fails_add c.table (wellFormed_of_parse parsed).creatable d e failed

end TableStore
