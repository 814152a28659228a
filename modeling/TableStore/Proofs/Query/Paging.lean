/-
Reading the result of a select page by page.

A plan slices behind its filter and its sort, and the projection works record by record, so the select with a slice
answers the slice of what the select without it answers (`run_slice`), whatever the source does and however it fails.
Each page scans and sorts anew; the pages fit together because all scans answer the same and the sort leaves no choice.

Results:
  pages_cover         from a source that can be read, the pages of any size make up the result: they are full up to
                      the last one that has records, empty behind it, and a limit and the same offset split the result.
  Tables.readable     tables on a disk that answered once are such a source.

Reading is an effect, so what a source answers depends on the state in which it is asked (`Runner`). A source can be
read within a set of states that reading does not leave (`Source.Readable`).
-/
import Mathlib.Tactic
import TableStore.Proofs.Query.Meaning
import TableStore.Proofs.Store.Reading

namespace TableStore

/-! ## Parts of a list -/

namespace Select

variable {α β : Type}

theorem part_map (f : α → β) (limit offset : Option Nat) (l : List α) :
    part limit offset (l.map f) = (part limit offset l).map f := by
  cases limit with
  | none => exact List.map_drop.symm
  | some n => simp only [part, List.map_drop, List.map_take]

/-- page `i` of a list in pages of `n` -/
def page (n i : Nat) (l : List α) : List α := part (some n) (some (i * n)) l

/-- the first pages together are the beginning of the list -/
theorem flatten_pages (n count : Nat) (l : List α) :
    ((List.range count).map fun i => page n i l).flatten = l.take (count * n) := by
  induction count with
  | zero => simp
  | succ count ih =>
    rw [List.range_succ, List.map_append, List.flatten_append, ih, Nat.succ_mul, List.take_add]
    simp [page, part]

theorem page_eq_nil {n i : Nat} {l : List α} (behind : l.length ≤ i * n) : page n i l = [] := by
  simp [page, part, List.drop_eq_nil_of_le behind]

/-- in front of a page with elements all pages are full -/
theorem length_page {n i j : Nat} {l : List α} (before : i < j) (some : page n j l ≠ []) : (page n i l).length = n := by
  have begun : j * n < l.length := by
    by_contra behind
    exact some (page_eq_nil (by omega))
  have ends : (i + 1) * n ≤ j * n := Nat.mul_le_mul_right n before
  rw [Nat.succ_mul] at ends
  simp only [page, part, Option.getD_some, List.length_take, List.length_drop]
  omega

theorem part_append_part (k : Nat) (l : List α) : part (some k) none l ++ part none (some k) l = l :=
  List.take_append_drop k l

end Select

/-! ## Reading in states -/

/-- a way to run the computations of a monad on states, one after the other -/
structure Runner (m : Type → Type) [Monad m] (σ : Type) where
  run {α : Type} : m α → σ → α × σ
  run_pure {α : Type} (a : α) (state : σ) : run (pure a) state = (a, state)
  run_bind {α β : Type} (x : m α) (f : α → m β) (state : σ) :
    run (x >>= f) state = run (f (run x state).1) (run x state).2

def Program.runner : Runner Program Disk where
  run := Program.run
  run_pure := Program.run_pure
  run_bind := Program.run_bind

/-- without effects there is nothing but the value -/
def Runner.direct : Runner Id Unit where
  run x state := (x.run, state)
  run_pure _ _ := rfl
  run_bind _ _ _ := rfl

section Reading

variable {m : Type → Type} [Monad m] {σ α β : Type} {runner : Runner m σ} {within : σ → Prop}

/-- in each state of a set the computation answers this, and leaves a state of the set -/
def Runner.Answers (runner : Runner m σ) (within : σ → Prop) (x : ExceptT Error m α) (a : α) : Prop :=
  ∀ state, within state → ∃ next, runner.run x.run state = (.ok a, next) ∧ within next

/-- the schema and the rows of a table can be read in each state of a set, and reading does not leave the set -/
structure Source.Readable (source : Source m) (runner : Runner m σ) (within : σ → Prop) (table : String)
    (schema : Schema) (rows : List Row) : Prop where
  schema : runner.Answers within (source.schema table) schema
  rows : runner.Answers within (source.rows table) rows

namespace Runner

theorem answers_pure (a : α) : runner.Answers within (pure a) a :=
  fun state inside => ⟨state, runner.run_pure _ state, inside⟩

theorem Answers.unique {x : ExceptT Error m α} {a b : α} (h : runner.Answers within x a)
    (h' : runner.Answers within x b) (state : σ) (inside : within state) : a = b := by
  obtain ⟨next, ran, -⟩ := h state inside
  obtain ⟨next', ran', -⟩ := h' state inside
  rw [ran] at ran'
  cases ran'
  rfl

theorem Answers.bind {x : ExceptT Error m α} {f : α → ExceptT Error m β} {a : α} {b : β}
    (first : runner.Answers within x a) (second : runner.Answers within (f a) b) :
    runner.Answers within (x >>= f) b := by
  intro state inside
  obtain ⟨middle, ranFirst, insideMiddle⟩ := first state inside
  obtain ⟨next, ranSecond, insideNext⟩ := second middle insideMiddle
  refine ⟨next, ?_, insideNext⟩
  rw [ExceptT.run_bind, runner.run_bind, ranFirst]
  exact ranSecond

variable [LawfulMonad m]

theorem Answers.map {x : ExceptT Error m α} {a : α} (h : runner.Answers within x a) (f : α → β) :
    runner.Answers within (f <$> x) (f a) := by
  rw [map_eq_pure_bind]
  exact h.bind (answers_pure (f a))

theorem Answers.inContext {x : ExceptT Error m α} {a : α} (h : runner.Answers within x a) (context : String) :
    runner.Answers within (inContext context x) a := by
  intro state inside
  obtain ⟨next, ran, insideNext⟩ := h state inside
  refine ⟨next, ?_, insideNext⟩
  rw [run_inContext, runner.run_bind, ran]
  exact runner.run_pure _ next

end Runner
end Reading

/-- what the tables of a disk answered once they answer as long as the disk stays as it is -/
theorem Tables.readable {t : Tables} {d : Disk} {table : String} {schema : Schema} {rows : List Row}
    (schemaRead : ((t.source.schema table).run.run d).1 = .ok schema)
    (rowsRead : ((t.source.rows table).run.run d).1 = .ok rows) :
    t.source.Readable Program.runner (· = d) table schema rows where
  schema := by
    rintro _ rfl
    exact ⟨_, ((t.catalog.still_schema table).run_eq _).trans (by rw [← schemaRead]; rfl), rfl⟩
  rows := by
    rintro _ rfl
    exact ⟨_, ((t.tablespace.still_rows table).run_eq _).trans (by rw [← rowsRead]; rfl), rfl⟩

/-! ## Pages -/

namespace Plan

variable {m : Type → Type} [Monad m] [LawfulMonad m] {σ : Type}

theorem inContext_map {α β : Type} (context : String) (f : α → β) (x : ExceptT Error m α) :
    inContext context (f <$> x) = f <$> inContext context x := by
  refine ExceptT.ext ?_
  have wrapped {γ : Type} (y : ExceptT Error m γ) :
      (inContext context y).run = Except.mapError (Error.inContext context) <$> y.run := rfl
  rw [wrapped, ExceptT.run_map, ExceptT.run_map, wrapped, ← comp_map, ← comp_map]
  refine congrArg (· <$> x.run) (funext fun result => ?_)
  cases result <;> rfl

theorem meaning_slice {s : Select} (noLimit : s.limit = none) (noOffset : s.offset = none) (limit offset : Option Nat)
    (schema : Schema) (rows : List (String → Option String)) :
    Select.meaning { s with limit, offset } schema rows = Select.part limit offset (s.meaning schema rows) := by
  simp only [Select.meaning, noLimit, noOffset, Select.part_map]
  rfl

/-- a slice of a select is the slice of its result, with the same effects and the same failure -/
theorem run_slice {s : Select} (noLimit : s.limit = none) (noOffset : s.offset = none) (limit offset : Option Nat)
    (source : Source m) :
    (ofSelect { s with limit, offset }).run source = Select.part limit offset <$> (ofSelect s).run source := by
  simp only [run, foldlM_ofSelect, ← inContext_map, map_bind, map_pure]
  refine congrArg _ (bind_congr fun schema => bind_congr fun rows => congrArg pure ?_)
  exact meaning_slice noLimit noOffset limit offset schema (rows.map Keyed.find?)

/-- a select of a table that can be read answers its meaning -/
theorem answers_meaning {source : Source m} {runner : Runner m σ} {within : σ → Prop} {s : Select} {schema : Schema}
    {rows : List Row} (readable : source.Readable runner within s.table schema rows) :
    runner.Answers within ((ofSelect s).run source) (s.meaning schema (rows.map Keyed.find?)) := by
  rw [run, foldlM_ofSelect]
  refine Runner.Answers.inContext (readable.schema.bind ?_) _
  refine readable.rows.bind ?_
  exact Runner.answers_pure _

/-- **Pages lose and repeat nothing.** Let the schema and the rows of a table be readable, and a select have neither
limit nor offset. The select then answers some records, and for every page size the selects of the single pages answer
too: enough of them together give those records in their order, every page behind these is empty, and every page in
front of one with records is full. And for every number, the first so many records and the ones behind them, asked
for one after the other, are all of them. -/
theorem pages_cover (source : Source m) (runner : Runner m σ) (within : σ → Prop) (s : Select) (schema : Schema)
    (rows : List Row) (noLimit : s.limit = none) (noOffset : s.offset = none)
    (readable : source.Readable runner within s.table schema rows) :
    ∃ result, runner.Answers within ((ofSelect s).run source) result ∧
      (∀ n ≥ 1, ∃ pages : Nat → List Record,
        (∀ i, runner.Answers within
          ((ofSelect { s with limit := some n, offset := some (i * n) }).run source) (pages i)) ∧
        (∀ count, result.length ≤ count * n →
          ((List.range count).map pages).flatten = result ∧ ∀ i ≥ count, pages i = []) ∧
        ∀ i j, i < j → pages j ≠ [] → (pages i).length = n) ∧
      ∀ k, ∃ front back,
        runner.Answers within ((ofSelect { s with limit := some k, offset := none }).run source) front ∧
        runner.Answers within ((ofSelect { s with limit := none, offset := some k }).run source) back ∧
        front ++ back = result := by
  have whole := answers_meaning readable
  generalize s.meaning schema (rows.map Keyed.find?) = result at whole
  have sliced (limit offset : Option Nat) : runner.Answers within
      ((ofSelect { s with limit, offset }).run source) (Select.part limit offset result) := by
    rw [run_slice noLimit noOffset]
    exact whole.map _
  refine ⟨result, whole, fun n _ => ?_, fun k => ?_⟩
  · refine ⟨fun i => Select.page n i result, fun i => sliced _ _, fun count enough => ⟨?_, fun i behind => ?_⟩,
      fun i j before some => Select.length_page before some⟩
    · rw [Select.flatten_pages, List.take_of_length_le enough]
    · exact Select.page_eq_nil (enough.trans (Nat.mul_le_mul_right n behind))
  · exact ⟨_, _, sliced _ _, sliced _ _, Select.part_append_part k result⟩

/-- items with a name and a price -/
def itemSchema : Schema := ⟨"item", [⟨"name", "string"⟩, ⟨"price", "string"⟩]⟩

/-- three items, two of them at one price -/
def threeItems : List Row :=
  [.ofPairs [("name", "pen"), ("price", "3")], .ofPairs [("name", "ink"), ("price", "5")],
    .ofPairs [("price", "3"), ("name", "cap")]]

/-- the names of the items by their price -/
def cheapest : Select := ⟨.columns ["name"], "item", none, some ⟨some "price", .ascending⟩, none, none⟩

/-- the two items at one price are the first page, in the order they came in, and the dearer one is the second -/
theorem pages_cover_items :
    let shelf : Source Id := { schema := fun _ => pure itemSchema, rows := fun _ => pure threeItems }
    LawfulMonad Id ∧ cheapest.limit = none ∧ cheapest.offset = none ∧
    shelf.Readable Runner.direct (fun _ => True) cheapest.table itemSchema threeItems ∧
    ∃ pages : Nat → List Record,
      (∀ i, Runner.direct.Answers (fun _ => True)
        ((ofSelect { cheapest with limit := some 2, offset := some (i * 2) }).run shelf) (pages i)) ∧
      pages 0 ++ pages 1 = [⟨["name"], ["string"], ["pen"]⟩, ⟨["name"], ["string"], ["cap"]⟩,
        ⟨["name"], ["string"], ["ink"]⟩] := by
  intro shelf
  have readable : shelf.Readable Runner.direct (fun _ => True) cheapest.table itemSchema threeItems :=
    ⟨Runner.answers_pure _, Runner.answers_pure _⟩
  obtain ⟨result, whole, paged, -⟩ :=
    pages_cover shelf Runner.direct (fun _ => True) cheapest itemSchema threeItems rfl rfl readable
  obtain ⟨pages, answered, together, -⟩ := paged 2 (by decide)
  have known : result = [⟨["name"], ["string"], ["pen"]⟩, ⟨["name"], ["string"], ["cap"]⟩,
      ⟨["name"], ["string"], ["ink"]⟩] :=
    (whole.unique (answers_meaning readable) () trivial).trans (by decide +kernel)
  have covered := (together 2 (by rw [known]; decide)).1
  refine ⟨inferInstance, rfl, rfl, readable, pages, answered, ?_⟩
  rw [← known]
  simpa [List.range_succ] using covered

end Plan
end TableStore
