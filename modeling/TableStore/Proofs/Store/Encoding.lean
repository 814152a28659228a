/-
What is saved is read back, through every instance.

Whatever bytes the two files of a store have, as long as both are at their sites (`Placed`), a save succeeds, and from
then on the file has what was saved for the instance that saved it and for every one that is opened later. That holds
for all schemas and all maps from names to rows, with any texts for names, types and values, and whatever order the
names of tables and columns are written in. A saved map without tables is not an empty file.

Results:
  survives_encoding   saved schemas and rows are read back through the instance that saved them and a new one; an
                      appended row is read behind the rows of its table, and every other table as before.
-/
import TableStore.Proofs.Store.Growing
import TableStore.Proofs.Store.Placing

namespace TableStore

open DataFile (run_then)

variable {o : Options} {catalog tablespace : Site} {d : Disk}

theorem Placed.saved_catalog (h : Placed o catalog tablespace d) (bytes : Bytes) :
    (d.saved catalog.node catalog.spare bytes).content catalog.node = bytes :=
  Disk.content_saved h.catalogFile.named.node_lt

theorem Placed.saved_tablespace (h : Placed o catalog tablespace d) (bytes : Bytes) :
    (d.saved tablespace.node tablespace.spare bytes).content tablespace.node = bytes :=
  Disk.content_saved h.tablespaceFile.named.node_lt

/-! ## The catalog -/

namespace Catalog

variable {c : Catalog}

theorem run_openWith (h : Placed o catalog tablespace d) :
    ∃ c, (openWith o).run.run d = (.ok c, d) ∧ catalog.IsOpen o.catalogPath c.file := by
  refine ⟨⟨.fresh o.catalogPath catalog.node (d.content catalog.node).length⟩, ?_, catalog.isOpen_fresh _ _⟩
  rw [openWith, run_then (Document.run_openAs h.catalogFile .catalog)]
  rfl

theorem run_schemas_placed (h : Placed o catalog tablespace d) (opened : catalog.IsOpen o.catalogPath c.file)
    {schemas : List Schema} (decoded : decode (d.content catalog.node) = .ok schemas) :
    c.schemas.run.run d = (.ok schemas, d) := by
  rw [run_schemas_held (h.catalogFile.holds opened), decoded]
  rfl

/-- **Saved schemas are read back** through the catalog that saved them and through one that is opened then. -/
theorem save_survives (h : Placed o catalog tablespace d) (opened : catalog.IsOpen o.catalogPath c.file)
    (schemas : List Schema) :
    ∃ d', (c.save schemas).run.run d = (.ok (), d') ∧ c.schemas.run.run d' = (.ok schemas, d')
      ∧ ∃ c', (openWith o).run.run d' = (.ok c', d') ∧ c'.schemas.run.run d' = (.ok schemas, d') := by
  have placed := h.save_catalog (encode schemas)
  have decoded : decode ((d.saved catalog.node catalog.spare (encode schemas)).content catalog.node)
      = .ok schemas := by
    rw [h.saved_catalog]
    exact decode_encode schemas
  obtain ⟨c', made, opened'⟩ := run_openWith placed
  exact ⟨_, Document.run_save h.catalogFile opened .catalog _, run_schemas_placed placed opened decoded, c', made,
    run_schemas_placed placed opened' decoded⟩

end Catalog

/-! ## The tablespace -/

namespace Tablespace

variable {t : Tablespace}

theorem run_openWith (h : Placed o catalog tablespace d) :
    ∃ t, (openWith o).run.run d = (.ok t, d) ∧ tablespace.IsOpen o.tablespacePath t.file := by
  refine ⟨⟨.fresh o.tablespacePath tablespace.node (d.content tablespace.node).length⟩, ?_,
    tablespace.isOpen_fresh _ _⟩
  rw [openWith, run_then (Document.run_openAs h.tablespaceFile .tablespace)]
  rfl

theorem run_content_placed (h : Placed o catalog tablespace d) (opened : tablespace.IsOpen o.tablespacePath t.file)
    {content : Option (Keyed (List Row))} (decoded : decode (d.content tablespace.node) = .ok content) :
    t.content.run.run d = (.ok content, d) := by
  rw [run_content_held (h.tablespaceFile.holds opened), decoded]
  rfl

/-- **Saved rows are read back**, in whatever order their tables and columns were written. -/
theorem save_survives (h : Placed o catalog tablespace d) (opened : tablespace.IsOpen o.tablespacePath t.file)
    {v : Json} {content : Keyed (List Row)} (spells : Spells v content) :
    ∃ d', (Document.save .tablespace t.file (Json.render v)).run.run d = (.ok (), d')
      ∧ t.content.run.run d' = (.ok (some content), d')
      ∧ ∃ t', (openWith o).run.run d' = (.ok t', d') ∧ t'.content.run.run d' = (.ok (some content), d') := by
  have placed := h.save_tablespace (Json.render v)
  have decoded : decode ((d.saved tablespace.node tablespace.spare (Json.render v)).content tablespace.node)
      = .ok (some content) := by
    rw [h.saved_tablespace]
    exact spells.decode_render
  obtain ⟨t', made, opened'⟩ := run_openWith placed
  exact ⟨_, Document.run_save h.tablespaceFile opened .tablespace _, run_content_placed placed opened decoded, t', made,
    run_content_placed placed opened' decoded⟩

/-- a table has rows only in a content that is there -/
theorem content_of_rows {table : String} {rows : List Row} (read : (t.rows table).run.run d = (.ok rows, d)) :
    ∃ content, t.content.run.run d = (.ok (some content), d) ∧ content.find? table = some rows := by
  have whole := t.still_content.run_eq d
  cases answer : (t.content.run.run d).1 with
  | error e =>
    rw [answer] at whole
    rw [Tablespace.rows, DataFile.run_then_error whole] at read
    cases read
  | ok content =>
    rw [answer] at whole
    rw [run_rows_of_content whole] at read
    cases content with
    | none => cases read
    | some content =>
      refine ⟨content, whole, ?_⟩
      cases found : content.find? table with
      | none =>
        simp only [Option.bind_eq_bind, Option.bind_some, found] at read
        cases read
      | some stored =>
        simp only [Option.bind_eq_bind, Option.bind_some, found] at read
        cases read
        rfl

/-- **An appended row** is read behind the rows of its table through a tablespace that is opened then, and every other
table is read as before. -/
theorem append_survives (h : Placed o catalog tablespace d) (opened : tablespace.IsOpen o.tablespacePath t.file)
    {table : String} {rows : List Row} (before : (t.rows table).run.run d = (.ok rows, d)) (row : Row) :
    ∃ d', (t.append table row).run.run d = (.ok (), d')
      ∧ ∃ t', (openWith o).run.run d' = (.ok t', d') ∧ (t'.rows table).run.run d' = (.ok (rows ++ [row]), d')
        ∧ ∀ other, other ≠ table → ((t'.rows other).run.run d').1 = ((t.rows other).run.run d).1 := by
  obtain ⟨content, read, found⟩ := content_of_rows before
  obtain ⟨v, spells, encoded⟩ := exists_spells (content.insert table (rows ++ [row]))
  obtain ⟨d', saved, -, t', made, read'⟩ := save_survives h opened spells
  refine ⟨d', ?_, t', made, ?_, fun other apart => ?_⟩
  · rw [append, run_then read]
    simp only [found]
    rw [save, encoded]
    exact saved
  · rw [run_rows_of_content read']
    simp only [Option.bind_eq_bind, Option.bind_some, Keyed.find?_insert, if_pos]
  · rw [run_rows_of_content read', run_rows_of_content read]
    simp only [Option.bind_eq_bind, Option.bind_some, Keyed.find?_insert, if_neg (Ne.symm apart)]

end Tablespace

/-! ## Both -/

namespace Tables

/-- **Stored data survives its encoding.** Where the files of a store are at their sites, saved schemas are read back as
the same list, and saved rows as an equal map, whatever order their names are written in, through the instance that
saved them and through one that is opened then. Only an empty file is read as no tablespace, so a map without tables is
another thing. An appended row is read behind the rows of its table, and every other table is read as before. -/
theorem survives_encoding {t : Tables} (placed : Placed o catalog tablespace d) (opened : t.IsOpen o catalog tablespace) :
    (∀ schemas : List Schema, ∃ d', (t.catalog.save schemas).run.run d = (.ok (), d')
        ∧ t.catalog.schemas.run.run d' = (.ok schemas, d')
        ∧ ∃ c, (Catalog.openWith o).run.run d' = (.ok c, d') ∧ c.schemas.run.run d' = (.ok schemas, d'))
      ∧ (∀ (v : Json) (content : Keyed (List Row)), Tablespace.Spells v content →
          ∃ d', (Document.save .tablespace t.tablespace.file (Json.render v)).run.run d = (.ok (), d')
            ∧ t.tablespace.content.run.run d' = (.ok (some content), d')
            ∧ ∃ s, (Tablespace.openWith o).run.run d' = (.ok s, d') ∧ s.content.run.run d' = (.ok (some content), d'))
      ∧ (∀ content : Keyed (List Row), ∃ v, Tablespace.Spells v content
          ∧ t.tablespace.save content = Document.save .tablespace t.tablespace.file (Json.render v))
      ∧ (∀ bytes, Tablespace.decode bytes = .ok none ↔ bytes = [])
      ∧ ∀ (table : String) (rows : List Row) (row : Row), (t.tablespace.rows table).run.run d = (.ok rows, d) →
          ∃ d', (t.tablespace.append table row).run.run d = (.ok (), d')
            ∧ ∃ s, (Tablespace.openWith o).run.run d' = (.ok s, d')
              ∧ (s.rows table).run.run d' = (.ok (rows ++ [row]), d')
              ∧ ∀ other, other ≠ table → ((s.rows other).run.run d').1 = ((t.tablespace.rows other).run.run d).1 := by
  refine ⟨?_, ?_, ?_, ?_, ?_⟩
  · intro schemas
    exact Catalog.save_survives placed opened.catalog schemas
  · intro v content spells
    exact Tablespace.save_survives placed opened.tablespace spells
  · intro content
    obtain ⟨v, spells, encoded⟩ := Tablespace.exists_spells content
    exact ⟨v, spells, by rw [Tablespace.save, encoded]⟩
  · intro bytes
    exact Tablespace.decode_eq_none_iff
  · intro table rows row before
    exact Tablespace.append_survives placed opened.tablespace before row

/-- two tables with names that need care: no text at all, and text with a quote, a backslash, control characters and a
character outside the basic plane -/
def oddTables : Keyed (List Row) :=
  ⟨[("", []), ("\"\\\n\x00😀", [⟨[("", "\t"), ("é", "'")], by decide⟩])], by decide⟩

/-- the odd tables, the last one first, and so are their columns -/
def oddJson : Json :=
  .object [("\"\\\n\x00😀", .array [.object [("é", .text "'"), ("", .text "\t")]]), ("", .array [])]

/-- odd tables that are saved the wrong way round -/
theorem survives_encoding_odd :
    ∃ catalog tablespace t d, (openWith {}).run.run {} = (.ok t, d) ∧ Placed {} catalog tablespace d
      ∧ t.IsOpen {} catalog tablespace ∧ Tablespace.Spells oddJson oddTables
      ∧ ∃ d', (Document.save .tablespace t.tablespace.file (Json.render oddJson)).run.run d = (.ok (), d')
        ∧ t.tablespace.content.run.run d' = (.ok (some oddTables), d') := by
  obtain ⟨catalog, tablespace, t, d, made, opened, stored⟩ := run_openWith_unused fresh_default.unused
  have placed : Placed {} catalog tablespace d := ⟨stored.catalogFile, stored.tablespaceFile, stored.apart⟩
  have spells : Tablespace.Spells oddJson oddTables := by
    refine ⟨_, oddTables.entries.reverse, List.reverse_perm _, rfl, .cons ?_ (.cons ?_ .nil)⟩
    · refine ⟨rfl, _, rfl, .cons ?_ .nil⟩
      exact ⟨_, List.Perm.swap _ _ _, rfl⟩
    · exact ⟨rfl, _, rfl, .nil⟩
  obtain ⟨-, saved, -⟩ := survives_encoding placed opened
  obtain ⟨d', written, read, -⟩ := saved oddJson oddTables spells
  exact ⟨catalog, tablespace, t, d, made, placed, opened, spells, d', written, read⟩

end Tables

end TableStore
