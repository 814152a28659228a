/-
The files of the store: what is saved is read back.

Every list of schemas and every map from tables to rows, with any texts in them, decodes from what it encodes to
(`Catalog.decode_encode`, `Tablespace.decode_encode`). In which order the names of tables and columns are written in a
tablespace makes no difference (`Tablespace.Spells.decode_render`). The empty file is neither's encoding, and it alone
is no tablespace.
-/
import TableStore.Proofs.Json.Nested
import TableStore.Proofs.Store.Maps
import TableStore.Store.Catalog
import TableStore.Store.Tablespace

namespace TableStore

open Json.Reading

theorem takes_required {σ α : Type} {value : Json.Reading α} {v : Json} {a : α} (h : Decodes value v a) {name : String}
    {put : σ → α → σ} {s : σ} : Takes ((Json.Field.required name value put).read s) (Json.render v) (put s a) :=
  takes_bind_pure h.takes rfl

theorem decodes_column (c : Column) : Decodes Column.reading c.json c := by
  have distinct : (Column.fields.map (·.name)).Nodup := by decide
  refine decodes_record distinct "Column" ?_
  exact .cons (takes_required (decodes_text c.name)) (.cons (takes_required (decodes_text c.type)) .nil)

theorem decodes_schema (s : Schema) : Decodes Schema.reading s.json s := by
  have distinct : (Schema.fields.map (·.name)).Nodup := by decide
  refine decodes_record distinct "Schema" ?_
  exact .cons (takes_required (decodes_text s.table))
    (.cons (takes_required (decodes_list decodes_column s.columns)) .nil)

theorem isEmpty_render {α : Type} {r : Json.Reading α} {v : Json} {a : α} (h : Decodes r v a) :
    (Json.render v).isEmpty = false := by
  obtain ⟨b, rest, eq, -⟩ := h.opens
  rw [eq]
  rfl

/-- **Catalogs are read back**: every list of schemas, with any names and types. -/
theorem Catalog.decode_encode (schemas : List Schema) : decode (encode schemas) = .ok schemas := by
  have distinct : (fields.map (·.name)).Nodup := by decide
  have whole : Decodes reading (.object [("tables", .array (schemas.map Schema.json))]) schemas :=
    decodes_record distinct "CatalogContent" (.cons (takes_required (decodes_list decodes_schema schemas)) .nil)
  rw [decode, encode, isEmpty_render whole]
  exact document_eq whole.takes

/-! ## Orders of keys -/

/-- an object is written for a row, with its columns in any order -/
def Row.Spells (v : Json) (r : Row) : Prop :=
  ∃ entries : List (String × String), entries.Perm r.entries
    ∧ v = .object (entries.map fun (column, value) => (column, .text value))

/-- an object is written for the rows of all tables, with tables and columns in any order -/
def Tablespace.Spells (v : Json) (content : Keyed (List Row)) : Prop :=
  ∃ (members : List (String × Json)) (tables : List (String × List Row)), tables.Perm content.entries
    ∧ v = .object members
    ∧ List.Forall₂ (fun member table => member.1 = table.1
        ∧ ∃ rows, member.2 = .array rows ∧ List.Forall₂ Row.Spells rows table.2) members tables

theorem Row.Spells.decodes {v : Json} {r : Row} (h : Row.Spells v r) : Decodes Row.reading v r := by
  obtain ⟨entries, perm, rfl⟩ := h
  have pairs := (decodes_map decodes_text entries).map Keyed.ofPairs
  rwa [Keyed.ofPairs_perm perm] at pairs

namespace Tablespace

variable {v : Json} {content : Keyed (List Row)}

theorem Spells.decodes (h : Spells v content) : Decodes reading v content := by
  obtain ⟨members, tables, perm, rfl, parts⟩ := h
  have decoded : List.Forall₂ (Member (.list Row.reading)) members tables := by
    refine parts.imp fun member table => ?_
    rintro ⟨name, rows, json, spelled⟩
    exact ⟨name, json ▸ decodes_array (spelled.imp fun _ _ => Row.Spells.decodes)⟩
  have pairs := (decodes_object decoded).map Keyed.ofPairs
  rwa [Keyed.ofPairs_perm perm] at pairs

/-- **Tablespaces are read back**: every map from names to lists of rows, with any texts, written in any order. -/
theorem Spells.decode_render (h : Spells v content) : decode (Json.render v) = .ok (some content) := by
  rw [decode, isEmpty_render h.decodes]
  exact congrArg (some <$> ·) (document_eq h.decodes.takes)

/-- what is saved has tables and columns in the order of their names -/
theorem exists_spells (content : Keyed (List Row)) : ∃ v, Spells v content ∧ encode content = Json.render v := by
  refine ⟨_, ⟨_, content.entries, .refl _, rfl, ?_⟩, rfl⟩
  refine List.forall₂_map_left_iff.2 (List.forall₂_same.2 fun table _ => ⟨rfl, table.2.map Row.json, rfl, ?_⟩)
  exact List.forall₂_map_left_iff.2 (List.forall₂_same.2 fun row _ => ⟨row.entries, .refl _, rfl⟩)

theorem decode_encode (content : Keyed (List Row)) : decode (encode content) = .ok (some content) := by
  obtain ⟨v, spells, same⟩ := exists_spells content
  rw [same]
  exact spells.decode_render

/-- only an empty file is no tablespace -/
theorem decode_eq_none_iff {bytes : Bytes} : decode bytes = .ok none ↔ bytes = [] := by
  rw [decode]
  rcases bytes with _ | ⟨b, rest⟩
  · simp
  · cases reading.document (b :: rest) <;> simp

end Tablespace

end TableStore
