/-
Rows printed as JSON: one line for each response, from which the response can be read again.

The line is a document of texts two arrays deep under its two names. What such documents write has no line feed in it and
reads back as it was, so the line ends where it says and tells all of header and rows.

Results:
  one_faithful_line   rows are printed as a text whose only line feed is its last character; it reads back as an object of
                      just this header and these values, and is the line of no other rows.
-/
import TableStore.Client.Print
import TableStore.Proofs.Json.Values

namespace TableStore

open Json (Nests)

/-- rows as a document -/
def rowsDocument (header : List String) (rows : List (List String)) : Json :=
  .object [("header", .ofTexts header), ("values", .array (rows.map Json.ofTexts))]

theorem jsonLine_eq (header : List String) (rows : List (List String)) :
    jsonLine header rows = Json.render (rowsDocument header rows) ++ [0x0a] := rfl

theorem nests_rowsDocument (n : Nat) (header : List String) (rows : List (List String)) :
    Nests (n + 3) (rowsDocument header rows) := by
  have values : Nests (n + 2) (.array (rows.map Json.ofTexts)) := by
    apply Nests.array
    intro v mem
    obtain ⟨row, -, rfl⟩ := List.mem_map.1 mem
    exact Json.nests_ofTexts n row
  apply Nests.object
  intro member mem
  simp only [List.mem_cons, List.not_mem_nil, or_false] at mem
  rcases mem with rfl | rfl
  · exact Json.nests_ofTexts (n + 1) header
  · exact values

theorem rowsDocument_inj {header header' : List String} {rows rows' : List (List String)} :
    rowsDocument header rows = rowsDocument header' rows' ↔ header = header' ∧ rows = rows' := by
  constructor
  · intro same
    simp only [rowsDocument, Json.object.injEq, List.cons.injEq, Prod.mk.injEq, Json.array.injEq, true_and,
      and_true] at same
    obtain ⟨headers, values⟩ := same
    exact ⟨Json.ofTexts_injective headers, Json.ofTexts_injective.list_map values⟩
  · rintro ⟨rfl, rfl⟩
    rfl

namespace Response

/-- **Rows are one faithful line of JSON.** Whatever header and rows a response has, an output that takes all it is given
takes a text of which only the last character is a line feed, and nothing fails. This line reads back as an object whose
members are the header and the values, just these and in their order. So no other rows are printed as the same line. -/
theorem one_faithful_line (header : List String) (rows : List (List String)) :
    ∃ line : String, '\n' ∉ line.toList ∧
      (∀ fault, printOn ⟨none, fault⟩ .json (.rows header rows) = (Text.utf8 (line ++ "\n"), .ok ())) ∧
      Json.read (Text.utf8 (line ++ "\n"))
        = .ok (.object [("header", .ofTexts header), ("values", .array (rows.map Json.ofTexts))]) ∧
      ∀ header' rows', printed .json (.rows header' rows') = printed .json (.rows header rows)
        ↔ header' = header ∧ rows' = rows := by
  obtain ⟨line, written, unbroken⟩ := (nests_rowsDocument 0 header rows).oneLine
  have newline : Text.utf8 "\n" = [0x0a] := by decide
  have whole : Text.utf8 (line ++ "\n") = jsonLine header rows := by
    rw [Json.Reading.utf8_append, written, newline, jsonLine_eq]
  have blank : ([0x0a] : Bytes).all Json.isBlank = true := by decide
  have reads (header : List String) (rows : List (List String)) :
      Json.read (jsonLine header rows) = .ok (rowsDocument header rows) :=
    (nests_rowsDocument 124 header rows).read_render blank
  refine ⟨line, unbroken, fun fault => ?_, ?_, fun header' rows' => ?_⟩
  · rw [whole]
    rfl
  · rw [whole]
    exact reads header rows
  · constructor
    · intro same
      have lines : jsonLine header' rows' = jsonLine header rows := Except.ok.inj same
      have documents := congrArg Json.read lines
      rw [reads, reads] at documents
      exact rowsDocument_inj.1 (Except.ok.inj documents)
    · rintro ⟨rfl, rfl⟩
      rfl

/-- a quote, a line feed and a control character stay on the line, each behind a backslash -/
example : jsonLine ["a\"b"] [["x\ny"], ["\x01é"]]
    = Text.utf8 "\x7b\"header\":[\"a\\\"b\"],\"values\":[[\"x\\ny\"],[\"\\u0001é\"]]\x7d\n" := by decide +kernel

end Response
end TableStore
