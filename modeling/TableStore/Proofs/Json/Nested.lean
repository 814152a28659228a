/-
Arrays, objects and records in JSON: what is written is read back.

A reader decodes a value if it takes what is written for it, and this begins like a value (`Decodes`). Arrays and
objects are written with a comma before every part but the first, and read in rounds of one part each, so what is
decoded part by part is decoded as a whole (`decodes_array`, `decodes_object`). An object that has exactly the fields of a
record, in their order, decodes to what the fields make of the record one after the other (`decodes_record`).
-/
import TableStore.Proofs.Json.Texts

namespace TableStore.Json.Reading

variable {σ α β : Type}

/-! ## Separated parts -/

/-- bytes begin like a value: with no blank and no end of an array -/
def Opens (bytes : Bytes) : Prop := ∃ b rest, bytes = b :: rest ∧ isBlank b = false ∧ b ≠ 0x5d

/-- a reader takes what is written for a value -/
structure Decodes (r : Reading α) (v : Json) (a : α) : Prop where
  takes : Takes r (render v) a
  opens : Opens (render v)

theorem decodes_text (s : String) : Decodes text (.text s) s :=
  ⟨takes_text s, _, _, rfl, by decide, by decide⟩

theorem Decodes.map {r : Reading α} {v : Json} {a : α} (h : Decodes r v a) (f : α → β) : Decodes (f <$> r) v (f a) :=
  ⟨takes_map h.takes f, h.opens⟩

/-- parts with a comma before each -/
def behindCommas (parts : List Bytes) : Bytes := parts.flatMap fun part => 0x2c :: part

theorem renderItems_cons (v : Json) (rest : List Json) :
    renderItems (v :: rest) = render v ++ behindCommas (rest.map render) := by
  induction rest generalizing v with
  | nil => simp [renderItems, behindCommas]
  | cons w rest ih =>
    rw [renderItems, ih w]
    · simp [behindCommas]
    · simp

/-- one member of an object -/
def renderMember (member : String × Json) : Bytes := renderText member.1 ++ 0x3a :: render member.2

theorem renderMembers_cons (m : String × Json) (rest : List (String × Json)) :
    renderMembers (m :: rest) = renderMember m ++ behindCommas (rest.map renderMember) := by
  induction rest generalizing m with
  | nil => simp [renderMembers, behindCommas, renderMember]
  | cons w rest ih =>
    rw [renderMembers, ih w]
    · simp [behindCommas, renderMember]
    · simp

/-! ## Arrays -/

theorem takes_hasItem_first {next : Bool → Reading α} {bytes : Bytes} {a : α} (opens : Opens bytes)
    (h : Takes (next true) bytes a) : Takes (hasItem true >>= next) bytes a := by
  obtain ⟨b, rest, rfl, mark, other⟩ := opens
  rw [hasItem, bind_assoc]
  refine takes_token? mark ?_
  simp only [if_neg other, if_true, pure_bind]
  exact h

theorem takes_hasItem_more {next : Bool → Reading α} {bytes : Bytes} {a : α} (opens : Opens bytes)
    (h : Takes (next true) bytes a) : Takes (hasItem false >>= next) (0x2c :: bytes) a := by
  obtain ⟨b, rest, rfl, mark, other⟩ := opens
  have comma : ¬ (0x2c : UInt8) = 0x5d := by decide
  rw [hasItem, bind_assoc]
  refine takes_token? (by decide) ?_
  simp only [if_neg comma, Bool.false_eq_true, if_false, if_true, bind_assoc]
  refine takes_skip (takes_token mark ?_)
  simp only [if_neg other, pure_bind]
  exact h

theorem takes_hasItem_end {next : Bool → Reading α} {bytes : Bytes} {a : α} (isFirst : Bool)
    (h : Takes (next false) (0x5d :: bytes) a) : Takes (hasItem isFirst >>= next) (0x5d :: bytes) a := by
  rw [hasItem, bind_assoc]
  refine takes_token? (by decide) ?_
  simp only [if_true, pure_bind]
  exact h

/-- a round of reading an array, behind the values read so far, the latest first -/
def listRound (item : Reading α) (read : List α) : Reading (List α ⊕ List α) := do
  if ← hasItem read.isEmpty then return .inl ((← item) :: read)
  else
    skip
    return .inr read.reverse

theorem list_eq (item : Reading α) : list item = (do
    if (← token) ≠ 0x5b then mismatch "a sequence"
    skip
    loop (listRound item) []) :=
  rfl

section List

variable {item : Reading α} {v : Json} {a : α}

theorem takes_listRound_first (part : Decodes item v a) : Takes (listRound item []) (render v) (.inl [a]) := by
  rw [listRound]
  refine takes_hasItem_first part.opens ?_
  rw [if_pos rfl]
  exact takes_bind_pure part.takes rfl

theorem takes_listRound_more (part : Decodes item v a) {read : List α} (some : read ≠ []) :
    Takes (listRound item read) (0x2c :: render v) (.inl (a :: read)) := by
  rw [listRound, List.isEmpty_eq_false_iff.2 some]
  refine takes_hasItem_more part.opens ?_
  rw [if_pos rfl]
  exact takes_bind_pure part.takes rfl

theorem takes_listRound_end (item : Reading α) (read : List α) :
    Takes (listRound item read) [0x5d] (.inr read.reverse) := by
  rw [listRound]
  refine takes_hasItem_end _ ?_
  rw [if_neg Bool.false_ne_true]
  exact takes_skip (takes_pure _)

/-- the rounds behind the first one -/
theorem rounds_list {values : List Json} {items : List α} (parts : List.Forall₂ (Decodes item) values items)
    {read : List α} (some : read ≠ []) :
    Rounds (listRound item) read (behindCommas (values.map render) ++ [0x5d]) (read.reverse ++ items) := by
  induction parts generalizing read with
  | nil =>
    rw [List.append_nil]
    exact .last (takes_listRound_end item read)
  | @cons _ a _ _ part _ ih =>
    have rounds := Rounds.more (takes_listRound_more part some) (by simp) (ih (List.cons_ne_nil a read))
    simpa [behindCommas] using rounds

/-- an array of what is decoded is decoded -/
theorem decodes_array {values : List Json} {items : List α} (parts : List.Forall₂ (Decodes item) values items) :
    Decodes (list item) (.array values) items := by
  refine ⟨?_, _, _, rfl, by decide, by decide⟩
  have rounds : Rounds (listRound item) [] (renderItems values ++ [0x5d]) items := by
    cases parts with
    | nil => exact .last (takes_listRound_end item [])
    | @cons _ a _ _ part parts =>
      have rounds := Rounds.more (takes_listRound_first part)
        (by obtain ⟨b, _, eq, _⟩ := part.opens; simp [eq]) (rounds_list parts (List.cons_ne_nil a []))
      simpa [renderItems_cons] using rounds
  rw [list_eq]
  refine takes_token (by decide) ?_
  rw [if_neg (by decide)]
  exact takes_skip rounds.takes

/-- an array of values that are all written in one way -/
theorem decodes_list {json : α → Json} (each : ∀ a, Decodes item (json a) a) (items : List α) :
    Decodes (list item) (.array (items.map json)) items :=
  decodes_array (List.forall₂_map_left_iff.2 (List.forall₂_same.2 fun a _ => each a))

end List

/-! ## Objects -/

theorem takes_hasKey_first {next : Bool → Reading α} {bytes : Bytes} {a : α}
    (h : Takes (next true) (0x22 :: bytes) a) : Takes (hasKey true >>= next) (0x22 :: bytes) a := by
  have other : ¬ (0x22 : UInt8) = 0x7d := by decide
  rw [hasKey, bind_assoc]
  refine takes_token? (by decide) ?_
  simp only [if_neg other, if_true, pure_bind]
  exact h

theorem takes_hasKey_more {next : Bool → Reading α} {bytes : Bytes} {a : α}
    (h : Takes (next true) (0x22 :: bytes) a) : Takes (hasKey false >>= next) (0x2c :: 0x22 :: bytes) a := by
  have comma : ¬ (0x2c : UInt8) = 0x7d := by decide
  rw [hasKey, bind_assoc]
  refine takes_token? (by decide) ?_
  simp only [if_neg comma, Bool.false_eq_true, if_false, if_true, bind_assoc]
  refine takes_skip (takes_token (by decide) ?_)
  simp only [if_true, pure_bind]
  exact h

theorem takes_hasKey_end {next : Bool → Reading α} {bytes : Bytes} {a : α} (isFirst : Bool)
    (h : Takes (next false) (0x7d :: bytes) a) : Takes (hasKey isFirst >>= next) (0x7d :: bytes) a := by
  rw [hasKey, bind_assoc]
  refine takes_token? (by decide) ?_
  simp only [if_true, pure_bind]
  exact h

theorem takes_key (s : String) : Takes key (renderText s) s := takes_skip (takes_string s)

theorem takes_colon {next : Unit → Reading α} {bytes : Bytes} {a : α} (h : Takes (next ()) bytes a) :
    Takes (colon >>= next) (0x3a :: bytes) a := by
  rw [colon, bind_assoc]
  refine takes_token? (by decide) ?_
  simp only [if_true]
  exact takes_skip h

/-- a round of reading an object, behind the members read so far, the latest first -/
def mapRound (value : Reading α) (read : List (String × α)) :
    Reading (List (String × α) ⊕ List (String × α)) := do
  if ← hasKey read.isEmpty then
    let key ← key
    colon
    return .inl ((key, ← value) :: read)
  else
    skip
    return .inr read.reverse

theorem map_eq (value : Reading α) : map value = (do
    if (← token) ≠ 0x7b then mismatch "a map"
    skip
    loop (mapRound value) []) :=
  rfl

section Map

variable {value : Reading α} {member : String × Json} {entry : String × α}

/-- a member of an object is written for an entry of a map -/
def Member (value : Reading α) (member : String × Json) (entry : String × α) : Prop :=
  member.1 = entry.1 ∧ Decodes value member.2 entry.2

theorem takes_member {read : List (String × α)} (part : Member value member entry) :
    Takes (do let key ← key; colon; return .inl ((key, ← value) :: read))
      (renderMember member) (.inl (entry :: read) : List (String × α) ⊕ List (String × α)) := by
  obtain ⟨name, v⟩ := member
  obtain ⟨name', a⟩ := entry
  obtain ⟨rfl, decodes⟩ : name = name' ∧ Decodes value v a := part
  exact takes_bind (takes_key name) (takes_colon (takes_bind_pure decodes.takes rfl))

theorem takes_mapRound_first (part : Member value member entry) :
    Takes (mapRound value []) (renderMember member) (.inl [entry]) := by
  rw [mapRound]
  refine takes_hasKey_first ?_
  rw [if_pos rfl]
  exact takes_member part

theorem takes_mapRound_more (part : Member value member entry) {read : List (String × α)} (some : read ≠ []) :
    Takes (mapRound value read) (0x2c :: renderMember member) (.inl (entry :: read)) := by
  rw [mapRound, List.isEmpty_eq_false_iff.2 some]
  refine takes_hasKey_more ?_
  rw [if_pos rfl]
  exact takes_member part

theorem takes_mapRound_end (value : Reading α) (read : List (String × α)) :
    Takes (mapRound value read) [0x7d] (.inr read.reverse) := by
  rw [mapRound]
  refine takes_hasKey_end _ ?_
  rw [if_neg Bool.false_ne_true]
  exact takes_skip (takes_pure _)

/-- the rounds behind the first one -/
theorem rounds_map {members : List (String × Json)} {entries : List (String × α)}
    (parts : List.Forall₂ (Member value) members entries) {read : List (String × α)} (some : read ≠ []) :
    Rounds (mapRound value) read (behindCommas (members.map renderMember) ++ [0x7d]) (read.reverse ++ entries) := by
  induction parts generalizing read with
  | nil =>
    rw [List.append_nil]
    exact .last (takes_mapRound_end value read)
  | @cons _ entry _ _ part _ ih =>
    have rounds := Rounds.more (takes_mapRound_more part some) (by simp) (ih (List.cons_ne_nil entry read))
    simpa [behindCommas] using rounds

/-- an object of what is decoded is decoded -/
theorem decodes_object {members : List (String × Json)} {entries : List (String × α)}
    (parts : List.Forall₂ (Member value) members entries) : Decodes (map value) (.object members) entries := by
  refine ⟨?_, _, _, rfl, by decide, by decide⟩
  have rounds : Rounds (mapRound value) [] (renderMembers members ++ [0x7d]) entries := by
    cases parts with
    | nil => exact .last (takes_mapRound_end value [])
    | @cons _ entry _ _ part parts =>
      have rounds := Rounds.more (takes_mapRound_first part) (by simp [renderMember, renderText])
        (rounds_map parts (List.cons_ne_nil entry []))
      simpa [renderMembers_cons] using rounds
  rw [map_eq]
  refine takes_token (by decide) ?_
  rw [if_neg (by decide)]
  exact takes_skip rounds.takes

/-- an object of values that are all written in one way -/
theorem decodes_map {json : α → Json} (each : ∀ a, Decodes value (json a) a) (entries : List (String × α)) :
    Decodes (map value) (.object (entries.map fun entry => (entry.1, json entry.2))) entries :=
  decodes_object (List.forall₂_map_left_iff.2 (List.forall₂_same.2 fun entry _ => ⟨rfl, each entry.2⟩))

end Map

/-! ## Records -/

/-- fields, what is written under their names, and what they make of a record one after the other -/
inductive Fills : List (Field σ) → List (String × Json) → σ → σ → Prop where
  | nil {s} : Fills [] [] s s
  | cons {field v s s' fields members filled} : Takes (field.read s) (render v) s' → Fills fields members s' filled →
      Fills (field :: fields) ((field.name, v) :: members) s filled

/-- a member of an object of fields, behind those that were there -/
def member (all : List (Field σ)) (st : Fields σ) : Reading (Fields σ ⊕ Fields σ) := do
  let key ← key
  match all.find? (·.name == key) with
  | none =>
    colon
    skipValue
    return .inl { st with isFirst := false }
  | some field =>
    if st.names.contains key then repeatedField key
    colon
    return .inl { names := key :: st.names, isFirst := false, value := ← field.read st.value }

theorem fieldRound_eq (all : List (Field σ)) (st : Fields σ) : fieldRound all st = (do
    if ← hasKey st.isFirst then member all st
    else
      skip
      return .inr st) :=
  rfl

/-- what is read of a field is put to the others, once they were there -/
theorem takes_member_field {all : List (Field σ)} {field : Field σ} {st : Fields σ} {v : Json} {s' : σ}
    (found : all.find? (·.name == field.name) = some field) (new : st.names.contains field.name = false)
    (value : Takes (field.read st.value) (render v) s') :
    Takes (member all st) (renderMember (field.name, v))
      (.inl { names := field.name :: st.names, isFirst := false, value := s' }) := by
  rw [member]
  refine takes_bind (takes_key field.name) ?_
  simp only [found, new, Bool.false_eq_true, if_false]
  exact takes_colon (takes_bind_pure value rfl)

theorem takes_fieldRound_end (all : List (Field σ)) (st : Fields σ) : Takes (fieldRound all st) [0x7d] (.inr st) := by
  rw [fieldRound]
  refine takes_hasKey_end _ ?_
  rw [if_neg Bool.false_ne_true]
  exact takes_skip (takes_pure _)

/-- once all fields were there, none is missing -/
theorem takes_fieldsByName {all : List (Field σ)} {start filled : σ} {isFirst : Bool} {bytes : Bytes}
    (fields : Takes (loop (fieldRound all) { value := start }) bytes
      { names := (all.map (·.name)).reverse, isFirst, value := filled }) :
    Takes (fieldsByName all start) bytes filled := by
  have complete :
      all.find? (fun field => field.isRequired && !(all.map (·.name)).reverse.contains field.name) = none := by
    simp only [List.find?_eq_none, Bool.and_eq_true, not_and]
    intro field mem _
    have there : field.name ∈ (all.map (·.name)).reverse := by
      simpa using ⟨field, mem, rfl⟩
    simpa using there
  rw [fieldsByName]
  exact takes_bind_pure fields (by simp only [complete])

theorem takes_record_object (name : String) {all : List (Field σ)} {start filled : σ} {bytes : Bytes}
    (fields : Takes (fieldsByName all start) bytes filled) : Takes (record name all start) (0x7b :: bytes) filled := by
  rw [record]
  refine takes_token (by decide) ?_
  rw [if_neg (by decide), if_pos rfl]
  exact takes_skip fields

section Record

variable {all : List (Field σ)} (distinct : (all.map (·.name)).Nodup)
include distinct

/-- a field is found by its name, which no field before it has -/
theorem find_field {before fields : List (Field σ)} {field : Field σ} (split : all = before ++ field :: fields) :
    all.find? (·.name == field.name) = some field
      ∧ (before.map (·.name)).reverse.contains field.name = false := by
  rw [split, List.map_append, List.map_cons] at distinct
  have apart : ∀ other ∈ before, other.name ≠ field.name := by
    intro other mem eq
    exact (List.nodup_append.1 distinct).2.2 other.name (List.mem_map_of_mem mem) field.name List.mem_cons_self eq
  have missing : before.find? (·.name == field.name) = none := by
    simpa using apart
  refine ⟨by simp [split, missing], ?_⟩
  simpa using apart

/-- the rounds behind the first field -/
theorem rounds_fields {fields before : List (Field σ)} {members : List (String × Json)} {s filled : σ}
    (fills : Fills fields members s filled) (split : all = before ++ fields) :
    Rounds (fieldRound all) { names := (before.map (·.name)).reverse, isFirst := false, value := s }
      (behindCommas (members.map renderMember) ++ [0x7d])
      { names := (all.map (·.name)).reverse, isFirst := false, value := filled } := by
  induction fills generalizing before with
  | nil =>
    rw [split, List.append_nil]
    exact .last (takes_fieldRound_end _ _)
  | @cons field v s s' fields members filled value _ ih =>
    obtain ⟨found, new⟩ := find_field distinct split
    have step : Takes (fieldRound all { names := (before.map (·.name)).reverse, isFirst := false, value := s })
        (0x2c :: renderMember (field.name, v))
        (.inl { names := ((before ++ [field]).map (·.name)).reverse, isFirst := false, value := s' }) := by
      rw [fieldRound_eq]
      refine takes_hasKey_more ?_
      rw [if_pos rfl, List.map_append, List.reverse_append]
      exact takes_member_field found new value
    have rounds := Rounds.more step (by simp) (ih (by simp [split] : all = (before ++ [field]) ++ fields))
    simpa [behindCommas] using rounds

/-- an object with exactly the fields of a record decodes to what they make of it -/
theorem decodes_record (name : String) {members : List (String × Json)} {start filled : σ}
    (fills : Fills all members start filled) : Decodes (record name all start) (.object members) filled := by
  refine ⟨?_, _, _, rfl, by decide, by decide⟩
  have rounds : Rounds (fieldRound all) { value := start } (renderMembers members ++ [0x7d])
      { names := (all.map (·.name)).reverse, isFirst := all.isEmpty, value := filled } := by
    cases fills with
    | nil => exact .last (takes_fieldRound_end _ _)
    | @cons field v _ s' fields members _ value fills =>
      obtain ⟨found, new⟩ := find_field distinct (List.nil_append _).symm
      have step : Takes (fieldRound (field :: fields) { value := start }) (renderMember (field.name, v))
          (.inl { names := [field.name], isFirst := false, value := s' }) := by
        rw [fieldRound_eq]
        refine takes_hasKey_first ?_
        rw [if_pos rfl]
        exact takes_member_field found new value
      have split : field :: fields = [field] ++ fields := rfl
      have rest : Rounds (fieldRound (field :: fields)) { names := [field.name], isFirst := false, value := s' }
          (behindCommas (members.map renderMember) ++ [0x7d])
          { names := ((field :: fields).map (·.name)).reverse, isFirst := false, value := filled } :=
        rounds_fields distinct fills split
      have rounds := Rounds.more step (by simp [renderMember, renderText]) rest
      simpa [renderMembers_cons] using rounds
  exact takes_record_object name (takes_fieldsByName rounds.takes)

end Record

end TableStore.Json.Reading
