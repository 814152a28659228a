/-
Documents of texts in arrays and objects: what is written reads back as it was, and is written on one line.

A reader of values of any shape is told how deep it may go, so documents are counted by their depth (`Nests`). Such a
document decodes to itself (`Nests.decodes`), also with blanks behind it (`Nests.read_render`), so no two of them are
written alike.

Every byte that could end a line is a control character and stands in a string only as an escape. The other escapes are
ASCII too, and bytes that are not ASCII stand for themselves, so what is written is a text again, and one without line
feeds (`Nests.oneLine`).
-/
import Mathlib.Tactic
import TableStore.Json.Reader
import TableStore.Proofs.Json.Lines

namespace TableStore.Json

/-- texts, and arrays and objects of them, of which at most so many stand inside one another -/
inductive Nests : Nat → Json → Prop where
  | text {n : Nat} (s : String) : Nests n (.text s)
  | array {n : Nat} {items : List Json} : (∀ v ∈ items, Nests n v) → Nests (n + 1) (.array items)
  | object {n : Nat} {members : List (String × Json)} : (∀ m ∈ members, Nests n m.2) → Nests (n + 1) (.object members)

theorem nests_ofTexts (n : Nat) (texts : List String) : Nests (n + 1) (ofTexts texts) := by
  apply Nests.array
  intro v mem
  obtain ⟨s, -, rfl⟩ := List.mem_map.1 mem
  exact .text s

theorem ofTexts_injective : Function.Injective ofTexts := by
  intro texts texts' same
  have text : Function.Injective Json.text := fun _ _ eq => Json.text.inj eq
  exact text.list_map (Json.array.inj same)

/-! ## Reading -/

section Reading
open Reading

/-- blanks behind what is taken do no harm to a document -/
theorem document_eq_of_blanks {α : Type} {r : Reading α} {bytes blanks : Bytes} {a : α} (h : Takes r bytes a)
    (all : blanks.all isBlank = true) : r.document (bytes ++ blanks) = .ok a := by
  have passes : Blanks finish := blanks_token?.bind _
  have finished := passes.apply all (bytes ++ blanks).length []
  rw [List.append_nil] at finished
  exact document_eq_ok (h _ blanks le_rfl) finished

/-- a reader of any value looks at the first byte and leaves it -/
theorem decodes_value_text (n : Nat) (s : String) : Decodes (value n) (.text s) (.text s) := by
  refine ⟨?_, (decodes_text s).opens⟩
  cases n with
  | zero =>
    rw [value]
    refine takes_token (by decide) ?_
    rw [if_neg (by decide)]
    exact takes_scalar_text s
  | succ n =>
    rw [value]
    refine takes_token (by decide) ?_
    rw [if_neg (by decide), if_neg (by decide)]
    exact takes_scalar_text s

/-- **A document of texts reads back as it was written**: by induction on how it nests. -/
theorem Nests.decodes {n : Nat} {v : Json} (h : Nests n v) : Decodes (value n) v v := by
  induction h with
  | text s => exact decodes_value_text _ s
  | @array n items _ ih =>
    have parts : List.Forall₂ (Decodes (value n)) items items := List.forall₂_same.2 ih
    have whole := decodes_array parts
    refine ⟨?_, whole.opens⟩
    rw [value]
    refine takes_token (by decide) ?_
    rw [if_pos rfl]
    exact takes_bind_pure whole.takes rfl
  | @object n members _ ih =>
    have parts : List.Forall₂ (Member (value n)) members members :=
      List.forall₂_same.2 fun m mem => ⟨rfl, ih m mem⟩
    have whole := decodes_object parts
    refine ⟨?_, whole.opens⟩
    rw [value]
    refine takes_token (by decide) ?_
    rw [if_neg (by decide), if_pos rfl]
    exact takes_bind_pure whole.takes rfl

theorem Nests.read_render {v : Json} (h : Nests maxDepth v) {blanks : Bytes} (all : blanks.all isBlank = true) :
    read (render v ++ blanks) = .ok v :=
  document_eq_of_blanks h.decodes.takes all

end Reading

/-! ## One line -/

/-- bytes write a text without line feeds -/
def OneLine (bytes : Bytes) : Prop := ∃ s : String, Text.utf8 s = bytes ∧ '\n' ∉ s.toList

theorem OneLine.append {bytes more : Bytes} (h : OneLine bytes) (h' : OneLine more) : OneLine (bytes ++ more) := by
  obtain ⟨s, rfl, unbroken⟩ := h
  obtain ⟨t, rfl, unbroken'⟩ := h'
  refine ⟨s ++ t, Reading.utf8_append s t, ?_⟩
  rw [String.toList_append]
  exact List.not_mem_append unbroken unbroken'

theorem oneLine_flatMap {α : Type} {l : List α} {f : α → Bytes} (each : ∀ a ∈ l, OneLine (f a)) :
    OneLine (l.flatMap f) := by
  induction l with
  | nil => exact ⟨"", rfl, List.not_mem_nil⟩
  | cons a l ih =>
    rw [List.flatMap_cons]
    apply OneLine.append
    · exact each a List.mem_cons_self
    · exact ih fun b mem => each b (List.mem_cons_of_mem a mem)

theorem oneLine_char {c : Char} (other : c ≠ '\n') : OneLine (String.utf8EncodeChar c) := by
  refine ⟨String.singleton c, ?_, ?_⟩
  · rw [Text.utf8_eq_flatMap, String.toList_singleton, List.flatMap_singleton]
  · rw [String.toList_singleton]
    exact fun mem => other (List.mem_singleton.1 mem).symm

/-- a byte is the code of an ASCII character that ends no line -/
def IsMark (b : UInt8) : Prop := b.toNat < 128 ∧ b ≠ 0x0a

instance (b : UInt8) : Decidable (IsMark b) := inferInstanceAs (Decidable (_ ∧ _))

theorem encoded_ascii {c : Char} (ascii : c.toNat ≤ 127) : String.utf8EncodeChar c = [UInt8.ofNat c.toNat] := by
  rw [String.utf8EncodeChar]
  exact if_pos ascii

theorem notMem_ascii : ∀ n < 128, UInt8.ofNat n ≠ 0x0a → '\n' ∉ (Char.ofNat n).toString.toList := by decide +kernel

theorem oneLine_mark {b : UInt8} (mark : IsMark b) : OneLine [b] := by
  refine ⟨(Char.ofNat b.toNat).toString, ?_, ?_⟩
  · rw [Reading.utf8_ascii b.toNat mark.1, UInt8.ofNat_toNat]
  · apply notMem_ascii b.toNat mark.1
    rw [UInt8.ofNat_toNat]
    exact mark.2

theorem oneLine_marks {bytes : Bytes} (marks : ∀ b ∈ bytes, IsMark b) : OneLine bytes := by
  have each := oneLine_flatMap fun b mem => oneLine_mark (marks b mem)
  rwa [List.flatMap_singleton'] at each

/-- what is written for an ASCII character is ASCII and ends no line, whatever the character is -/
theorem isMark_escaped : ∀ n < 128, ∀ b ∈ escaped (UInt8.ofNat n), IsMark b := by decide +kernel

theorem escaped_wide {b : UInt8} (wide : 128 ≤ b.toNat) : escaped b = [b] := by
  have ne (k : UInt8) (ascii : k.toNat < 128) : b ≠ k := by
    rintro rfl
    omega
  have noControl : ¬ b < 0x20 := by
    intro control
    have small : b.toNat < 32 := control
    omega
  rw [escaped, if_neg (ne _ (by decide)), if_neg (ne _ (by decide)), if_neg (ne _ (by decide)),
    if_neg (ne _ (by decide)), if_neg (ne _ (by decide)), if_neg (ne _ (by decide)), if_neg (ne _ (by decide)),
    if_neg noControl]

/-- no byte of a character that is not ASCII is one of those that are escaped -/
theorem encoded_wide {c : Char} (wide : 127 < c.toNat) : ∀ b ∈ String.utf8EncodeChar c, 128 ≤ b.toNat := by
  have notAscii : ¬ c.val.toNat ≤ 127 := Nat.not_le.2 wide
  intro b mem
  simp only [String.utf8EncodeChar, if_neg notAscii] at mem
  split_ifs at mem <;> simp only [List.mem_cons, List.not_mem_nil, or_false] at mem
  · rcases mem with rfl | rfl <;> rw [UInt8.toNat_ofNat'] <;> omega
  · rcases mem with rfl | rfl | rfl <;> rw [UInt8.toNat_ofNat'] <;> omega
  · rcases mem with rfl | rfl | rfl | rfl <;> rw [UInt8.toNat_ofNat'] <;> omega

theorem flatMap_escaped {bytes : Bytes} (wide : ∀ b ∈ bytes, 128 ≤ b.toNat) : bytes.flatMap escaped = bytes := by
  calc bytes.flatMap escaped
      = bytes.flatMap (fun b => [b]) := List.flatMap_congr fun b mem => escaped_wide (wide b mem)
    _ = bytes := List.flatMap_singleton' bytes

theorem oneLine_escaped (c : Char) : OneLine ((String.utf8EncodeChar c).flatMap escaped) := by
  by_cases ascii : c.toNat ≤ 127
  · rw [encoded_ascii ascii, List.flatMap_singleton]
    exact oneLine_marks (isMark_escaped c.toNat (by omega))
  · rw [flatMap_escaped (encoded_wide (by omega))]
    apply oneLine_char
    rintro rfl
    exact ascii (by decide)

theorem oneLine_renderText (s : String) : OneLine (renderText s) := by
  have inside : OneLine ((Text.utf8 s).flatMap escaped) := by
    rw [Text.utf8_eq_flatMap, List.flatMap_assoc]
    exact oneLine_flatMap fun c _ => oneLine_escaped c
  have quote : OneLine [0x22] := oneLine_mark (by decide)
  exact (quote.append inside).append quote

theorem oneLine_behindCommas {parts : List Bytes} (each : ∀ part ∈ parts, OneLine part) :
    OneLine (Reading.behindCommas parts) :=
  oneLine_flatMap fun part mem => (oneLine_mark (by decide) : OneLine [0x2c]).append (each part mem)

theorem oneLine_renderItems {items : List Json} (each : ∀ v ∈ items, OneLine (render v)) :
    OneLine (renderItems items) := by
  cases items with
  | nil => exact oneLine_marks (by simp [renderItems])
  | cons v items =>
    rw [Reading.renderItems_cons]
    apply OneLine.append
    · exact each v List.mem_cons_self
    · apply oneLine_behindCommas
      intro part mem
      obtain ⟨w, there, rfl⟩ := List.mem_map.1 mem
      exact each w (List.mem_cons_of_mem v there)

theorem oneLine_renderMembers {members : List (String × Json)} (each : ∀ m ∈ members, OneLine (render m.2)) :
    OneLine (renderMembers members) := by
  have member {m : String × Json} (mem : m ∈ members) : OneLine (Reading.renderMember m) :=
    (oneLine_renderText m.1).append ((oneLine_mark (by decide) : OneLine [0x3a]).append (each m mem))
  cases members with
  | nil => exact oneLine_marks (by simp [renderMembers])
  | cons m members =>
    rw [Reading.renderMembers_cons]
    apply OneLine.append
    · exact member List.mem_cons_self
    · apply oneLine_behindCommas
      intro part mem
      obtain ⟨w, there, rfl⟩ := List.mem_map.1 mem
      exact member (List.mem_cons_of_mem m there)

/-- **A document of texts is written on one line**, whatever its texts have in them. -/
theorem Nests.oneLine {n : Nat} {v : Json} (h : Nests n v) : OneLine (render v) := by
  induction h with
  | text s => exact oneLine_renderText s
  | array _ ih =>
    have inside := oneLine_renderItems ih
    exact ((oneLine_mark (by decide) : OneLine [0x5b]).append inside).append (oneLine_mark (by decide))
  | object _ ih =>
    have inside := oneLine_renderMembers ih
    exact ((oneLine_mark (by decide) : OneLine [0x7b]).append inside).append (oneLine_mark (by decide))

end TableStore.Json
