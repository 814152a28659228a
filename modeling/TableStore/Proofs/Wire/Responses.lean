/-
Responses on the wire.

A response fits if none of its texts has more bytes, and none of its lists more items, than a reader takes (`Fits`). The
writer knows no such caps: it writes any response, and faithfully as long as four bytes hold every length (`Sized`).

Results:
  codec              reading responses is a codec: those that fit are read back, the others refused;
  exact_on_the_wire  the format is exact and canonical: what is read back, what is refused, that no two byte strings
                     are read as one response, and that a response cut short is an end of the stream.
-/
import TableStore.Proofs.Wire.Framing
import TableStore.Wire.Response

namespace TableStore.Response
open Wire

/-! ## Lengths -/

/-- all texts of a response -/
def strings : Response → List String
  | .message text => [text]
  | .rows header rs => header ++ rs.flatten
  | .error _ text => [text]

/-- the lengths of all its lists: of the header, of the list of rows, and of each row -/
def lengths : Response → List Nat
  | .rows header rs => header.length :: rs.length :: rs.map List.length
  | .message _ | .error _ _ => []

/-- all texts have sizes of one kind, and all lists lengths of another -/
def Within (size length : Nat → Prop) (r : Response) : Prop :=
  (∀ text ∈ r.strings, size text.utf8ByteSize) ∧ ∀ n ∈ r.lengths, length n

/-- no text and no list is above the caps of a reader -/
def Fits : Response → Prop := Within (· ≤ maxTextBytes) (· ≤ maxItems)

/-- four bytes hold all lengths -/
def Sized : Response → Prop := Within (· < numberBound) (· < numberBound)

section Within

variable {size length : Nat → Prop}

theorem within_message {text : String} : (message text).Within size length ↔ size text.utf8ByteSize := by
  simp [Within, strings, lengths]

theorem within_error {number : UInt8} {text : String} :
    (error number text).Within size length ↔ size text.utf8ByteSize := by
  simp [Within, strings, lengths]

/-- rows, list by list -/
theorem within_rows {header : List String} {rs : List (List String)} :
    (rows header rs).Within size length ↔
      (length header.length ∧ ∀ text ∈ header, size text.utf8ByteSize)
        ∧ length rs.length ∧ ∀ row ∈ rs, length row.length ∧ ∀ text ∈ row, size text.utf8ByteSize := by
  simp only [Within, strings, lengths, List.mem_append, List.mem_flatten, List.mem_cons, List.mem_map]
  refine ⟨?_, ?_⟩
  · rintro ⟨texts, lists⟩
    refine ⟨⟨lists _ (.inl rfl), fun text mem => texts text (.inl mem)⟩, lists _ (.inr (.inl rfl)), ?_⟩
    intro row mem
    exact ⟨lists _ (.inr (.inr ⟨row, mem, rfl⟩)), fun text mem' => texts text (.inr ⟨row, mem, mem'⟩)⟩
  · rintro ⟨⟨wide, header⟩, many, each⟩
    refine ⟨?_, ?_⟩
    · rintro text (mem | ⟨row, mem, mem'⟩)
      · exact header text mem
      · exact (each row mem).2 text mem'
    · rintro n (rfl | rfl | ⟨row, mem, rfl⟩)
      · exact wide
      · exact many
      · exact (each row mem).1

end Within

/-! ## Reading what was written -/

theorem codec_text : Codec readText Wire.text (·.utf8ByteSize < numberBound) (·.utf8ByteSize ≤ maxTextBytes)
    .invalidResponse :=
  .text .invalidResponse

theorem codec_texts : Codec readTexts Wire.texts
    (fun ts => ts.length < numberBound ∧ ∀ t ∈ ts, t.utf8ByteSize < numberBound)
    (fun ts => ts.length ≤ maxItems ∧ ∀ t ∈ ts, t.utf8ByteSize ≤ maxTextBytes) .invalidResponse :=
  codec_text.list

theorem codec_rows : Codec (do manyAfter readTexts (← readCount) [])
    (fun rs => number rs.length ++ rs.flatMap Wire.texts)
    (fun rs => rs.length < numberBound
      ∧ ∀ row ∈ rs, row.length < numberBound ∧ ∀ t ∈ row, t.utf8ByteSize < numberBound)
    (fun rs => rs.length ≤ maxItems ∧ ∀ row ∈ rs, row.length ≤ maxItems ∧ ∀ t ∈ row, t.utf8ByteSize ≤ maxTextBytes)
    .invalidResponse :=
  codec_texts.list

theorem encode_rows (header : List String) (rs : List (List String)) :
    (rows header rs).encode = 2 :: (Wire.texts header ++ (number rs.length ++ rs.flatMap Wire.texts)) := by
  simp only [encode, List.cons_append, List.append_assoc]

/-- a response begins with the byte of its form -/
theorem read_eq : read = (do
    let tag ← readByte
    if tag = 1 then message <$> readText
    else if tag = 2 then do
      let header ← readTexts
      rows header <$> (do manyAfter readTexts (← readCount) [])
    else if tag = 3 then do
      let number ← readByte
      error number <$> readText
    else throw .invalidResponse) := by
  simp only [read, map_eq_pure_bind, bind_assoc]

theorem codec : Codec read encode Sized Fits .invalidResponse where
  frames r fits := by
    rw [read_eq]
    cases r with
    | message text =>
      have body := codec_text.frames text (within_message.1 fits)
      exact (frames_byte 1).bind (body.map message)
    | rows header rs =>
      obtain ⟨first, rest⟩ := within_rows.1 fits
      have body := (codec_rows.frames rs rest).map (rows header)
      rw [encode_rows]
      exact (frames_byte 2).bind ((codec_texts.frames header first).bind body)
    | error number text =>
      have body := codec_text.frames text (within_error.1 fits)
      exact (frames_byte 3).bind ((frames_byte number).bind (body.map (error number)))
  refuses r sized wrong := by
    rw [read_eq]
    cases r with
    | message text =>
      have big := mt within_message.2 wrong
      have body := codec_text.refuses text (within_message.1 sized) big
      exact (frames_byte 1).bind_refuses (body.map message)
    | rows header rs =>
      obtain ⟨first, rest⟩ := within_rows.1 sized
      rw [encode_rows]
      refine (frames_byte 2).bind_refuses ?_
      -- either the header is refused, or one of the lists behind it
      by_cases fits : header.length ≤ maxItems ∧ ∀ t ∈ header, t.utf8ByteSize ≤ maxTextBytes
      · have body := codec_rows.refuses rs rest fun fit => wrong (within_rows.2 ⟨fits, fit⟩)
        exact (codec_texts.frames header fits).bind_refuses (body.map (rows header))
      · exact (codec_texts.refuses header first fits).bind
    | error number text =>
      have big := mt within_error.2 wrong
      have body := codec_text.refuses text (within_error.1 sized) big
      exact (frames_byte 3).bind_refuses ((frames_byte number).bind_refuses (body.map (error number)))
  canonical s r s' h := by
    rw [read_eq] at h
    obtain ⟨tag, mid, taken, body⟩ := bind_eq_ok h
    rw [readByte_eq_ok taken]
    split_ifs at body with one two three
    · obtain ⟨text, read, rfl⟩ := map_eq_ok body
      obtain ⟨fits, unread⟩ := codec_text.canonical _ _ _ read
      exact ⟨within_message.2 fits, by rw [one, unread]; rfl⟩
    · obtain ⟨header, mid', read, body⟩ := bind_eq_ok body
      obtain ⟨rs, read', rfl⟩ := map_eq_ok body
      obtain ⟨first, unread⟩ := codec_texts.canonical _ _ _ read
      obtain ⟨rest, unread'⟩ := codec_rows.canonical _ _ _ read'
      refine ⟨within_rows.2 ⟨first, rest⟩, ?_⟩
      simp only [two, unread, unread', encode_rows, List.cons_append, List.append_assoc]
    · obtain ⟨number, mid', read, body⟩ := bind_eq_ok body
      obtain ⟨text, read', rfl⟩ := map_eq_ok body
      obtain ⟨fits, unread⟩ := codec_text.canonical _ _ _ read'
      refine ⟨within_error.2 fits, ?_⟩
      rw [three, readByte_eq_ok read, unread]
      rfl
    · cases body

/-! ## Main result -/

/-- **The format of responses is exact and canonical.** Of a response whose lengths can be written: with any bytes
behind it, it is read back, and they are left, exactly if it fits, and else it is refused; whatever is read back is
written as the bytes that were taken for it; and cut short anywhere it is told as a closed connection. -/
theorem exact_on_the_wire (r : Response) :
    (∀ s tail, r.Sized → s.unread = r.encode ++ tail →
        (read s = (.ok r, s.leaving tail) ↔ r.Fits)
          ∧ (¬ r.Fits → ∃ rest, read s = (.error .invalidResponse, s.leaving rest)))
      ∧ (∀ s s', read s = (.ok r, s') → s.unread = r.encode ++ s'.unread)
      ∧ ∀ part written, r.Fits → part <+: r.encode → part ≠ r.encode →
          ∃ e, read { unread := part, ending := none, written } = (.error e, { unread := [], written })
            ∧ e.isClosed = true := by
  refine ⟨?_, ?_, ?_⟩
  · intro s tail sized unread
    have refused : ¬ r.Fits → ∃ rest, read s = (.error .invalidResponse, s.leaving rest) :=
      fun wrong => codec.refuses r sized wrong s tail unread
    refine ⟨⟨fun back => (codec.canonical s r _ back).1, fun fits => ?_⟩, refused⟩
    exact (codec.frames r fits).whole s tail unread
  · intro s s' back
    exact (codec.canonical s r s' back).2
  · intro part written fits beginning ne
    refine ⟨_, (codec.frames r fits).cut _ beginning ne, rfl⟩

end TableStore.Response
