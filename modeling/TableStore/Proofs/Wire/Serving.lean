/-
A connection, from its first byte to its close.

What a client sends is a sequence of request frames and a rest that does not begin with one. A frame is a tag, the
length of a text within the cap, and the text; the rest is either malformed, which no further byte can mend, or the
beginning of a frame that is still incomplete. The three kinds of beginnings exclude each other and leave nothing out
(`Request.begins`), and the server's reader tells them apart (`firstRequest_frame`, `firstRequest_malformed`,
`firstRequest_incomplete`). So the split is that of the longest sequence of frames (`Request.Framed.longest`), and the
server executes exactly the queries of these frames (`Server.served_frame_by_frame`).
-/
import TableStore.Proofs.Wire.Exchange

namespace TableStore
open Wire

namespace Request

/-! ## Frames and what is none -/

/-- the bytes of a request: the tag, the length of a text within the cap, and the text in UTF-8 -/
inductive Frame : Bytes → String → Prop where
  | mk {length body : Bytes} {query : String} : length.length = 4 → ofBytes length = body.length →
      body.length ≤ maxTextBytes → Text.ofUtf8? body = some query → Frame (1 :: (length ++ body)) query

/-- bytes that do not begin with a frame, whatever follows them: another tag, a length above the cap, or a whole body
that is no UTF-8 -/
inductive Malformed : Bytes → Prop where
  | tag {b : UInt8} {rest : Bytes} : b ≠ 1 → Malformed (b :: rest)
  | tooLong {length rest : Bytes} : length.length = 4 → maxTextBytes < ofBytes length →
      Malformed (1 :: (length ++ rest))
  | noText {length body rest : Bytes} : length.length = 4 → ofBytes length = body.length →
      body.length ≤ maxTextBytes → Text.ofUtf8? body = none → Malformed (1 :: (length ++ body ++ rest))

/-- bytes that end inside a frame, or before it: without a tag, inside the length, or inside the body -/
inductive Incomplete : Bytes → Prop where
  | nothing : Incomplete []
  | length {length : Bytes} : length.length < 4 → Incomplete (1 :: length)
  | body {length body : Bytes} : length.length = 4 → ofBytes length ≤ maxTextBytes →
      body.length < ofBytes length → Incomplete (1 :: (length ++ body))

/-- bytes are the frames of some queries, one after the other, and a rest -/
inductive Framed : List String → Bytes → Bytes → Prop where
  | rest (bytes : Bytes) : Framed [] bytes bytes
  | frame {frame rest tail : Bytes} {query : String} {queries : List String} : Frame frame query →
      Framed queries tail rest → Framed (query :: queries) tail (frame ++ rest)

/-- the frames are what clients send for queries that are not too long -/
theorem frame_iff {bytes : Bytes} {query : String} :
    Frame bytes query ↔ bytes = encode query ∧ query.utf8ByteSize ≤ maxTextBytes := by
  refine ⟨fun h => ?_, fun h => ?_⟩
  · cases h with
    | mk four size fits text =>
      obtain rfl := Text.eq_utf8_of_ofUtf8? text
      rw [length_utf8] at size fits
      refine ⟨?_, fits⟩
      rw [encode, queryTag, Wire.text, ← size, number_ofBytes four]
  · obtain ⟨rfl, fits⟩ := h
    have size : ofBytes (number query.utf8ByteSize) = (Text.utf8 query).length := by
      rw [length_utf8]
      exact ofBytes_number (lt_of_le_of_lt fits (by decide))
    exact .mk rfl size (by rwa [length_utf8]) (Text.ofUtf8?_utf8 query)

/-- bytes begin with a frame, or are malformed, or are incomplete -/
theorem begins (bytes : Bytes) :
    (∃ frame query rest, Frame frame query ∧ bytes = frame ++ rest) ∨ Malformed bytes ∨ Incomplete bytes := by
  rcases bytes with _ | ⟨b, rest⟩
  · exact .inr (.inr .nothing)
  by_cases tag : b = 1
  · subst tag
    by_cases short : rest.length < 4
    · exact .inr (.inr (.length short))
    obtain ⟨length, behind, four, rfl⟩ : ∃ length behind : Bytes, length.length = 4 ∧ rest = length ++ behind :=
      ⟨rest.take 4, rest.drop 4, by rw [List.length_take]; omega, (List.take_append_drop 4 rest).symm⟩
    by_cases fits : ofBytes length ≤ maxTextBytes
    · by_cases cut : behind.length < ofBytes length
      · exact .inr (.inr (.body four fits cut))
      obtain ⟨body, tail, size, rfl⟩ : ∃ body tail : Bytes, ofBytes length = body.length ∧ behind = body ++ tail :=
        ⟨behind.take (ofBytes length), behind.drop (ofBytes length), by rw [List.length_take]; omega,
          (List.take_append_drop _ behind).symm⟩
      cases text : Text.ofUtf8? body with
      | some query =>
        exact .inl ⟨_, query, tail, .mk four size (size ▸ fits) text, by rw [List.cons_append, List.append_assoc]⟩
      | none =>
        rw [← List.append_assoc]
        exact .inr (.inl (.noText four size (size ▸ fits) text))
    · exact .inr (.inl (.tooLong four (Nat.lt_of_not_le fits)))
  · exact .inr (.inl (.tag tag))

/-! ## What the reader makes of them -/

/-- four bytes are a number, whichever they are -/
theorem frames_fourBytes {length : Bytes} (four : length.length = 4) : Frames readNumber length (ofBytes length) := by
  have small : ofBytes length < numberBound := by
    obtain ⟨a, b, c, d, rfl⟩ : ∃ a b c d, length = [a, b, c, d] := List.length_eq_four.1 four
    have := a.toNat_lt
    have := b.toNat_lt
    have := c.toNat_lt
    have := d.toNat_lt
    simp only [ofBytes, numberBound, List.foldr_cons, List.foldr_nil]
    omega
  have framed := frames_number small
  rwa [number_ofBytes four] at framed

/-- of a length within the cap the body decides, which may be none -/
theorem frames_readText {length body : Bytes} (four : length.length = 4) (size : ofBytes length = body.length)
    (fits : body.length ≤ maxTextBytes) : Frames readText (length ++ body) (Text.ofUtf8? body) := by
  refine (frames_fourBytes four).bind ?_
  rw [if_neg (Nat.not_lt.2 (size ▸ fits)), size]
  exact (frames_take body).bind_pure rfl

theorem frames_readText_tooLong {length : Bytes} (four : length.length = 4) (big : maxTextBytes < ofBytes length) :
    Frames readText length none := by
  refine (frames_fourBytes four).bind_pure ?_
  rw [if_pos big]

/-- behind the tag comes a text -/
theorem read_tagged (rest : Bytes) :
    read { unread := 1 :: rest } = require .invalidRequest readText { unread := rest } := by
  rw [read, bind_apply, readByte_cons rfl]
  rfl

theorem read_other {b : UInt8} (other : b ≠ 1) (rest : Bytes) :
    read { unread := b :: rest } = (.error .invalidRequest, { unread := rest }) := by
  rw [read, bind_apply, readByte_cons rfl]
  exact congrFun (if_neg other) _

theorem read_malformed {bytes : Bytes} (h : Malformed bytes) :
    (read { unread := bytes }).1 = .error .invalidRequest := by
  cases h with
  | tag other => rw [read_other other]
  | @tooLong length rest four big =>
    have refused : Refuses .invalidRequest (require .invalidRequest readText) (length ++ rest) :=
      (frames_readText_tooLong four big).require_refuses
    obtain ⟨left, failed⟩ := refused { unread := length ++ rest } [] (List.append_nil _).symm
    rw [read_tagged, failed]
  | @noText length body rest four size fits text =>
    have nothing := frames_readText four size fits
    rw [text] at nothing
    have refused : Refuses .invalidRequest (require .invalidRequest readText) (length ++ body ++ rest) :=
      nothing.require_refuses
    obtain ⟨left, failed⟩ := refused { unread := length ++ body ++ rest } [] (List.append_nil _).symm
    rw [read_tagged, failed]

theorem take_short {n : Nat} {s : Stream} (short : s.unread.length < n) :
    take n s = (.error s.shortage, s.leaving []) := by
  simp only [take, List.take_of_length_le short.le, List.drop_of_length_le short.le, if_pos short]
  rfl

/-- on what is incomplete the reader runs out of bytes -/
theorem read_incomplete {bytes : Bytes} (h : Incomplete bytes) :
    (read { unread := bytes }).1 = .error (.network .endOfStream) := by
  cases h with
  | nothing => rfl
  | @length length short =>
    have number : readNumber { unread := length } = (.error (.network .endOfStream), { unread := [] }) := by
      rw [readNumber, bind_apply, take_short short]
      rfl
    rw [read_tagged, require, bind_apply, readText, bind_apply, number]
  | @body length body four fits cut =>
    have number := (frames_fourBytes four).whole { unread := length ++ body } body rfl
    have short : (Stream.leaving { unread := length ++ body } body).unread.length < ofBytes length := cut
    rw [read_tagged, require, bind_apply, readText, bind_apply, number]
    dsimp only
    rw [if_neg (Nat.not_lt.2 fits), bind_apply, take_short short]
    rfl

end Request

/-! ## Serving -/

namespace Server
open Request

theorem firstRequest_frame {frame : Bytes} {query : String} (h : Frame frame query) (rest : Bytes) :
    firstRequest (frame ++ rest) = (.ok query, rest) := by
  obtain ⟨rfl, fits⟩ := frame_iff.1 h
  rw [firstRequest, (frames_request fits).whole { unread := Request.encode query ++ rest } rest rfl]
  rfl

theorem firstRequest_malformed {bytes : Bytes} (h : Malformed bytes) :
    (firstRequest bytes).1 = .error .invalidRequest := read_malformed h

theorem firstRequest_incomplete {bytes : Bytes} (h : Incomplete bytes) :
    (firstRequest bytes).1 = .error (.network .endOfStream) := read_incomplete h

/-- bytes that are malformed or incomplete do not begin with a frame -/
theorem no_frame {frame rest : Bytes} {query : String} (h : Frame frame query)
    (none : Malformed (frame ++ rest) ∨ Incomplete (frame ++ rest)) : False := by
  have first := congrArg Prod.fst (firstRequest_frame h rest)
  rcases none with malformed | incomplete
  · rw [firstRequest_malformed malformed] at first
    cases first
  · rw [firstRequest_incomplete incomplete] at first
    cases first

end Server

namespace Request
open Server

/-- all bytes are frames and a rest that does not begin with one -/
theorem exists_framed (bytes : Bytes) :
    ∃ queries tail, Framed queries tail bytes ∧ (Malformed tail ∨ Incomplete tail) := by
  induction size : bytes.length using Nat.strong_induction_on generalizing bytes with
  | _ n ih =>
    rcases begins bytes with ⟨frame, query, rest, framed, rfl⟩ | none
    · have shorter := firstRequest_length_lt (firstRequest_frame framed rest)
      obtain ⟨queries, tail, split, none⟩ := ih _ (size ▸ shorter) rest rfl
      exact ⟨query :: queries, tail, .frame framed split, none⟩
    · exact ⟨[], bytes, .rest bytes, none⟩

/-- frames up to a rest that does not begin with one are the longest sequence of frames -/
theorem Framed.longest {queries : List String} {tail bytes : Bytes} (h : Framed queries tail bytes)
    (none : Malformed tail ∨ Incomplete tail) {others : List String} {rest : Bytes} (h' : Framed others rest bytes) :
    others <+: queries := by
  induction h generalizing others rest with
  | rest bytes =>
    cases h' with
    | rest => exact List.prefix_rfl
    | frame other _ => exact (no_frame other none).elim
  | @frame frame behind tail query queries framed _ ih =>
    generalize whole : frame ++ behind = bytes at h'
    cases h' with
    | rest => exact List.nil_prefix
    | @frame frame' behind' _ query' others framed' more =>
      -- the reader takes one query and one rest off the bytes, so both splits begin alike
      have first := firstRequest_frame framed behind
      rw [whole, firstRequest_frame framed' behind'] at first
      cases first
      exact List.cons_prefix_cons.2 ⟨rfl, ih none more⟩

end Request

/-- the response to what a query came to -/
def Response.ofResult : Except Error Answer → Response
  | .ok answer => .ofAnswer answer
  | .error e => .ofError e

namespace Server
open Request

/-- the responses to what queries came to, one for each -/
def answers (results : List (Except Error Answer)) : Bytes := results.flatMap fun r => (Response.ofResult r).encode

variable {db : Database}

theorem respond_eq (query : String) : respond db query = Response.ofResult <$> (db.execute query).run := by
  rw [respond, map_eq_pure_bind]
  refine congrArg _ (funext fun result => ?_)
  cases result <;> rfl

/-- a frame is answered, and then the rest is served -/
theorem feed_frame {frame : Bytes} {query : String} (h : Frame frame query) (rest : Bytes) :
    feed db (frame ++ rest) = (do
      let result ← (db.execute query).run
      let (sent, link) ← feed db rest
      return ((Response.ofResult result).encode ++ sent, link)) := by
  have first := firstRequest_frame h rest
  rw [feed]
  split
  · rename_i query' rest' first'
    rw [first] at first'
    cases first'
    rw [respond_eq, map_eq_pure_bind, bind_assoc]
    simp only [pure_bind]
  · rename_i first'
    rw [first] at first'
    cases first'

theorem feed_malformed {bytes : Bytes} (h : Malformed bytes) :
    feed db bytes = pure ((Response.error 1 "invalid request binary format").encode, .closed) := by
  have first := firstRequest_malformed h
  rw [feed]
  split
  · rename_i first'
    rw [first'] at first
    cases first
  · rename_i first'
    rw [first'] at first
    cases first
    rfl

theorem feed_incomplete {bytes : Bytes} (h : Incomplete bytes) : feed db bytes = pure ([], .waiting bytes) := by
  have first := firstRequest_incomplete h
  rw [feed]
  split
  · rename_i first'
    rw [first'] at first
    cases first
  · rename_i first'
    rw [first'] at first
    cases first
    rfl

/-- frames are answered in their order, and then the rest is served -/
theorem feed_framed {queries : List String} {tail bytes : Bytes} (h : Framed queries tail bytes) :
    feed db bytes = (do
      let results ← db.executeAll queries
      let (sent, link) ← feed db tail
      return (answers results ++ sent, link)) := by
  induction h with
  | rest bytes =>
    rw [Database.executeAll, List.mapM_nil, pure_bind]
    exact (bind_pure _).symm
  | frame framed _ ih =>
    rw [feed_frame framed, ih, Database.executeAll_cons]
    simp only [bind_assoc, pure_bind, answers, List.flatMap_cons, List.append_assoc]

/-- **A connection is served frame by frame.** The bytes of a client split into the longest sequence of frames and a
rest. The queries of the frames are executed in their order, each once, and each is answered once, also with an error.
A malformed rest is answered with one error more, and the connection is closed; an incomplete one is waited for until
the client closes, and not answered. A frame is what a client sends for a query that is not too long. -/
theorem served_frame_by_frame (db : Database) (bytes : Bytes) :
    (∃ queries tail last link, Framed queries tail bytes
      ∧ (∀ others rest, Framed others rest bytes → others <+: queries)
      ∧ (Malformed tail ∧ last = (Response.error 1 "invalid request binary format").encode ∧ link = .closed
          ∨ Incomplete tail ∧ last = [] ∧ link = .waiting tail)
      ∧ feed db bytes = (fun results => (answers results ++ last, link)) <$> db.executeAll queries
      ∧ serve db bytes = (fun results => answers results ++ last) <$> db.executeAll queries)
      ∧ ∀ frame query, Frame frame query ↔ frame = Request.encode query ∧ query.utf8ByteSize ≤ maxTextBytes := by
  refine ⟨?_, fun frame query => frame_iff⟩
  obtain ⟨queries, tail, framed, none⟩ := exists_framed bytes
  obtain ⟨last, link, kind, fed⟩ : ∃ last link,
      (Malformed tail ∧ last = (Response.error 1 "invalid request binary format").encode ∧ link = .closed
        ∨ Incomplete tail ∧ last = [] ∧ link = .waiting tail)
      ∧ feed db tail = pure (last, link) := by
    rcases none with malformed | incomplete
    · exact ⟨_, _, .inl ⟨malformed, rfl, rfl⟩, feed_malformed malformed⟩
    · exact ⟨_, _, .inr ⟨incomplete, rfl, rfl⟩, feed_incomplete incomplete⟩
  have whole : feed db bytes = (fun results => (answers results ++ last, link)) <$> db.executeAll queries := by
    rw [feed_framed framed, fed, map_eq_pure_bind]
    simp only [pure_bind]
  refine ⟨queries, tail, last, link, framed, fun others rest => framed.longest none, kind, whole, ?_⟩
  rw [serve, whole, Functor.map_map]

end Server
end TableStore
