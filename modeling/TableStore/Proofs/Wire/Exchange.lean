/-
A client and a server on one connection.

The server reads every query of at most the cap from the bytes that the client sends for it, answers it, and waits for
the next one with nothing pending (`Server.feed_request`). The client reads the response from what was left unread and
what the server sent (`Client.ask_eq`). So as long as all responses fit, none of them leaves anything unread and the two
sides stay in step (`Client.askAll_agrees`). The server does not look at the caps of the client's reader, though: its
messages quote the query, and the first one that is too long is refused (`Client.not_always_agree`).
-/
import TableStore.Client.Session
import TableStore.Proofs.Sql.Rendering
import TableStore.Proofs.Store.Placing
import TableStore.Proofs.Text.Sizes
import TableStore.Proofs.Wire.Responses

namespace TableStore
open Wire

namespace Server

/-- the responses to queries that are executed one after the other -/
def respondAll (db : Database) : List String → Program (List Response)
  | [] => return []
  | query :: rest => do
    let response ← respond db query
    return response :: (← respondAll db rest)

section RespondAll

variable {db : Database}

theorem run_respondAll_cons {d d' : Disk} {query : String} {r : Response} (h : (respond db query).run d = (r, d'))
    (rest : List String) :
    (respondAll db (query :: rest)).run d
      = (r :: ((respondAll db rest).run d').1, ((respondAll db rest).run d').2) := by
  rw [respondAll, Program.run_bind, h, Program.run_bind]
  rfl

theorem length_respondAll (queries : List String) (d : Disk) :
    ((respondAll db queries).run d).1.length = queries.length := by
  induction queries generalizing d with
  | nil => rfl
  | cons query rest ih =>
    rw [run_respondAll_cons rfl]
    exact congrArg Nat.succ (ih _)

end RespondAll

theorem frames_request {query : String} (short : query.utf8ByteSize ≤ maxTextBytes) :
    Frames Request.read (Request.encode query) query := by
  refine (frames_byte Request.queryTag).bind ?_
  rw [if_pos rfl]
  exact (Codec.text .invalidRequest).frames query short

theorem firstRequest_encode {query : String} (short : query.utf8ByteSize ≤ maxTextBytes) :
    firstRequest (Request.encode query) = (.ok query, []) := by
  have read := (frames_request short).whole { unread := Request.encode query } [] (List.append_nil _).symm
  rw [firstRequest, read]
  rfl

theorem feed_nil (db : Database) : feed db [] = pure ([], .waiting []) := by
  rw [feed]
  rfl

/-- one request is answered, and nothing of it is left -/
theorem feed_request (db : Database) {query : String} (short : query.utf8ByteSize ≤ maxTextBytes) :
    feed db (Request.encode query) = (fun response => (response.encode, .waiting [])) <$> respond db query := by
  have first := firstRequest_encode short
  rw [feed]
  split
  · rename_i query' rest first'
    rw [first] at first'
    cases first'
    simp only [feed_nil, pure_bind, List.append_nil, map_eq_pure_bind]
  · rename_i e rest first'
    rw [first] at first'
    cases first'

end Server

namespace Client

/-- the results of queries that are asked one after the other, each with what is left unread after it -/
def askAll (c : Client) : List String → Program (List (Except Error Response × Bytes))
  | [] => return []
  | query :: rest => do
    let (result, c) ← c.ask query
    return (result, c.incoming) :: (← askAll c rest)

/-- a client of a server that waits for a request, with some bytes unread -/
def waiting (db : Database) (incoming : Bytes) : Client := { incoming, peer := .server db (.waiting []) }

/-- an answer is read from what was left unread and what the server sends -/
theorem ask_eq (db : Database) (incoming : Bytes) {query : String} (short : query.utf8ByteSize ≤ maxTextBytes) :
    (waiting db incoming).ask query = (fun response =>
      let (result, s) := Response.read { unread := incoming ++ response.encode }
      (result, waiting db s.unread)) <$> Server.respond db query := by
  simp only [ask, send, waiting, List.nil_append, Server.feed_request db short, map_eq_pure_bind, bind_assoc,
    pure_bind]
  rfl

section Run

variable {db : Database} {d d' : Disk} {query : String} {r : Response}

theorem run_ask (short : query.utf8ByteSize ≤ maxTextBytes) (h : (Server.respond db query).run d = (r, d'))
    {incoming : Bytes} {result : Except Error Response} {s : Stream}
    (read : Response.read { unread := incoming ++ r.encode } = (result, s)) :
    ((waiting db incoming).ask query).run d = ((result, waiting db s.unread), d') := by
  rw [ask_eq db incoming short, Program.run_map, h, read]

/-- with nothing left unread before, a response that fits is read as a whole -/
theorem run_ask_fits (short : query.utf8ByteSize ≤ maxTextBytes) (h : (Server.respond db query).run d = (r, d'))
    (fits : r.Fits) : ((waiting db []).ask query).run d = ((.ok r, waiting db []), d') := by
  have read := (Response.codec.frames r fits).whole { unread := r.encode } [] (List.append_nil _).symm
  exact run_ask (s := { unread := [] }) short h read

/-- and one that does not is refused -/
theorem run_ask_refused (short : query.utf8ByteSize ≤ maxTextBytes) (h : (Server.respond db query).run d = (r, d'))
    (sized : r.Sized) (wrong : ¬ r.Fits) :
    ∃ rest, ((waiting db []).ask query).run d = ((.error .invalidResponse, waiting db rest), d') := by
  obtain ⟨rest, read⟩ := Response.codec.refuses r sized wrong { unread := r.encode } [] (List.append_nil _).symm
  exact ⟨rest, run_ask (s := { unread := rest }) short h read⟩

theorem run_askAll_cons {c c' : Client} {result : Except Error Response}
    (h : (c.ask query).run d = ((result, c'), d')) (rest : List String) :
    (c.askAll (query :: rest)).run d
      = ((result, c'.incoming) :: ((c'.askAll rest).run d').1, ((c'.askAll rest).run d').2) := by
  rw [askAll, Program.run_bind, h, Program.run_bind]
  rfl

theorem length_askAll (c : Client) (queries : List String) (d : Disk) :
    ((c.askAll queries).run d).1.length = queries.length := by
  induction queries generalizing c d with
  | nil => rfl
  | cons query rest ih =>
    rw [run_askAll_cons rfl]
    exact congrArg Nat.succ (ih _ _)

end Run

/-- whatever the client makes of the responses, the server executes all queries -/
theorem run_askAll_left (db : Database) (incoming : Bytes) {queries : List String}
    (short : ∀ query ∈ queries, query.utf8ByteSize ≤ maxTextBytes) (d : Disk) :
    (((waiting db incoming).askAll queries).run d).2 = ((Server.respondAll db queries).run d).2 := by
  induction queries generalizing incoming d with
  | nil => rfl
  | cons query rest ih =>
    have asked : ((waiting db incoming).ask query).run d = _ := run_ask (short query List.mem_cons_self) rfl rfl
    rw [run_askAll_cons asked, Server.run_respondAll_cons rfl]
    exact ih _ (fun q mem => short q (List.mem_cons_of_mem _ mem)) _

/-- while all responses fit, each is read and leaves nothing; the first that does not fit is refused -/
theorem askAll_in_step (db : Database) {queries : List String}
    (short : ∀ query ∈ queries, query.utf8ByteSize ≤ maxTextBytes) (d : Disk) {i : Nat} {r : Response}
    (responded : ((Server.respondAll db queries).run d).1[i]? = some r)
    (before : ∀ earlier ∈ ((Server.respondAll db queries).run d).1.take i, earlier.Fits) :
    (r.Fits → (((connect db).askAll queries).run d).1[i]? = some (.ok r, []))
      ∧ (r.Sized → ¬ r.Fits →
          ∃ rest, (((connect db).askAll queries).run d).1[i]? = some (.error .invalidResponse, rest)) := by
  induction queries generalizing d i with
  | nil => cases responded
  | cons query rest ih =>
    obtain ⟨⟨first, d'⟩, answered⟩ : ∃ out, (Server.respond db query).run d = out := ⟨_, rfl⟩
    have here := short query List.mem_cons_self
    have later : ∀ q ∈ rest, q.utf8ByteSize ≤ maxTextBytes := fun q mem => short q (List.mem_cons_of_mem _ mem)
    rw [Server.run_respondAll_cons answered] at responded before
    cases i with
    | zero =>
      cases responded
      refine ⟨fun fits => ?_, fun sized wrong => ?_⟩
      · rw [connect, ← waiting, run_askAll_cons (run_ask_fits here answered fits)]
        rfl
      · obtain ⟨left, asked⟩ := run_ask_refused here answered sized wrong
        refine ⟨left, ?_⟩
        rw [connect, ← waiting, run_askAll_cons asked]
        rfl
    | succ i =>
      have fits : first.Fits := before first (by simp)
      rw [connect, ← waiting, run_askAll_cons (run_ask_fits here answered fits)]
      exact ih later d' responded fun earlier mem => before earlier (List.mem_cons_of_mem _ mem)

/-- **Client and server agree, up to the caps of the client's reader.** Of queries that the server's reader takes, asked
one after the other, each is executed on what the ones before it leave. As long as all responses fit, each is read
back, with nothing of it left unread; the first one that does not is refused. -/
theorem askAll_agrees (db : Database) (d : Disk) (queries : List String)
    (short : ∀ query ∈ queries, query.utf8ByteSize ≤ maxTextBytes) :
    ∃ responses results left, (Server.respondAll db queries).run d = (responses, left)
      ∧ ((connect db).askAll queries).run d = (results, left)
      ∧ responses.length = queries.length ∧ results.length = queries.length
      ∧ ∀ i r, responses[i]? = some r → (∀ earlier ∈ responses.take i, earlier.Fits) →
          (r.Fits → results[i]? = some (.ok r, []))
            ∧ (r.Sized → ¬ r.Fits → ∃ rest, results[i]? = some (.error .invalidResponse, rest)) := by
  refine ⟨_, _, _, rfl, Prod.ext rfl (run_askAll_left db [] short d), Server.length_respondAll queries d,
    length_askAll _ queries d, ?_⟩
  intro i r responded before
  exact askAll_in_step db short d responded before

end Client

/-! ## A select of a table that is not there -/

/-- what a select of an unknown table fails with; the message quotes the name -/
def Error.unknownTable (name : String) : Error :=
  .inContext "execute select statement" (.inContext "compute select result" (.tableNotFound name))

/-- letters make a name if there are more of them than in any keyword -/
theorem IsName.of_letters {name : String} (letters : name.toList.all Char.isAlpha) (long : 6 < name.toList.length) :
    IsName name := by
  rw [List.all_eq_true] at letters
  have ne : name.toList ≠ [] := by
    intro nil
    simp [nil] at long
  refine ⟨ne, ?_, ?_, ?_⟩
  · intro c mem
    rw [Lexer.isWordChar, Char.isAlphanum, letters c mem, Bool.true_or]
  · intro k spelled
    have short : k.spelling.toList.length ≤ 6 := by
      cases k <;> decide
    rw [← spelled, List.length_map] at short
    omega
  · intro n _ numeral
    obtain ⟨c, mem⟩ := List.exists_mem_of_ne_nil _ ne
    exact Lexer.not_isDigit_of_isAlpha (letters c mem) (numeral.isDigit c mem)

/-- a store without tables answers a select with an error, and stays as it is -/
theorem Server.respond_unknown {o : Options} {catalog tablespace : Site} {content : Option (Keyed (List Row))}
    {db : Database} {d : Disk} (stored : Stored o catalog tablespace d [] content)
    (opened : db.tables.IsOpen o catalog tablespace) {name : String} (isName : IsName name) :
    (Server.respond db ("select * from " ++ name)).run d = (.ofError (.unknownTable name), d) := by
  have refused := Tables.run_select_missing stored opened ⟨.all, name, none, none, none, none⟩ rfl
  have failed : (db.execute ("select * from " ++ name)).run.run d = (.error (.unknownTable name), d) := by
    rw [Database.run_execute_ok (parse_selectAll isName)]
    exact run_inContext_error (DataFile.run_then_error refused _) _
  rw [Server.respond, Program.run_bind, failed]
  rfl

/-- a new store on an empty disk, with the usual names -/
theorem Database.run_openWith_empty :
    Tables.Fresh {} {} ∧ ∃ db d catalog tablespace, (Database.openWith {}).run.run {} = (.ok db, d)
      ∧ db.tables.IsOpen {} catalog tablespace ∧ Stored {} catalog tablespace d [] none := by
  obtain ⟨catalog, tablespace, t, d, made, opened, stored⟩ :=
    Tables.run_openWith_unused Tables.fresh_default.unused
  exact ⟨Tables.fresh_default, ⟨t⟩, d, catalog, tablespace, (DataFile.run_then made _).trans rfl, opened, stored⟩

theorem utf8ByteSize_replicate (n : Nat) : (String.ofList (List.replicate n 'a')).utf8ByteSize = n :=
  (Text.utf8ByteSize_ofList_replicate n 'a').trans (Nat.mul_one n)

/-- the longest name that a query of this form can have -/
def longestName : String := String.ofList (List.replicate (maxTextBytes - 14) 'a')

theorem utf8ByteSize_selectAll (name : String) : ("select * from " ++ name).utf8ByteSize = 14 + name.utf8ByteSize := by
  rw [String.utf8ByteSize_append]
  rfl

theorem message_unknownTable (name : String) :
    (Error.unknownTable name).message = "execute select statement" ++ ": "
      ++ ("compute select result" ++ ": " ++ ("table '" ++ name ++ "' not found")) := rfl

theorem utf8ByteSize_unknownTable (name : String) :
    (Error.unknownTable name).message.utf8ByteSize = 67 + name.utf8ByteSize := by
  have outer : "execute select statement".utf8ByteSize = 24 := rfl
  have inner : "compute select result".utf8ByteSize = 21 := rfl
  have colon : ": ".utf8ByteSize = 2 := rfl
  have front : "table '".utf8ByteSize = 7 := rfl
  have back : "' not found".utf8ByteSize = 11 := rfl
  rw [message_unknownTable]
  simp only [String.utf8ByteSize_append]
  rw [outer, inner, colon, front, back]
  omega

namespace Client

/-- a short name is told back: one exchange with a new store -/
theorem askAll_agrees_unknown :
    (∀ query ∈ ["select * from invoices"], query.utf8ByteSize ≤ maxTextBytes)
      ∧ ∃ db d, (Database.openWith {}).run.run {} = (.ok db, d)
        ∧ (((connect db).askAll ["select * from invoices"]).run d).1
          = [(.ok (.ofError (.unknownTable "invoices")), [])] := by
  have short : ∀ query ∈ ["select * from invoices"], query.utf8ByteSize ≤ maxTextBytes := by
    decide
  obtain ⟨-, db, d, _, _, made, opened, stored⟩ := Database.run_openWith_empty
  have isName : IsName "invoices" := .of_letters (by decide) (by decide)
  have answered : (Server.respondAll db ["select * from invoices"]).run d
      = ([.ofError (.unknownTable "invoices")], d) :=
    Server.run_respondAll_cons (Server.respond_unknown stored opened isName) []
  have fits : (Response.ofError (.unknownTable "invoices")).Fits := by
    rw [Response.Fits, Response.ofError, Response.within_error, utf8ByteSize_unknownTable]
    decide
  obtain ⟨responses, results, left, responded, asked, -, one, agree⟩ := askAll_agrees db d _ short
  rw [answered] at responded
  cases responded
  have first := (agree 0 _ rfl (by simp)).1 fits
  refine ⟨short, db, d, made, ?_⟩
  rw [asked]
  obtain ⟨result, rfl⟩ := List.length_eq_one_iff.1 one
  exact congrArg (fun r => [r]) (Option.some.inj first)

/-- **Not all responses are read back.** The server's reader takes the query, and the client's refuses the response. -/
theorem not_always_agree :
    ¬ ∀ (o : Options) (new d : Disk) (db : Database) (queries : List String), Tables.Fresh o new →
        (Database.openWith o).run.run new = (.ok db, d) → (∀ query ∈ queries, query.utf8ByteSize ≤ maxTextBytes) →
        (((connect db).askAll queries).run d).1
          = ((Server.respondAll db queries).run d).1.map fun r => (.ok r, []) := by
  intro agree
  obtain ⟨fresh, db, d, _, _, made, opened, stored⟩ := Database.run_openWith_empty
  -- the query has as many bytes as the server takes, and the message that quotes its name has more
  have size : longestName.utf8ByteSize = maxTextBytes - 14 := utf8ByteSize_replicate _
  have isName : IsName longestName := by
    refine .of_letters ?_ ?_
    · rw [longestName, String.toList_ofList, List.all_replicate]
      decide
    · rw [longestName, String.toList_ofList, List.length_replicate]
      decide
  have short : ∀ query ∈ ["select * from " ++ longestName], query.utf8ByteSize ≤ maxTextBytes := by
    intro query mem
    rw [List.mem_singleton.1 mem, utf8ByteSize_selectAll, size]
    decide
  have wrong : ¬ (Response.ofError (.unknownTable longestName)).Fits := by
    rw [Response.Fits, Response.ofError, Response.within_error, utf8ByteSize_unknownTable, size]
    decide
  have sized : (Response.ofError (.unknownTable longestName)).Sized := by
    rw [Response.Sized, Response.ofError, Response.within_error, utf8ByteSize_unknownTable, size]
    decide
  have answered := Server.respond_unknown stored opened isName
  have said := agree {} {} d db _ fresh made short
  obtain ⟨rest, refused⟩ := run_ask_refused (short _ (List.mem_singleton_self _)) answered sized wrong
  rw [connect, ← waiting, run_askAll_cons refused, Server.run_respondAll_cons answered] at said
  cases said

end Client
end TableStore
