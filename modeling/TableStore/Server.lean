/-
A server's side of one connection.

Requests are answered one by one, in order; a query that fails is answered with its error and does not end the
connection. A request that is malformed is answered with one error, and then the connection is closed, whatever bytes
follow. Bytes that are the beginning of a request wait for the rest of it.
-/
import TableStore.Wire.Request
import TableStore.Wire.Response

namespace TableStore.Server

/-- the response to a query -/
def respond (db : Database) (query : String) : Program Response := do
  match ← (db.execute query).run with
  | .ok answer => return .ofAnswer answer
  | .error e => return .ofError e

/-- a connection after the bytes that came: waiting for the rest of a request, or closed -/
inductive Link where
  | waiting (pending : Bytes)
  | closed

/-- the request at the start of some bytes, or why there is none, and the bytes that are left -/
def firstRequest (bytes : Bytes) : Except Error String × Bytes :=
  let outcome := Request.read { unread := bytes }
  (outcome.1, outcome.2.unread)

/-- the bytes behind a request are fewer than those with it -/
theorem firstRequest_length_lt {bytes rest : Bytes} {query : String} (h : firstRequest bytes = (.ok query, rest)) :
    rest.length < bytes.length := by
  simp only [firstRequest, Prod.mk.injEq] at h
  obtain ⟨hq, rfl⟩ := h
  cases bytes with
  | nil =>
    rw [Request.read, Wire.bind_apply, Wire.readByte_nil rfl] at hq
    cases hq
  | cons b rest =>
    have := (Request.read_cons b rest).length_le
    simp only [List.length_cons]
    omega

/-- serve the requests that some bytes hold: the bytes sent, and the connection after them -/
def feed (db : Database) (bytes : Bytes) : Program (Bytes × Link) :=
  match _h : firstRequest bytes with
  | (.ok query, rest) => do
    let response ← respond db query
    let (sent, link) ← feed db rest
    return (response.encode ++ sent, link)
  | (.error e, _) =>
    if e.isClosed then return ([], .waiting bytes)
    else return ((Response.ofError e).encode, .closed)
termination_by bytes.length
decreasing_by exact firstRequest_length_lt _h

/-- all that is sent on a connection on which a client sends these bytes and closes it -/
def serve (db : Database) (bytes : Bytes) : Program Bytes := (·.1) <$> feed db bytes

end TableStore.Server
