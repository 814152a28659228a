/-
A client's side of one connection: a query is sent, a response is read, and what was received behind it stays for the
next one.
-/
import TableStore.Client.Print
import TableStore.Server

namespace TableStore

/-- the other side: a server, or a record of one that answers with bytes it has sent before -/
inductive Peer where
  | server (db : Database) (link : Server.Link)
  | recorded

structure Client where
  incoming : Bytes
  peer : Peer

namespace Client

/-- a client of a new connection to a server -/
def connect (db : Database) : Client := { incoming := [], peer := .server db (.waiting []) }

/-- send bytes; what the server sends back can then be read. A closed link and a record send nothing more -/
def send (c : Client) (bytes : Bytes) : Program Client := do
  match c.peer with
  | .server db (.waiting pending) =>
    let (sent, link) ← Server.feed db (pending ++ bytes)
    return { incoming := c.incoming ++ sent, peer := .server db link }
  | _ => return c

/-- the response to a query -/
def ask (c : Client) (query : String) : Program (Except Error Response × Client) := do
  let c ← c.send (Request.encode query)
  let (result, s) := Response.read { unread := c.incoming }
  return (result, { c with incoming := s.unread })

/-- what a query prints -/
def runQuery (c : Client) (format : Format) (query : String) : Program (Except ClientError Bytes × Client) := do
  let (result, c) ← c.ask query
  return (result.mapError .connection >>= Response.printed format, c)

end Client
end TableStore
