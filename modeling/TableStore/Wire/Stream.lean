/-
The byte stream between client and server, and what both sides put on it: numbers in little-endian order, texts and
lists with their length in front.

A reader takes bytes off a stream; a read that cannot be satisfied takes all that are left and fails. Lengths above the
caps are refused before anything behind them is read.
-/
import TableStore.Error
import TableStore.Text.Bytes

namespace TableStore

/-- one end of a connection: the bytes to be read, the fault behind them (none is the end of the stream), and the bytes
written; the fault is also that of every write -/
structure Stream where
  unread : Bytes
  ending : Option Fault := none
  written : Bytes := []

abbrev Reader := ExceptT Error (StateM Stream)

namespace Wire

/-- the most bytes of a text that is read -/
def maxTextBytes : Nat := 1048576

/-- the most items of a list that is read -/
def maxItems : Nat := 1048576

/-! ## Writing -/

/-- a number in four bytes; what is beyond them is lost -/
def number (n : Nat) : Bytes :=
  [n.toUInt8, (n / 256).toUInt8, (n / 65536).toUInt8, (n / 16777216).toUInt8]

def text (s : String) : Bytes := number s.utf8ByteSize ++ Text.utf8 s

def texts (ss : List String) : Bytes := number ss.length ++ ss.flatMap text

/-- put bytes on the stream; a write of no bytes does not touch it and cannot fail -/
def write (bytes : Bytes) : Reader Unit := do
  if bytes.isEmpty then return
  match (← get).ending with
  | some fault => throw (.network fault)
  | none => modify fun s => { s with written := s.written ++ bytes }

/-! ## Reading -/

/-- the next `n` bytes -/
def take (n : Nat) : Reader Bytes := fun s =>
  let taken := s.unread.take n
  let result := if taken.length < n then .error (.network (s.ending.getD .endOfStream)) else .ok taken
  (result, { s with unread := s.unread.drop n })

/-- the number that bytes write, the lowest first -/
def ofBytes (bytes : Bytes) : Nat := bytes.foldr (fun b n => b.toNat + 256 * n) 0

def readByte : Reader UInt8 := do
  return (← take 1).headD 0

def readNumber : Reader Nat := do
  return ofBytes (← take 4)

/-- a text; none if it is longer than the cap (its bytes are left unread) or no UTF-8 -/
def readText : Reader (Option String) := do
  let n ← readNumber
  if n > maxTextBytes then return none
  return Text.ofUtf8? (← take n)

/-- the number of items to come; none if it is above the cap -/
def readCount : Reader (Option Nat) := do
  let n ← readNumber
  return if n > maxItems then none else some n

/-- what was read, or the error if it is not there -/
def require {α : Type} (e : Error) (read : Reader (Option α)) : Reader α := do
  match ← read with
  | some a => return a
  | none => throw e

/-- `n` items, behind those already read (the latest first) -/
def manyAfter {α : Type} (item : Reader α) : Nat → List α → Reader (List α)
  | 0, read => return read.reverse
  | n + 1, read => do
    let a ← item
    manyAfter item n (a :: read)

/-! ## Readers only take -/

/-- a reader goes on with what the one before it left -/
theorem bind_apply {α β : Type} (read : Reader α) (next : α → Reader β) (s : Stream) :
    (read >>= next) s = match read s with
      | (.ok a, s) => next a s
      | (.error e, s) => (.error e, s) := by
  simp only [Bind.bind, ExceptT.bind, ExceptT.mk, StateT.bind, ExceptT.bindCont]
  rcases read s with ⟨_ | _, _⟩ <;> rfl

/-- what a reader leaves unread is an end of what was there -/
def OnlyTakes {α : Type} (read : Reader α) : Prop := ∀ s, (read s).2.unread <:+ s.unread

theorem OnlyTakes.pure {α : Type} (a : α) : OnlyTakes (Pure.pure a) := fun _ => List.suffix_rfl

theorem OnlyTakes.throw {α : Type} (e : Error) : OnlyTakes (MonadExcept.throw e : Reader α) :=
  fun _ => List.suffix_rfl

theorem OnlyTakes.take (n : Nat) : OnlyTakes (take n) := fun _ => List.drop_suffix _ _

theorem OnlyTakes.bind {α β : Type} {read : Reader α} {next : α → Reader β} (h : OnlyTakes read)
    (hn : ∀ a, OnlyTakes (next a)) : OnlyTakes (read >>= next) := by
  intro s
  have hs := h s
  rw [bind_apply]
  rcases hr : read s with ⟨_ | a, s'⟩
  · rwa [hr] at hs
  · rw [hr] at hs
    exact (hn a s').trans hs

theorem OnlyTakes.readText : OnlyTakes readText := by
  refine .bind (.bind (.take 4) fun _ => .pure _) fun n => ?_
  by_cases h : n > maxTextBytes
  · simpa [h] using OnlyTakes.pure none
  · simpa [h] using OnlyTakes.bind (.take n) fun _ => .pure _

theorem OnlyTakes.require {α : Type} (e : Error) {read : Reader (Option α)} (h : OnlyTakes read) :
    OnlyTakes (require e read) :=
  .bind h fun
    | some a => .pure a
    | none => .throw e

theorem readByte_cons {b : UInt8} {rest : Bytes} {s : Stream} (h : s.unread = b :: rest) :
    readByte s = (.ok b, { s with unread := rest }) := by
  simp only [readByte, bind_apply, take, h]
  rfl

theorem readByte_nil {s : Stream} (h : s.unread = []) :
    readByte s = (.error (.network (s.ending.getD .endOfStream)), s) := by
  obtain ⟨unread, ending, written⟩ := s
  cases h
  rfl

end Wire
end TableStore
