/-
Reading JSON, byte by byte: the steps that all readers are made of.

A reader takes bytes off the front of what is left of a document. Where it stops, the fault stands either behind the
last byte taken or behind the next one, which is then the byte at fault. A loop takes a byte or more in every round, so
the size of the document bounds all loops.
-/
import TableStore.Json.Fault

namespace TableStore.Json

/-- why reading stopped, and how many bytes of the document stand behind the fault -/
structure Stop where
  cause : Cause
  left : Nat

/-- a reader, given the size of the whole document and the bytes that are left of it -/
abbrev Reading := ReaderT Nat (StateT Bytes (Except Stop))

namespace Reading

/-! ## Steps -/

/-- stop with a fault behind the bytes taken -/
def stop {α : Type} (cause : Cause) : Reading α := do throw ⟨cause, (← get).length⟩

/-- stop with a fault behind the next byte, or at the end -/
def stopNext {α : Type} (cause : Cause) : Reading α := do throw ⟨cause, (← get).length - 1⟩

/-- the next byte, which is left there -/
def next? : Reading (Option UInt8) := do return (← get).head?

/-- leave the next byte behind -/
def skip : Reading Unit := modify List.tail

/-- the next byte, which is taken -/
def take? : Reading (Option UInt8) := do
  let b ← next?
  skip
  return b

/-- the next bytes of a kind, which are taken -/
def takeWhile (p : UInt8 → Bool) : Reading Bytes := do
  let bytes ← get
  set (bytes.dropWhile p)
  return bytes.takeWhile p

/-- the next byte behind blanks, which is left there -/
def token? : Reading (Option UInt8) := do
  modify fun bytes => bytes.dropWhile isBlank
  next?

/-- the first byte of a value -/
def token : Reading UInt8 := do
  match ← token? with
  | some b => return b
  | none => stopNext .endInValue

/-- the letters that complete a word -/
def letters : Bytes → Reading Unit
  | [] => return
  | letter :: rest => do
    match ← take? with
    | none => stop .endInValue
    | some b => if b = letter then letters rest else stop .noWord

/-- a reader goes on with what the one before it left -/
theorem bind_apply {α β : Type} (first : Reading α) (next : α → Reading β) (size : Nat) (bytes : Bytes) :
    (first >>= next) size bytes = match first size bytes with
      | .ok (a, left) => next a size left
      | .error stop => .error stop := by
  simp only [Bind.bind, ReaderT.bind, StateT.bind, Except.bind]
  rcases first size bytes with _ | ⟨_, _⟩ <;> rfl

/-! ## Loops -/

/-- rounds that each begin with what the one before made of it, up to the one that has the result -/
def rounds {σ α : Type} (round : σ → Reading (σ ⊕ α)) : Nat → σ → Reading α
  | 0, _ => stop .endInValue
  | n + 1, s => do
    match ← round s with
    | .inl s => rounds round n s
    | .inr a => return a

/-- as many rounds as it takes; each but the last one must take a byte -/
def loop {σ α : Type} (round : σ → Reading (σ ⊕ α)) (start : σ) : Reading α := do
  rounds round ((← read) + 1) start

/-! ## Documents -/

/-- nothing but blanks may be left -/
def finish : Reading Unit := do
  if (← token?).isSome then stopNext .trailingBytes

/-- what a whole document holds -/
def document {α : Type} (reading : Reading α) (bytes : Bytes) : Except Fault α :=
  match (do let a ← reading; finish; return a : Reading α) bytes.length bytes with
  | .ok (a, _) => .ok a
  | .error stop => .error (.behind (bytes.take (bytes.length - stop.left)) stop.cause)

end Reading
end TableStore.Json
