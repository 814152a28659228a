/-
Requests: a byte that says what is asked for (a query is all there is), and the text of the query.
-/
import TableStore.Wire.Stream

namespace TableStore.Request

/-- the byte in front of a query -/
def queryTag : UInt8 := 1

def encode (query : String) : Bytes := queryTag :: Wire.text query

/-- the query of the next request -/
def read : Reader String := do
  if (← Wire.readByte) = queryTag then Wire.require .invalidRequest Wire.readText
  else throw .invalidRequest

/-- reading a request takes its first byte, and maybe more -/
theorem read_cons (b : UInt8) (rest : Bytes) : (read { unread := b :: rest }).2.unread <:+ rest := by
  rw [read, Wire.bind_apply, Wire.readByte_cons rfl]
  by_cases h : b = queryTag
  · simpa [h] using Wire.OnlyTakes.require _ Wire.OnlyTakes.readText { unread := rest }
  · simpa [h] using Wire.OnlyTakes.throw _ { unread := rest }

end TableStore.Request
