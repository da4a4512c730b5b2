import GridSnapshot.Bytes
import GridSnapshot.Record.Fault

namespace GridSnapshot

namespace Record

/-- The byte count, the payload, and the byte count again, each count a word of four bytes. -/
def frame (payload : Bytes) : Bytes :=
  Word.encode 4 payload.length ++ payload ++ Word.encode 4 payload.length

end Record

/-- The bytes not yet consumed, and how many records were read. -/
structure RecordStream where
  rest : Bytes
  count : Nat

/-- A step that may fail and in either case moves the reader. -/
abbrev Reading (α : Type) := ExceptT RecordFault (StateM RecordStream) α

namespace RecordStream

/-- The next payload, or none at the end of the bytes. -/
def next (r : RecordStream) : Except RecordFault (Option Bytes) × RecordStream :=
  let head := r.rest.take 4
  let rest := r.rest.drop 4
  if head.length = 0 then (.ok none, r)
  else if head.length < 4 then (.error (.shortMarker head.length), { r with rest := [] })
  else
    let length := Word.decode head
    let payload := rest.take length
    let rest := rest.drop length
    let tail := rest.take 4
    if payload.length < length then
      (.error (.shortPayload (r.count + 1) length), { r with rest := [] })
    else if tail.length < 4 then (.error .shortTrailer, { r with rest := [] })
    else if Word.decode tail ≠ length then
      (.error (.trailerMismatch length (Word.decode tail)), { r with rest := rest.drop 4 })
    else (.ok (some payload), ⟨rest.drop 4, r.count + 1⟩)

end RecordStream

namespace Reading

def next : Reading (Option Bytes) := ExceptT.mk fun r => r.next

/-- The next payload, where one has to come. -/
def payload (what : String) : Reading Bytes := do
  match ← next with
  | some bytes => pure bytes
  | none => throw (.missingRecord what)

def skip (what : String) : Reading Unit := do
  let _ ← payload what

/-- A step that does not look at the stream. -/
def check {α : Type} (e : Except RecordFault α) : Reading α := ExceptT.mk (pure e)

def decode {α : Type} (step : Reading α) (bytes : Bytes) : Except RecordFault α :=
  (step.run.run ⟨bytes, 0⟩).1

end Reading

end GridSnapshot
