import GridSnapshot.Axis
import GridSnapshot.Bytes
import GridSnapshot.FileFault

namespace GridSnapshot

/-- Why a stream of records could not be decoded. -/
inductive RecordFault where
  | shortMarker (got : Nat)
  | shortPayload (record length : Nat)
  | shortTrailer
  | missingRecord (what : String)
  | trailerMismatch (leading trailing : Nat)
  | partialReals (width length : Nat)
  | partialInts (length : Nat)
  | idWidth (length : Nat)
  | coordinateCount (found expected : Nat) (extents : PerAxis Nat) (shear : Bool)
  | tensorCount (found vars cells : Nat)
  | inverseCount (found expected : Nat)
  | unclosedPersistence (limit : Nat)
  | file (fault : FileFault)
  /-- A list is cut behind its end, where the program stops. -/
  | outOfRange
  deriving DecidableEq, Repr

namespace RecordFault

/-- The stream ended too early, the stream disagrees with its format, or there is no stream. -/
inductive Kind where
  | unexpectedEnd
  | malformed
  | file
  deriving DecidableEq, Repr

def kind : RecordFault → Kind
  | shortMarker _ | shortPayload .. | shortTrailer | missingRecord _ => .unexpectedEnd
  | file _ => .file
  | _ => .malformed

/-- The program stops there, and nobody sees the fault. -/
def stops : RecordFault → Bool
  | outOfRange => true
  | _ => false

/-- The count that a malformed record is reported with. -/
def count? : RecordFault → Option Nat
  | trailerMismatch _ trailing => some trailing
  | partialReals _ length | partialInts length | idWidth length => some length
  | coordinateCount found .. | tensorCount found .. | inverseCount found _ => some found
  | unclosedPersistence limit => some limit
  | _ => none

def markerBytes : Nat := 4

def detail : RecordFault → String
  | shortMarker got => s!"truncated record marker: got {got} of {markerBytes} bytes"
  | shortPayload record length =>
    s!"record {record} declares {length} bytes but the stream ended early"
  | shortTrailer => "failed to fill whole buffer"
  | missingRecord what => s!"expected {what} record"
  | trailerMismatch leading trailing =>
    s!"trailing marker {trailing} does not match leading marker {leading}"
  | partialReals width _ => s!"payload is not a whole number of {width}-byte reals"
  | partialInts _ => "payload is not a whole number of 4-byte integers"
  | idWidth _ => "id record is neither i16 nor i32"
  | coordinateCount found expected m shear =>
    s!"coordinate record has {found} values, expected {expected} for {m.x}x{m.y}x{m.z}" ++
      if shear then " with shear" else ""
  | tensorCount found vars cells =>
    s!"field tensor has {found} elements, expected {vars} vars x {cells} cells = " ++
      toString (Word.wrap (vars * cells))
  | inverseCount found expected =>
    s!"inverse-spacing record has {found} values, expected {expected}"
  | unclosedPersistence _ => "persistence block has no sentinel"
  | file _ | outOfRange => ""

def message (e : RecordFault) : String :=
  match e.kind, e.count? with
  | .unexpectedEnd, _ => "unexpected end of file: " ++ e.detail
  | .file, _ => "I/O error"
  | .malformed, count => s!"malformed record ({count.getD 0}): " ++ e.detail

end RecordFault

end GridSnapshot
