import GridSnapshot.Block
import GridSnapshot.RunMetadata

namespace GridSnapshot.GridFile

/-- The inverse of a spacing, zero for no spacing. -/
def inverse (d : Float) : Float := if d == 0.0 then 0.0 else 1.0 / d

def uniformInverse (m : PerAxis Nat) (spacing : PerAxis Float) : PerAxis (List Float) :=
  .ofFn fun a => List.replicate (m.get a) (inverse (spacing.get a))

def splitInverse (m : PerAxis Nat) (values : List Float) :
    Except RecordFault (PerAxis (List Float)) :=
  let expected := Word.wrap (m.x + m.y + m.z)
  if values.length ≠ expected then .error (.inverseCount values.length expected)
  else .ok ⟨values.take m.x, (values.drop m.x).take m.y, values.drop (m.x + m.y)⟩

/-- The fourth record, if the file has one. -/
def inverseRecord : Reading (Option Bytes) := do
  match ← Reading.next with
  | none => pure none
  | some _ => match ← Reading.next with
    | none => pure none
    | some _ => Reading.next

/-- The first record has the form of a coordinate record, the next two are of no use here, and the
fourth holds the inverse spacings of the cells. A file that ends before it has those of the nominal
spacings. -/
def read (p : Precision) (m : PerAxis Nat) : Reading (Grid Float) := do
  let values : Array Float ← Reading.reals "grid coordinates" p
  let c ← Reading.check (CoordinateRecord.ofValues m false values.toList)
  let inverse ← match ← inverseRecord with
    | none => pure (uniformInverse m c.spacing)
    | some payload =>
      let values : Array Float ← Reading.check (Record.reals p payload)
      Reading.check (splitInverse m values.toList)
  pure ⟨c.coords, c.spacing, inverse⟩

end GridSnapshot.GridFile
