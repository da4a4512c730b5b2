import GridSnapshot.Record.Values
import GridSnapshot.Table

namespace GridSnapshot

inductive PersistentKind where
  | int
  | real
  deriving DecidableEq, Repr

def PersistentKind.name : PersistentKind → String
  | int => "Int"
  | real => "Real"

inductive PersistentValue (ω : Type) where
  | ints (values : List Int)
  | reals (values : List ω)

namespace PersistentValue

variable {ω : Type}

def kind : PersistentValue ω → PersistentKind
  | ints _ => .int
  | reals _ => .real

def length : PersistentValue ω → Nat
  | ints values => values.length
  | reals values => values.length

def isEmpty (v : PersistentValue ω) : Bool := v.length = 0

def first? [RingOps ω] : PersistentValue ω → Option ω
  | ints values => values.head?.map RingOps.ofInt
  | reals values => values.head?

end PersistentValue

abbrev Persistence (ω : Type) := Table String (PersistentValue ω)

namespace Persistence

/-- What a payload of a known id is called and holds. -/
structure RecordType where
  id : Int
  name : String
  kind : PersistentKind
  deriving DecidableEq, Repr

def recordTypes : List RecordType :=
  [⟨1, "random_seeds", .int⟩, ⟨100, "forcing_location", .real⟩, ⟨101, "forcing_tsforce", .real⟩,
   ⟨102, "forcing_cont_phase", .real⟩, ⟨200, "hydro_phase", .real⟩, ⟨201, "hydro_location", .real⟩,
   ⟨202, "hydro_tsforce", .real⟩, ⟨300, "shear_delta_y", .real⟩, ⟨400, "magnetic_phase", .real⟩,
   ⟨401, "magnetic_tsforce", .real⟩, ⟨500, "noentropy_forcing_phase", .real⟩,
   ⟨600, "testfield_t_reinit", .real⟩, ⟨601, "testfield_n_reinit", .int⟩,
   ⟨700, "particles_seed", .int⟩, ⟨800, "dustdensity_nuc", .real⟩]

def recordType? (id : Int) : Option RecordType := recordTypes.find? fun t => t.id = id

/-- The id that opens and closes the pairs. -/
def sentinel : Int := 2000

/-- How many pairs may stand in front of the closing id. -/
def pairLimit : Nat := 2000

def decodeValue (p : Precision) (kind : PersistentKind) (payload : Bytes) :
    Except RecordFault (PersistentValue Float) :=
  match kind with
  | .int => (Record.ints payload).map .ints
  | .real => (Record.reals p payload).map fun values => .reals values.toList

/-- Adds a payload under the name of its id; an unknown id adds nothing. -/
def addPayload (p : Precision) (id : Int) (payload : Bytes) (values : Persistence Float) :
    Except RecordFault (Persistence Float) :=
  match recordType? id with
  | none => .ok values
  | some t => (decodeValue p t.kind payload).map fun v => values.insert t.name v

def nextId : Reading (Option Int) := do
  match ← Reading.next with
  | none => pure none
  | some payload => some <$> Reading.check (Record.idNumber payload)

/-- Reads the payload of an id and what follows, up to the closing id or the end. -/
def readPairs (p : Precision) : Nat → Int → Persistence Float → Reading (Persistence Float)
  | 0, _, _ => throw (.unclosedPersistence pairLimit)
  | fuel + 1, id, values => do
    if id = sentinel then pure values
    else
      let payload ← Reading.payload "persistent payload"
      let values ← Reading.check (addPayload p id payload values)
      match ← nextId with
      | some next => readPairs p fuel next values
      | none => pure values

/-- Reads the persistent values that follow; there are none at the end of the bytes, and the
opening id may be left out. -/
def read (p : Precision) : Reading (Persistence Float) := do
  match ← nextId with
  | none => pure .empty
  | some id =>
    if id = sentinel then
      match ← nextId with
      | none => pure .empty
      | some id => readPairs p pairLimit id .empty
    else readPairs p pairLimit id .empty

end Persistence

end GridSnapshot
