import GridSnapshot.Axis
import GridSnapshot.Metadata.Fault
import GridSnapshot.Tensor

namespace GridSnapshot

inductive ContainerFault where
  | missing (entry : String)
  | emptyScalar (entry : String)
  deriving DecidableEq, Repr

def ContainerFault.message : ContainerFault → String
  | missing entry => s!"container entry '{entry}' not found"
  | emptyScalar entry => s!"container backend: '{entry}' is empty"

/-- Why parts of a run do not fit together. -/
inductive LayoutFault where
  | margins (extent : Nat) (axis : Axis)
  | beyondGlobal (position : Nat) (axis : Axis) (stop extent : Nat)
  | variableCount (block whole : Nat)
  | blockShape (shape : List Nat) (found : Nat)
  | nothingPlaced
  | noSubdomain
  | noContainer
  | containerShape (name : String) (shape expected : List Nat)
  /-- A range that ends before it starts or outside its array, where the program stops. -/
  | outOfRange
  deriving DecidableEq, Repr

/-- Why a number of values does not fill a shape. The cells of an array are counted by half of all
words. -/
def shapeError (shape : List Nat) (found : Nat) : String :=
  if 9223372036854775808 ≤ volume (shape.filter (· ≠ 0)) then
    "ShapeError/Overflow: arithmetic overflow"
  else if found < volume shape then "ShapeError/OutOfBounds: out of bounds indexing"
  else "ShapeError/IncompatibleShape: incompatible shapes"

def LayoutFault.message : LayoutFault → String
  | margins extent axis => s!"extent {extent} along {axis.name} is smaller than two ghost margins"
  | beyondGlobal position axis stop extent =>
    s!"processor {position} along {axis.name} reaches index {stop}, global extent is {extent}"
  | variableCount block whole => s!"block has {block} variables, global tensor has {whole}"
  | blockShape shape found => s!"block shape {shapeText shape}: " ++ shapeError shape found
  | nothingPlaced => "no subdomain was placed"
  | noSubdomain => "no subdomains to read"
  | noContainer => "no container file to read"
  | containerShape name shape expected =>
    s!"container field '{name}' has shape {shapeText shape}, expected {shapeText expected}"
  | outOfRange => ""

inductive UnsupportedFormat where
  | ioStrategy (tag : String)
  | noContainerBackend
  deriving DecidableEq, Repr

def UnsupportedFormat.message : UnsupportedFormat → String
  | ioStrategy tag => s!"I/O strategy '{tag}'"
  | noContainerBackend =>
    "container snapshot, but no container backend is available " ++
      "(build with the `hdf5` feature or supply a backend)"

inductive ReadFault where
  /-- A later snapshot was asked for before the run took its first step. -/
  | notStarted (requested : String)
  | fileNotFound (path : Path)
  | unsupported (format : UnsupportedFormat)
  | record (path : Path) (error : RecordFault)
  | container (path : Path) (error : ContainerFault)
  | metadata (error : MetadataFault)
  | file (path : Path) (fault : FileFault)
  | layout (fault : LayoutFault)
  | cancelled
  deriving DecidableEq, Repr

namespace ReadFault

def isNotStarted : ReadFault → Bool
  | notStarted _ => true
  | _ => false

/-- The program stops there, and nobody sees the fault. -/
def stops : ReadFault → Bool
  | record _ e => e.stops
  | metadata e => e.stops
  | layout .outOfRange => true
  | _ => false

/-- A snapshot file that is not there is not found; any other failure is one of its records. -/
def ofRecord (path : Path) : RecordFault → ReadFault
  | .file .missing => fileNotFound path
  | e => record path e

def message : ReadFault → String
  | notStarted requested => s!"run has not started: no output for snapshot {requested}"
  | fileNotFound path => s!"snapshot not found: {path.text}"
  | unsupported format => s!"unsupported snapshot format: {format.message}"
  | record path error => s!"{path.text}: {error.message}"
  | container path error => s!"{path.text}: {error.message}"
  | metadata error => s!"metadata: {error.message}"
  | file path _ => s!"{path.text}: I/O error"
  | layout fault => s!"subdomain layout: {fault.message}"
  | cancelled => "read cancelled"

def depth : ReadFault → Nat
  | record _ (.file _) => 2
  | metadata (.unreadable ..) => 2
  | record .. | container .. | metadata _ | file .. => 1
  | _ => 0

end ReadFault

end GridSnapshot
