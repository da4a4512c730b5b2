import GridSnapshot.GridFile
import GridSnapshot.Metadata.IndexFile
import GridSnapshot.Metadata.Namelist
import GridSnapshot.Metadata.Supplier

namespace GridSnapshot.MetadataFiles

def dimFileName : Resolution → String
  | .standard => "dim.dat"
  | .downsampled => "dim_down.dat"

def processorDir (n : Nat) : String := s!"proc{n}"

def text (t : FileTree) (p : Path) : Except MetadataFault String :=
  (t.readText p).mapError (.unreadable p)

def parseDims (p : Path) (text : String) : Except MetadataFault (Dimensions × PerAxis Nat) :=
  (DimFile.parse text).mapError fun fault => .unparsable p (.dims fault)

/-- The dimensions of the whole run; its file ends with the processor counts. -/
def wholeDims (t : FileTree) (dir : Path) (res : Resolution) : Except MetadataFault Dimensions := do
  let p := dir.join (dimFileName res)
  let (d, counts) ← parseDims p (← text t p)
  .ok { d with processors := counts }

/-- The parameters of a run; without a file they have their standard values. -/
def params (t : FileTree) (dir : Path) : Except MetadataFault (RunSettings Float) :=
  let p := dir.join "param.nml"
  match t.readText p with
  | .ok text => .ok (Namelist.params (Namelist.scan text))
  | .error .missing => .ok .standard
  | .error fault => .error (.unreadable p fault)

def run (t : FileTree) (dir : Path) (res : Resolution) :
    Except MetadataFault (RunMetadata Float) := do
  let dims ← wholeDims t dir res
  let index := IndexFile.parse (← text t (dir.join "index.pro"))
  .ok ⟨dims, ← params t dir, index⟩

/-- The dimensions of one processor's part; its file ends with the position in the processor grid,
and the processor counts are those of the whole run. -/
def processorDims (t : FileTree) (dir : Path) (n : Nat) (res : Resolution) :
    Except MetadataFault Dimensions := do
  let whole ← wholeDims t dir res
  let p := (dir.join (processorDir n)).join (dimFileName res)
  match t.readText p with
  | .error .missing => .error (.unknownProcessor n)
  | .error fault => .error (.unreadable p fault)
  | .ok text =>
    let (d, position) ← parseDims p text
    .ok { d with position := position, processors := whole.processors }

def readGrid (t : FileTree) (p : Path) (precision : Precision) (m : PerAxis Nat) :
    Except RecordFault (Grid Float) :=
  match t.read p with
  | .error fault => .error (.file fault)
  | .ok content => (GridFile.read precision m).decode content

def grid (t : FileTree) (dir : Path) (d : Dimensions) : Except MetadataFault (Grid Float) :=
  let p := dir.join "grid.dat"
  (readGrid t p d.precision d.extents).mapError fun
    | .file .missing => .noGrid p
    | e => .unparsable p (.grid e)

def supplier {σ : Type} (t : FileTree) : MetadataSupplier σ Float where
  runMetadata dir res := pure (run t dir res)
  processorDims dir n res := pure (processorDims t dir n res)
  grid dir d := pure (grid t dir d)

end GridSnapshot.MetadataFiles
