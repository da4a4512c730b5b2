import GridSnapshot.Assembly
import GridSnapshot.CellPattern
import GridSnapshot.Decimal.Shortest
import GridSnapshot.Metadata.Files
import GridSnapshot.Storage

namespace GridSnapshot

/-- A run made up from a rule for the value of each cell. -/
structure RunRecipe where
  /-- Interior cells along each axis. -/
  cells : PerAxis Nat
  /-- Ghost cells on each side of each axis. -/
  ghost : Nat
  processors : PerAxis Nat
  precision : Precision
  evolved : List String
  auxiliary : List String
  writesAuxiliary : Bool
  twoDimensional : Bool
  collective : Bool
  shearOffset : Option Binary64
  ioStrategy : Option String
  coordinates : CoordinateSystem
  eos : EquationOfState Float
  persistence : List (Int × PersistentValue Binary64)
  time : Binary64
  fileName : String
  /-- Whether the run took its first step. -/
  started : Bool
  writesGrid : Bool
  spacing : PerAxis Binary64
  values : Nat → Nat → Nat → Nat → Float

namespace RunRecipe

/-- A run of one processor with three ghost cells and no fields. -/
def standard (cells : PerAxis Nat) : RunRecipe where
  cells := cells
  ghost := 3
  processors := .uniform 1
  precision := .double
  evolved := []
  auxiliary := []
  writesAuxiliary := false
  twoDimensional := false
  collective := false
  shearOffset := none
  ioStrategy := some "dist"
  coordinates := .cartesian
  eos := .standard
  persistence := []
  time := 0.0
  fileName := "var.dat"
  started := true
  writesGrid := false
  spacing := ⟨0.1, 0.2, 0.3⟩
  values := CellPattern.positional.value

/-- Splits the run among processors, whose counts have to divide the cells. -/
def split? (r : RunRecipe) (p : PerAxis Nat) : Option RunRecipe :=
  if Axis.all.all fun a => p.get a ≠ 0 ∧ r.cells.get a % p.get a = 0 then
    some { r with processors := p }
  else none

def groupNames (stem : String) (groups : Nat) : List String :=
  (List.range (3 * groups)).map fun i => s!"{stem}{i + 1}"

def dims (r : RunRecipe) (cells position : PerAxis Nat) : Dimensions where
  extents := cells.map fun n => n + 2 * r.ghost
  ghosts := .uniform r.ghost
  evolved := r.evolved.length
  auxiliary := r.auxiliary.length
  precision := r.precision
  processors := r.processors
  position := position

def wholeDims (r : RunRecipe) : Dimensions := r.dims r.cells (.uniform 0)

def partCells (r : RunRecipe) : PerAxis Nat :=
  .ofFn fun a => r.cells.get a / r.processors.get a

def partDims (r : RunRecipe) (position : PerAxis Nat) : Dimensions := r.dims r.partCells position

/-- Processors are numbered with x fastest. -/
def processorNumber (r : RunRecipe) (p : PerAxis Nat) : Nat :=
  p.x + r.processors.x * (p.y + r.processors.y * p.z)

/-- All places in the processor grid, in the order of the processor numbers. -/
def positions (r : RunRecipe) : List (PerAxis Nat) :=
  (List.range r.processors.z).flatMap fun z =>
    (List.range r.processors.y).flatMap fun y =>
      (List.range r.processors.x).map fun x => ⟨x, y, z⟩

def layout (r : RunRecipe) : StoredAxes := .ofOutput r.twoDimensional r.wholeDims

def slotCount (r : RunRecipe) : Nat := r.wholeDims.slotCount r.writesAuxiliary

/-- Slots count from one, evolved fields first; a repeated name has its last slot. -/
def index (r : RunRecipe) : SlotIndex :=
  .ofList ((r.evolved ++ r.auxiliary).mapIdx fun i name => (name, i + 1))

def params (r : RunRecipe) : RunSettings Float where
  ioStrategy := r.ioStrategy
  collective := r.collective
  writesAuxiliary := r.writesAuxiliary
  twoDimensional := r.twoDimensional
  shear := r.shearOffset.isSome
  coordinates := r.coordinates
  eos := r.eos

def metadata (r : RunRecipe) : RunMetadata Float := ⟨r.wholeDims, r.params, r.index⟩

/-- Cells lie at half spacings, and the first interior cell is half a spacing from the origin. -/
def wholeCoords (r : RunRecipe) : PerAxis (List Binary64) :=
  .ofFn fun a => (List.range (r.wholeDims.extent a)).map fun i =>
    .ofFloat (Float.ofNat i - Float.ofNat r.ghost + 0.5) * r.spacing.get a

/-- Where a cell lies in the whole grid, from its index in a part that starts at the given offset.
Along a dropped axis it is the first interior cell. -/
def position (r : RunRecipe) (offset : PerAxis Nat) (idx : List Nat) : PerAxis Nat :=
  .ofFn fun a => match idx[r.layout.axes.idxOf a]? with
    | some i => offset.get a + i
    | none => r.ghost

def tensor (r : RunRecipe) (d : Dimensions) (offset : PerAxis Nat) : Tensor Float :=
  Tensor.ofFn (r.layout.shape r.slotCount d) fun idx =>
    let p := r.position offset idx.tail
    r.values (idx.headD 0) p.x p.y p.z

/-- The values of the whole run, as a complete read gives them. -/
def wholeTensor (r : RunRecipe) : Tensor Float := r.tensor r.wholeDims (.uniform 0)

def coordRecord (r : RunRecipe) (d : Dimensions) (offset : PerAxis Nat) :
    CoordinateRecord Binary64 where
  time := r.time
  coords := .ofFn fun a => ((r.wholeCoords.get a).drop (offset.get a)).take (d.extent a)
  spacing := r.spacing
  shearOffset := r.shearOffset

def encodePersistent (p : Precision) : PersistentValue Binary64 → Bytes
  | .ints values => Record.encodeInts values
  | .reals values => Record.encodeReals p values

/-- Pairs of id and payload between an opening and a closing id, or nothing. -/
def encodePersistence (p : Precision) (entries : List (Int × PersistentValue Binary64)) : Bytes :=
  let idRecord := fun id => Record.frame (Record.encodeInt 4 id)
  if entries.isEmpty then []
  else idRecord Persistence.sentinel
    ++ entries.flatMap (fun e => idRecord e.1 ++ Record.frame (encodePersistent p e.2))
    ++ idRecord Persistence.sentinel

def snapshotFile (r : RunRecipe) (d : Dimensions) (offset : PerAxis Nat) : Bytes :=
  Block.encode r.precision ((r.tensor d offset).cells.toList.map .ofFloat) (r.coordRecord d offset)
    ++ encodePersistence r.precision r.persistence

def gridFile (r : RunRecipe) : Bytes :=
  let record := fun values => Record.frame (Record.encodeReals r.precision values)
  let d := r.wholeDims
  let coords := { r.coordRecord d (.uniform 0) with shearOffset := none }
  record coords.toValues
    ++ record (Axis.all.map fun a => .ofNat (r.cells.get a) * r.spacing.get a)
    ++ record (Axis.all.map fun a => (r.wholeCoords.get a).getD r.ghost 0.0)
    ++ record (Axis.all.flatMap fun a => List.replicate (d.extent a) (1.0 / r.spacing.get a))

def logicalText (b : Bool) : String := if b then "T" else "F"

def paramFile (r : RunRecipe) : String :=
  "&INIT_PARS\n" ++
  s!" COORD_SYSTEM='{r.coordinates.name}',\n" ++
  s!" LSHEAR={logicalText r.shearOffset.isSome},\n" ++
  s!" LWRITE_AUX={logicalText r.writesAuxiliary},\n" ++
  s!" LWRITE_2D={logicalText r.twoDimensional},\n" ++
  (match r.ioStrategy with
    | some tag => s!" IO_STRATEGY=\"{tag}\",\n"
    | none => "") ++
  s!" LCOLLECTIVE_IO={logicalText r.collective},\n" ++
  "/\n&EOS_INIT_PARS\n" ++
  s!" CP={Decimal.shortestText r.eos.cp},\n" ++
  s!" GAMMA={Decimal.shortestText r.eos.gamma},\n" ++
  s!" CS0={Decimal.shortestText r.eos.soundSpeed},\n" ++
  s!" RHO0={Decimal.shortestText r.eos.density},\n" ++
  "/\n"

inductive Action where
  | makeDirectory (p : Path)
  | writeFile (p : Path) (content : Bytes)

def textBytes (s : String) : Bytes := s.toUTF8.toList

/-- The part of one processor: its directory, its dimensions and its snapshot. -/
def partActions (r : RunRecipe) (dir : Path) (p : PerAxis Nat) : List Action :=
  let home := dir.join (MetadataFiles.processorDir (r.processorNumber p))
  let d := r.partDims p
  let offset := PerAxis.ofFn fun a => p.get a * r.partCells.get a
  [.makeDirectory home,
   .writeFile (home.join "dim.dat") (textBytes (DimFile.render d p)),
   .writeFile (home.join r.fileName) (r.snapshotFile d offset)]

def actions (r : RunRecipe) (dir : Path) : List Action :=
  let textFile := fun name text => Action.writeFile (dir.join name) (textBytes text)
  [.makeDirectory dir,
   textFile "dim.dat" (DimFile.render r.wholeDims r.processors),
   textFile "index.pro" (IndexFile.render r.index.entries),
   textFile "param.nml" r.paramFile]
  ++ (if r.started then [textFile "time_series.dat" "#--it-----t-----\n"] else [])
  ++ (if r.writesGrid then [.writeFile (dir.join "grid.dat") r.gridFile] else [])
  ++ if r.collective then
      let home := dir.join SnapshotDir.shared.name
      [.makeDirectory home,
       .writeFile (home.join r.fileName) (r.snapshotFile r.wholeDims (.uniform 0))]
    else
      .writeFile (dir.join "proc_bounds.dat") (List.replicate 16 0)
        :: r.positions.flatMap (r.partActions dir)

def Action.run (t : FileTree) : Action → FileTree × Bool
  | makeDirectory p => t.makeDirectory p
  | writeFile p content => t.after (t.writeFile p content)

/-- Takes steps up to the first that fails, and says whether all were taken. -/
def runActions : List Action → FileTree → FileTree × Bool
  | [], t => (t, true)
  | a :: as, t => match a.run t with
    | (t, true) => runActions as t
    | (t, false) => (t, false)

def write (r : RunRecipe) (dir : Path) (t : FileTree) : FileTree × Bool :=
  runActions (r.actions dir) t

end RunRecipe

end GridSnapshot
