import GridSnapshot.GridFile
import GridSnapshot.Metadata.Cache
import GridSnapshot.Storage
import GridSnapshot.StoredAxes

namespace GridSnapshot

/-- A snapshot file and the dimensions it was written with. -/
structure Subdomain where
  dir : SnapshotDir
  path : Path
  dims : Dimensions
  deriving DecidableEq, Repr

/-- What a read is going to do, settled before any snapshot file is opened. -/
structure ReadPlan (ω : Type) where
  dir : Path
  storage : Storage
  metadata : RunMetadata ω
  layout : StoredAxes
  /-- The files, in natural order of their directories. -/
  subdomains : List Subdomain
  readsPersistence : Bool
  workers : Nat
  grid : Option (Grid ω)

/-- A step of a read, on a cache and the state of a source. -/
abbrev Planning (σ ω α : Type) := ExceptT ReadFault (StateM (MetadataCache ω × σ)) α

namespace Planning

variable {σ ω α : Type}

def consult (step : Consulting σ ω α) : Planning σ ω α :=
  ExceptT.mk do
    match ← step.run with
    | .ok a => pure (.ok a)
    | .error e => pure (.error (.metadata e))

def check (e : Except ReadFault α) : Planning σ ω α := ExceptT.mk (pure e)

end Planning

namespace ReadPlan

variable {σ ω : Type}

/-- A file that a run has from its first step on. -/
def startedMarker : String := "time_series.dat"

/-- A later snapshot needs a run that has started. -/
def checkStarted (tree : FileTree) (dir : Path) (s : SnapshotChoice) : Except ReadFault Unit :=
  if ¬ s.mayPrecedeStart ∧ ¬ tree.isPresent (dir.join startedMarker) then
    .error (.notStarted (s.fileName false))
  else .ok ()

/-- The snapshot file in a directory. Record files are looked for, container files are not. -/
def snapshotFile (tree : FileTree) (dir : Path) (storage : Storage) (d : SnapshotDir)
    (name : String) : Except ReadFault Path :=
  let p := (dir.join d.name).join name
  if ¬ storage.isContainer ∧ ¬ tree.isFile p then .error (.fileNotFound p) else .ok p

def findSubdomain (src : MetadataSupplier σ ω) (tree : FileTree) (dir : Directory)
    (res : Resolution) (storage : Storage) (whole : Dimensions) (name : String) (d : SnapshotDir) :
    Planning σ ω Subdomain := do
  let p ← Planning.check (snapshotFile tree dir.path storage d name)
  match d.processor with
  | some n => pure ⟨d, p, ← Planning.consult (MetadataCache.processorDims src dir n res)⟩
  | none => pure ⟨d, p, whole⟩

def findSubdomains (src : MetadataSupplier σ ω) (tree : FileTree) (dir : Directory)
    (res : Resolution) (storage : Storage) (whole : Dimensions) (name : String) :
    List SnapshotDir → Planning σ ω (List Subdomain)
  | [] => pure []
  | d :: ds => do
    let s ← findSubdomain src tree dir res storage whole name d
    pure (s :: (← findSubdomains src tree dir res storage whole name ds))

/-- A grid file that cannot be parsed counts as none. -/
def ignoreUnparsable {α : Type} : Except MetadataFault (Option α) → Except MetadataFault (Option α)
  | .error (.unparsable ..) => .ok none
  | answer => answer

/-- The grid of a run. The grid file has the cells of full resolution only. -/
def findGrid (src : MetadataSupplier σ ω) (dir : Directory) :
    Resolution → Planning σ ω (Option (Grid ω))
  | .downsampled => pure none
  | .standard => Planning.consult <|
      ExceptT.mk (ignoreUnparsable <$> (MetadataCache.grid src dir .standard).run)

def make (src : MetadataSupplier σ ω) (tree : FileTree) (dir : Path) (o : ReadOptions) :
    Planning σ ω (ReadPlan ω) := do
  Planning.check (checkStarted tree dir o.snapshot)
  let res := o.snapshot.resolution
  let at' := tree.directory dir
  let metadata ← Planning.consult (MetadataCache.run src at' res)
  let storage ← Planning.check (Storage.ofRun tree dir metadata.params)
  let name := o.snapshot.fileName storage.isContainer
  let dirs ← Planning.check (SnapshotDir.select tree dir storage o.processor)
  let subs ← findSubdomains src tree at' res storage metadata.dims name dirs
  let grid ← findGrid src at' res
  pure
    { dir := dir
      storage := storage
      metadata := metadata
      layout := .ofOutput metadata.params.twoDimensional metadata.dims
      subdomains := subs
      readsPersistence := o.readsPersistence
      workers := o.workerCount
      grid := grid }

end ReadPlan

end GridSnapshot
