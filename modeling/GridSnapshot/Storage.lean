import GridSnapshot.NaturalOrder
import GridSnapshot.ReadFault
import GridSnapshot.SnapshotChoice

namespace GridSnapshot

inductive Storage where
  /-- One container file with the whole grid. -/
  | container
  /-- One record file with the whole grid. -/
  | collective
  /-- One record file for each processor. -/
  | perProcess
  deriving DecidableEq, Repr

namespace Storage

def name : Storage → String
  | container => "ContainerCollective"
  | collective => "LegacyCollective"
  | perProcess => "LegacyPerProcess"

def ofName? (name : String) : Option Storage :=
  [container, collective, perProcess].find? fun s => s.name = name

def isContainer : Storage → Bool
  | container => true
  | _ => false

/-- A run with the container tag or a container grid has container files. Without a tag, or with
the tag of record files, it has record files; other tags are not supported. -/
def ofRun {ω : Type} (tree : FileTree) (dir : Path) (params : RunSettings ω) :
    Except ReadFault Storage :=
  if params.ioStrategy = some "HDF5" ∨ tree.isPresent (dir.join "grid.h5") then .ok container
  else match params.ioStrategy with
    | none => .ok (if params.collective then collective else perProcess)
    | some tag =>
      if tag = "dist" then .ok (if params.collective then collective else perProcess)
      else .error (.unsupported (.ioStrategy tag))

end Storage

/-- A directory with a snapshot file, of one processor or of all. -/
structure SnapshotDir where
  name : String
  processor : Option Nat
  deriving DecidableEq, Repr

namespace SnapshotDir

def numbered (n : Nat) : SnapshotDir := ⟨s!"proc{n}", some n⟩

def shared : SnapshotDir := ⟨"allprocs", none⟩

/-- What follows the stem of a processor directory. -/
def suffix? (name : String) : Option (List Char) :=
  match name.toList with
  | 'p' :: 'r' :: 'o' :: 'c' :: rest => some rest
  | _ => none

def ofName? (name : String) : Option SnapshotDir := do
  let digits ← suffix? name
  let n ← Decimal.parseSize? digits
  pure ⟨name, some n⟩

/-- The processor directories of a run in natural order. -/
def discover (tree : FileTree) (dir : Path) : Except ReadFault (List SnapshotDir) :=
  match tree.list dir with
  | .error fault => .error (.file dir fault)
  | .ok names =>
    let candidates := names.filter fun n => (suffix? n).isSome ∧ n ≠ "proc_bounds.dat"
    .ok ((NaturalOrder.sort candidates).filterMap ofName?)

/-- The directories to read; a run without processor directories lacks the first one. -/
def select (tree : FileTree) (dir : Path) (storage : Storage) (p : ProcessorChoice) :
    Except ReadFault (List SnapshotDir) :=
  match storage, p with
  | .perProcess, .single n => .ok [numbered n]
  | .perProcess, .all => do
    match ← discover tree dir with
    | [] => .error (.fileNotFound (dir.join "proc0"))
    | dirs => .ok dirs
  | _, _ => .ok [shared]

end SnapshotDir

end GridSnapshot
