import GridSnapshot.Decimal.Integer
import GridSnapshot.RunMetadata

namespace GridSnapshot

/-- Which snapshot of a run is meant: the last one, a numbered one, or a file by its name. -/
inductive SnapshotChoice where
  | latest
  | number (n : Nat)
  | file (name : String)
  deriving DecidableEq, Repr

namespace SnapshotChoice

/-- The file to open, in a run of record files or of container files. -/
def fileName (s : SnapshotChoice) (container : Bool) : String :=
  match s, container with
  | latest, false => "var.dat"
  | latest, true => "var.h5"
  | number n, false => s!"VAR{n}"
  | number n, true => s!"VAR{n}.h5"
  | file name, _ => name

/-- Files whose names start with VARd are downsampled and have their own dimension files. -/
def resolution : SnapshotChoice → Resolution
  | file name => if "VARd".toList.isPrefixOf name.toList then .downsampled else .standard
  | _ => .standard

/-- The number in a name of the form VAR<n>, with any letters d in front of the number. -/
def numberIn? (name : String) : Option Nat :=
  match name.toList with
  | 'V' :: 'A' :: 'R' :: rest =>
    (Decimal.parseBelow (Word.count 4) (rest.dropWhile (· = 'd'))).toOption
  | _ => none

/-- Whether the snapshot may exist before the first step of the run: all but the numbered ones
after number zero. -/
def mayPrecedeStart : SnapshotChoice → Bool
  | latest => true
  | number n => n = 0
  | file name => match numberIn? name with
    | some n => n = 0
    | none => true

end SnapshotChoice

/-- Which processors' parts are read. -/
inductive ProcessorChoice where
  | all
  | single (n : Nat)
  deriving DecidableEq, Repr

structure ReadOptions where
  snapshot : SnapshotChoice
  processor : ProcessorChoice
  /-- Drop the ghost cells after derivation. -/
  trims : Bool
  readsPersistence : Bool
  /-- A field that cannot be derived fails the read. -/
  strict : Bool
  /-- How many files to decode at a time. -/
  workers : Nat

/-- A worker count between one and 64. -/
def ReadOptions.workerCount (o : ReadOptions) : Nat := max 1 (min o.workers 64)

end GridSnapshot
