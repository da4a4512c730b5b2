import GridSnapshot.Derivation
import GridSnapshot.Metadata.Files
import GridSnapshot.SnapshotReading

namespace GridSnapshot

structure SnapshotRequest where
  dir : Path
  options : ReadOptions
  derived : List DerivedQuantity

/-- Why a request has no snapshot. -/
inductive RequestFault where
  | read (e : ReadFault)
  /-- A strict request fails with its first field that cannot be derived. -/
  | derive (field : DerivedQuantity) (e : DerivationFault)
  | unknownTag (tag : String)
  | trim (e : TrimFault)
  deriving DecidableEq, Repr

namespace RequestFault

def message : RequestFault → String
  | read e => e.message
  | derive field e => s!"derived field '{field.tag}': {e.message}"
  | unknownTag tag => DerivedQuantity.unknownTagMessage tag
  | trim e => s!"trim: {e.message}"

def isNotStarted : RequestFault → Bool
  | read e => e.isNotStarted
  | _ => false

def depth : RequestFault → Nat
  | read e => e.depth + 1
  | _ => 1

end RequestFault

/-- What is kept from one read to the next. -/
structure SnapshotReader where
  cache : MetadataCache Float
  containers : Option (ContainerStore Float)
  cancelled : Bool

namespace SnapshotReader

def new : SnapshotReader := ⟨.empty, none, false⟩

/-- The state in one line. -/
def summary (r : SnapshotReader) : String :=
  let c := r.cache
  s!"VarReader \x7b cache: MetadataCache \x7b runs: {c.runs.size}, hits: {c.hits}, " ++
  s!"misses: {c.misses} \x7d, backend: {r.containers.isSome}, cancelled: {r.cancelled} \x7d"

variable {α : Type} [RealOps α] [Narrowing Float α]

/-- Whether a field needs the curl of a view that is cut outside the variable axis. -/
def cutsOutside (s : Snapshot Float α) (field : DerivedQuantity) : Bool :=
  let outside := fun (name : String) => (s.views.get? name).any s.isCutOutside
  match field with
  | .bb | .jj => !s.has field.tag && outside "aa"
  | .vort => !s.has field.tag && outside "uu"
  | .bbtest =>
    let groups := (s.metadata.index.numberedGroups "aatest").filter fun g =>
      !s.has (Derivation.magneticName g.name)
    let before := groups.takeWhile fun g => !outside g.name
    -- a group in front of it that fails ends the field
    before.length < groups.length &&
      (Derivation.magneticFields CentralDifference.scheme s (.ofSnapshot s) before).isOk
  | _ => false

/-- Derives what a request asks for. -/
def deriveStep (request : SnapshotRequest) (s : Snapshot Float α) :
    Except RequestFault (Snapshot Float α) :=
  if request.derived.isEmpty then .ok s
  else if request.derived.any (cutsOutside s) then .error (.read (.layout .outOfRange))
  else
    let (s, report) := s.derive CentralDifference.scheme request.derived
    match report.firstFailure with
    | some (field, e) => if request.options.strict then .error (.derive field e) else .ok s
    | none => .ok s

def trimStep (request : SnapshotRequest) (s : Snapshot Float α) :
    Except RequestFault (Snapshot Float α) :=
  if request.options.trims then s.trim.mapError .trim else .ok s

/-- Reads a snapshot of a run in the given files. -/
def read {σ : Type} (r : SnapshotReader) (src : MetadataSupplier σ Float) (tree : FileTree)
    (request : SnapshotRequest) (world : σ) :
    Except RequestFault (Snapshot Float α) × SnapshotReader × σ :=
  let (plan, cache, world) := (ReadPlan.make src tree request.dir request.options).run.run
    (r.cache, world)
  let result := do
    let plan ← plan.mapError RequestFault.read
    let s ← (plan.read tree r.containers r.cancelled).mapError RequestFault.read
    let s ← deriveStep request s
    trimStep request s
  (result, { r with cache := cache }, world)

end SnapshotReader

end GridSnapshot
