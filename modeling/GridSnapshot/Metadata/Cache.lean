import GridSnapshot.Metadata.Supplier

namespace GridSnapshot

structure CachedRun (ω : Type) where
  metadata : RunMetadata ω
  processors : Table Nat Dimensions
  /-- None as long as nobody asked; then the grid, or none for a run without one. -/
  grid : Option (Option (Grid ω))

/-- Answers by the place of the run directory, so that all paths to the place share them. Failures
are not kept. -/
structure MetadataCache (ω : Type) where
  runs : Table (Place × Resolution) (CachedRun ω)
  hits : Nat
  misses : Nat

/-- A step on a cache and the state of a source; both keep what happened before a failure. -/
abbrev Consulting (σ ω α : Type) := ExceptT MetadataFault (StateM (MetadataCache ω × σ)) α

namespace MetadataCache

variable {σ ω : Type}

def empty : MetadataCache ω := ⟨.empty, 0, 0⟩

def countHit (c : MetadataCache ω) : MetadataCache ω := { c with hits := c.hits + 1 }

def countMiss (c : MetadataCache ω) : MetadataCache ω := { c with misses := c.misses + 1 }

def put (c : MetadataCache ω) (key : Place × Resolution) (run : CachedRun ω) : MetadataCache ω :=
  { c with runs := c.runs.insert key run }

def ask {α : Type} (question : StateM σ (Except MetadataFault α)) : Consulting σ ω α :=
  ExceptT.mk fun (c, w) => let (answer, w) := question.run w; (answer, (c, w))

/-- The entry of a run, made from the source's answer if there is none. -/
def entry (src : MetadataSupplier σ ω) (dir : Directory) (res : Resolution) :
    Consulting σ ω (CachedRun ω) := do
  let (c, _) ← get
  match c.runs.get? (dir.place, res) with
  | some run =>
    modify fun (c, w) => (c.countHit, w)
    pure run
  | none =>
    modify fun (c, w) => (c.countMiss, w)
    let metadata ← ask (src.runMetadata dir.path res)
    let run : CachedRun ω := ⟨metadata, .empty, none⟩
    modify fun (c, w) => (c.put (dir.place, res) run, w)
    pure run

def update (src : MetadataSupplier σ ω) (dir : Directory) (res : Resolution)
    (f : CachedRun ω → CachedRun ω) : Consulting σ ω Unit := do
  let run ← entry src dir res
  modify fun (c, w) => (c.put (dir.place, res) (f run), w)

def run (src : MetadataSupplier σ ω) (dir : Directory) (res : Resolution) :
    Consulting σ ω (RunMetadata ω) := do
  pure (← entry src dir res).metadata

def processorDims (src : MetadataSupplier σ ω) (dir : Directory) (n : Nat) (res : Resolution) :
    Consulting σ ω Dimensions := do
  match (← entry src dir res).processors.get? n with
  | some d => pure d
  | none =>
    let d ← ask (src.processorDims dir.path n res)
    update src dir res fun run => { run with processors := run.processors.insert n d }
    pure d

/-- That a run has no grid is an answer too. -/
def noGridAsNone {α : Type} : Except MetadataFault α → Except MetadataFault (Option α)
  | .ok g => .ok (some g)
  | .error (.noGrid _) => .ok none
  | .error e => .error e

def grid (src : MetadataSupplier σ ω) (dir : Directory) (res : Resolution) :
    Consulting σ ω (Option (Grid ω)) := do
  let run ← entry src dir res
  match run.grid with
  | some g => pure g
  | none =>
    let g ← ask (noGridAsNone <$> src.grid dir.path run.metadata.dims)
    update src dir res fun run => { run with grid := some g }
    pure g

/-- Drops all that is kept for a place, and says whether there was anything. -/
def invalidate (c : MetadataCache ω) (place : Place) : Bool × MetadataCache ω :=
  let runs := c.runs.filter fun key => key.1 ≠ place
  (runs.size ≠ c.runs.size, { c with runs := runs })

def clear (c : MetadataCache ω) : MetadataCache ω := { c with runs := .empty }

end MetadataCache

end GridSnapshot
