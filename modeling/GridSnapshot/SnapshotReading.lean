import GridSnapshot.Assembly
import GridSnapshot.Container
import GridSnapshot.DecodePool
import GridSnapshot.ReadPlan

namespace GridSnapshot

namespace ReadPlan

variable {α : Type} [Zero α] [Narrowing Float α]

def blockSpec {ω : Type} (plan : ReadPlan ω) (d : Dimensions) : BlockForm where
  precision := d.precision
  extents := d.extents
  cells := Word.wrap (plan.layout.cells d)
  vars := plan.metadata.slotCount
  shear := plan.metadata.params.shear
  readsPersistence := plan.readsPersistence

/-- The contents of a snapshot file. -/
def readBlock (tree : FileTree) (p : Path) (spec : BlockForm) :
    Except RecordFault (Block Float α) :=
  match tree.read p with
  | .error fault => .error (.file fault)
  | .ok content => (Block.read spec).decode content

def decode (plan : ReadPlan Float) (tree : FileTree) (sub : Subdomain) :
    Except ReadFault (Block Float α) :=
  (readBlock tree sub.path (plan.blockSpec sub.dims)).mapError (.ofRecord sub.path)

/-- Whether a grid has as many coordinates as a part has cells. -/
def gridFits (g : Grid Float) (d : Dimensions) : Bool := g.coords.map List.length = d.extents

/-- The snapshot of a single file, with the coordinates that the file has. -/
def single (plan : ReadPlan Float) (tree : FileTree) (sub : Subdomain) :
    Except ReadFault (Snapshot Float α) := do
  let block : Block Float α ← plan.decode tree sub
  let shape := plan.layout.shape block.vars sub.dims
  match Tensor.ofArray? shape block.data with
  | none => .error (.layout (.blockShape shape block.data.size))
  | some f =>
    let c := SnapshotScalars.ofRecord block.coords
    .ok (.ofContent {
      f := f
      layout := plan.layout
      coords := block.coords.coords.map (·.map narrow)
      time := c.time
      spacing := c.spacing
      shearOffset := c.shearOffset
      bounds := sub.dims.interiorBounds
      metadata := plan.metadata
      persistence := block.persistence
      grid := plan.grid.filter fun g => gridFits g sub.dims })

def placeSubdomain (asm : Assembly Float α) (sub : Subdomain) (block : Block Float α) :
    Except ReadFault (Assembly Float α) :=
  (asm.place sub.dims block).mapError .layout

/-- The snapshot of several files, each placed in the whole grid. -/
def stitched (plan : ReadPlan Float) (tree : FileTree) : Except ReadFault (Snapshot Float α) := do
  let asm ← decodeInOrder (plan.decode tree) placeSubdomain plan.subdomains
    (.empty plan.layout plan.metadata.dims plan.metadata.slotCount)
  (asm.snapshot plan.metadata plan.grid).mapError .layout

/-- The snapshot of record files; a cancelled read opens none. -/
def readRecords (plan : ReadPlan Float) (tree : FileTree) (cancelled : Bool) :
    Except ReadFault (Snapshot Float α) :=
  match plan.subdomains with
  | [] => .error (.layout .noSubdomain)
  | [sub] => if cancelled then .error .cancelled else plan.single tree sub
  | _ => if cancelled then .error .cancelled else plan.stitched tree

/-- Puts a tensor in one slot of the variable axis. -/
def setSlot (f : Tensor α) (slot : Nat) (t : Tensor α) : Tensor α :=
  let cells := volume t.shape
  f.mapPlaces fun i x =>
    if slot * cells ≤ i ∧ i < (slot + 1) * cells then t.cells.getD (i - slot * cells) 0 else x

/-- A failure inside a container, where a missing container is a missing snapshot. -/
def containerError (p : Path) : ContainerFault → ReadFault
  | .missing entry => if Path.components ⟨entry⟩ = p.components then .fileNotFound p
    else .container p (.missing entry)
  | e => .container p e

/-- The slot of a dataset, for a name that has one in the tensor. -/
def datasetSlot? (index : SlotIndex) (vars : Nat) (name : String) : Option Nat :=
  match index.get? name with
  | some (slot + 1) => if slot < vars then some slot else none
  | _ => none

/-- Copies datasets into their slots; those without a slot are passed over. -/
def fillSlots (plan : ReadPlan Float) (p : Path) (c : Container Float) (cancelled : Bool) :
    List String → Tensor α → Except ReadFault (Tensor α)
  | [], f => .ok f
  | name :: names, f =>
    if cancelled then .error .cancelled
    else match datasetSlot? plan.metadata.index plan.metadata.slotCount name with
      | none => fillSlots plan p c cancelled names f
      | some slot => do
        let t ← (c.read ("data/" ++ name)).mapError (containerError p)
        let expected := plan.layout.cellShape plan.metadata.dims
        if t.shape ≠ expected then .error (.layout (.containerShape name t.shape expected))
        else fillSlots plan p c cancelled names (setSlot f slot (t.map narrow))

/-- What is missing is left out. -/
def optional {β : Type} : Except ContainerFault β → Except ContainerFault (Option β)
  | .ok b => .ok (some b)
  | .error (.missing _) => .ok none
  | .error e => .error e

/-- The persistent values of a container, all of them real. -/
def containerPersistence (c : Container Float) : Except ContainerFault (Persistence Float) := do
  match ← optional (c.names "persist") with
  | none => .ok .empty
  | some names => names.foldlM (fun values name => do
      let t ← c.read ("persist/" ++ name)
      .ok (values.insert name (.reals t.cells.toList))) .empty

/-- The snapshot in a container file, which has the whole grid. -/
def readContainer (plan : ReadPlan Float) (store : ContainerStore Float) (cancelled : Bool) :
    Except ReadFault (Snapshot Float α) := do
  match plan.subdomains with
  | [] => .error (.layout .noContainer)
  | sub :: _ =>
    let p := sub.path
    let wrap := fun {β : Type} (e : Except ContainerFault β) => e.mapError (containerError p)
    let d := plan.metadata.dims
    let c ← wrap (store.openFile p)
    let f ← plan.fillSlots p c cancelled (← wrap (c.names "data"))
      (.fill (plan.layout.shape plan.metadata.slotCount d) 0)
    let time ← wrap (c.scalar "time")
    let x ← wrap (c.read "grid/x")
    let y ← wrap (c.read "grid/y")
    let z ← wrap (c.read "grid/z")
    let dx ← wrap (c.scalar "grid/dx")
    let dy ← wrap (c.scalar "grid/dy")
    let dz ← wrap (c.scalar "grid/dz")
    let offset ← if plan.metadata.params.shear then
        wrap (optional (c.scalar "persist/shear_delta_y"))
      else .ok none
    let persistence ← if plan.readsPersistence then wrap (containerPersistence c) else .ok .empty
    .ok (.ofContent {
      f := f
      layout := plan.layout
      coords := (⟨x, y, z⟩ : PerAxis (Tensor Float)).map fun t => t.cells.toList.map narrow
      time := narrow time
      spacing := ⟨narrow dx, narrow dy, narrow dz⟩
      shearOffset := offset.map narrow
      bounds := d.interiorBounds
      metadata := plan.metadata
      persistence := persistence
      grid := plan.grid })

/-- Carries out a plan. Container files are read from a store, if there is one. -/
def read (plan : ReadPlan Float) (tree : FileTree) (store : Option (ContainerStore Float))
    (cancelled : Bool) : Except ReadFault (Snapshot Float α) :=
  match plan.storage, store with
  | .container, none => .error (.unsupported .noContainerBackend)
  | .container, some store => plan.readContainer store cancelled
  | _, _ => plan.readRecords tree cancelled

end ReadPlan

end GridSnapshot
